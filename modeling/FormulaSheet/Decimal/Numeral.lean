import FormulaSheet.Decimal.Digits
import FormulaSheet.Text.Digit
/-!
Decimal numerals: digits with an optional point and an optional exponent. `scan?` takes the longest
numeral at the front of a text, `chars` writes one back, and `value` is the float nearest to it.
Digits of every script count; signs in front of a numeral are not part of it.
-/

namespace FormulaSheet.Decimal

open Text

structure Exponent where
  mark : Char
  sign : Option Char
  digits : List Char

structure Numeral where
  /-- The digits before the point. -/
  whole : List Char
  /-- The digits after the point, if there is a point. -/
  fraction : Option (List Char)
  exponent : Option Exponent

def Exponent.chars (e : Exponent) : List Char :=
  e.mark :: (e.sign.toList ++ e.digits)

def Exponent.value (e : Exponent) : Int :=
  let n : Int := digitsValue e.digits
  if e.sign = some '-' then -n else n

def scanSign : List Char → Option Char × List Char
  | '+' :: rest => (some '+', rest)
  | '-' :: rest => (some '-', rest)
  | cs => (none, cs)

/-- An exponent needs a digit; a mark and a sign alone are none. -/
def scanExponent? : List Char → Option (Exponent × List Char)
  | [] => none
  | c :: rest =>
    if c == 'e' || c == 'E' then
      let (sign, rest) := scanSign rest
      let ds := rest.takeWhile isDigit
      if ds.isEmpty then none else some (⟨c, sign, ds⟩, rest.dropWhile isDigit)
    else none

theorem scanSign_append (cs : List Char) :
    (scanSign cs).1.toList ++ (scanSign cs).2 = cs := by
  unfold scanSign
  split <;> rfl

theorem chars_append_of_scanExponent? {cs rest : List Char} {e : Exponent}
    (h : scanExponent? cs = some (e, rest)) : e.chars ++ rest = cs := by
  unfold scanExponent? at h
  split at h
  · contradiction
  · next c tail =>
    have sign := scanSign_append tail
    split at h
    · dsimp only at h
      split at h
      · contradiction
      · cases h
        simp only [Exponent.chars, List.cons_append, List.append_assoc,
          List.takeWhile_append_dropWhile, sign]
    · contradiction

namespace Numeral

def chars (n : Numeral) : List Char :=
  n.whole ++ (n.fraction.map ('.' :: ·)).getD [] ++ (n.exponent.map Exponent.chars).getD []

theorem chars_mk (whole : List Char) (fraction : Option (List Char)) (e : Option Exponent) :
    (Numeral.mk whole fraction e).chars =
      (Numeral.mk whole fraction none).chars ++ (e.map Exponent.chars).getD [] := by
  simp [chars]

/-- Digits and point of a numeral, without its exponent. -/
def scanMantissa? (cs : List Char) : Option (Numeral × List Char) :=
  let whole := cs.takeWhile isDigit
  match cs.dropWhile isDigit with
  | '.' :: rest =>
    let fraction := rest.takeWhile isDigit
    if whole.isEmpty && fraction.isEmpty then none
    else some (⟨whole, some fraction, none⟩, rest.dropWhile isDigit)
  | rest => if whole.isEmpty then none else some (⟨whole, none, none⟩, rest)

/-- The longest numeral at the front of the text, and what follows it. -/
def scan? (cs : List Char) : Option (Numeral × List Char) :=
  (scanMantissa? cs).map fun (n, rest) =>
    match scanExponent? rest with
    | some (e, rest) => ({ n with exponent := some e }, rest)
    | none => (n, rest)

theorem chars_append_of_scanMantissa? {cs rest : List Char} {n : Numeral}
    (h : scanMantissa? cs = some (n, rest)) :
    n.exponent = none ∧ n.chars ++ rest = cs ∧ n.chars ≠ [] := by
  have whole : cs.takeWhile isDigit ++ cs.dropWhile isDigit = cs :=
    List.takeWhile_append_dropWhile
  unfold scanMantissa? at h
  split at h
  · next tail hd =>
    have fraction : tail.takeWhile isDigit ++ tail.dropWhile isDigit = tail :=
      List.takeWhile_append_dropWhile
    dsimp only at h
    split at h
    · contradiction
    · cases h
      refine ⟨rfl, ?_, by simp [chars]⟩
      rw [hd] at whole
      simp [chars, fraction, whole]
  · dsimp only at h
    split at h
    · contradiction
    · next hne =>
      cases h
      exact ⟨rfl, by simp [chars], by simpa [chars] using hne⟩

theorem chars_append_of_scan? {cs rest : List Char} {n : Numeral}
    (h : scan? cs = some (n, rest)) : n.chars ++ rest = cs ∧ n.chars ≠ [] := by
  unfold scan? at h
  obtain ⟨⟨m, tail⟩, hm, h⟩ := Option.map_eq_some_iff.1 h
  obtain ⟨he, happ, hne⟩ := chars_append_of_scanMantissa? hm
  obtain ⟨whole, fraction, exponent⟩ := m
  cases he
  dsimp only at h
  split at h
  · next e more hexp =>
    cases h
    rw [chars_mk]
    refine ⟨?_, by simp [hne]⟩
    simp only [Option.map_some, Option.getD_some, List.append_assoc]
    rw [chars_append_of_scanExponent? hexp, happ]
  · cases h
    exact ⟨happ, hne⟩

/-- The float nearest to `m * 10 ^ e`. Beyond the range of floats the magnitude of the decimal
decides, so that no power of ten is ever computed for a far-off exponent. -/
def nearestFloat (m : Nat) (e : Int) : Float :=
  if m = 0 then 0.0
  else
    let lead := e + (Decimal.digits m).length
    if 310 < lead then 1.0 / 0.0
    else if lead < -330 then 0.0
    else Float.ofScientific m (e < 0) e.natAbs

def value (n : Numeral) : Float :=
  let fraction := n.fraction.getD []
  let e := (n.exponent.map Exponent.value).getD 0
  nearestFloat (digitsValue (n.whole ++ fraction)) (e - fraction.length)

end Numeral

/-- A numeral with an optional sign that fills the text, up to one final line feed. -/
def readNumber? (cs : List Char) : Option Float :=
  let (sign, body) := scanSign cs
  match Numeral.scan? body with
  | some (n, rest) =>
    if rest = [] ∨ rest = ['\n'] then some (if sign = some '-' then -n.value else n.value)
    else none
  | none => none

end FormulaSheet.Decimal
