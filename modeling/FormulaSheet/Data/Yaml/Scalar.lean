import FormulaSheet.Data.Value
import FormulaSheet.Data.Yaml.Character
import FormulaSheet.Data.Yaml.Error
import FormulaSheet.Decimal.Numeral
/-!
What plain scalars mean: nothing, truth values, whole numbers in four notations and in base 60,
floating-point numbers, else text. Underscores may stand between the digits of numbers. A lone
equals sign and a lone merge sign mean nothing that a document could hold. Days and times are left
out, and so is every limit on the digits of a number.
-/

namespace FormulaSheet.Yaml

open Text

namespace Scalar

def nulls : List String := ["", "~", "null", "Null", "NULL"]

def trues : List String :=
  ["yes", "Yes", "YES", "true", "True", "TRUE", "on", "On", "ON"]

def falses : List String :=
  ["no", "No", "NO", "false", "False", "FALSE", "off", "Off", "OFF"]

def isUnderscoredDigit (c : Char) : Bool := isAsciiDigit c || c == '_'

def bare (cs : List Char) : List Char := cs.filter (· != '_')

/-- The value of digits in a base; characters that are no digits count as zero. -/
def valueIn (base : Nat) (cs : List Char) : Nat :=
  cs.foldl (fun n c => n * base + digitIn c) 0
where
  digitIn (c : Char) : Nat :=
    if isAsciiDigit c then c.toNat - '0'.toNat
    else if 'a' ≤ c ∧ c ≤ 'f' then c.toNat - 'a'.toNat + 10
    else if 'A' ≤ c ∧ c ≤ 'F' then c.toNat - 'A'.toNat + 10
    else 0

/-- Sixty-fold parts behind a colon each: one or two digits, the first of two at most five. -/
def isSixtieth : List Char → Bool
  | [a] => isAsciiDigit a
  | [a, b] => '0' ≤ a && a ≤ '5' && isAsciiDigit b
  | _ => false

/-- The parts of a text between colons. -/
def colonParts (cs : List Char) : List (List Char) := cs.splitOn ':'

def isHexDigit (c : Char) : Bool :=
  isAsciiDigit c || ('a' ≤ c && c ≤ 'f') || ('A' ≤ c && c ≤ 'F')

/-- A magnitude in the notations of whole numbers. -/
def whole? (cs : List Char) : Option (Except DocumentError Nat) :=
  match cs with
  | '0' :: 'b' :: d :: rest =>
    if (d :: rest).all fun c => c == '0' || c == '1' || c == '_' then
      some (if bare (d :: rest) = [] then .error (.noDigits 2)
        else .ok (valueIn 2 (bare (d :: rest))))
    else none
  | '0' :: 'x' :: d :: rest =>
    if (d :: rest).all fun c => isHexDigit c || c == '_' then
      some (if bare (d :: rest) = [] then .error (.noDigits 16)
        else .ok (valueIn 16 (bare (d :: rest))))
    else none
  | ['0'] => some (.ok 0)
  | '0' :: rest =>
    if rest.all fun c => ('0' ≤ c && c ≤ '7') || c == '_' then some (.ok (valueIn 8 (bare rest)))
    else none
  | c :: rest =>
    if isAsciiDigit c then
      if rest.all isUnderscoredDigit then some (.ok (valueIn 10 (bare cs)))
      else
        match colonParts rest with
        | first :: sixtieths =>
          if first.all isUnderscoredDigit && sixtieths.all isSixtieth then
            some (.ok ((bare (c :: first) :: sixtieths).foldl
              (fun n part => n * 60 + valueIn 10 part) 0))
          else none
        | [] => none
    else none
  | [] => none

/-- Digits, a point, digits, and an exponent with a sign. -/
def decimal? (cs : List Char) : Option Decimal.Numeral :=
  let first := cs.takeWhile isUnderscoredDigit
  match cs.dropWhile isUnderscoredDigit with
  | '.' :: rest =>
    let second := rest.takeWhile isUnderscoredDigit
    let exponent : Option (Option Decimal.Exponent) :=
      match rest.dropWhile isUnderscoredDigit with
      | [] => some none
      | e :: sign :: d :: ds =>
        if (e == 'e' || e == 'E') && (sign == '+' || sign == '-') && (d :: ds).all isAsciiDigit then
          some (some ⟨e, some sign, d :: ds⟩)
        else none
      | _ => none
    exponent.map fun exponent => ⟨bare first, some (bare second), exponent⟩
  | _ => none

/-- A number of sixty-fold parts, the last one with a point. -/
def sixtyFold? (cs : List Char) : Option (Except DocumentError Float) :=
  match colonParts cs with
  | first :: rest =>
    match rest.reverse with
    | last :: middle =>
      let whole := last.takeWhile (· != '.')
      match last.dropWhile (· != '.') with
      | '.' :: fraction =>
        if first.head?.any isAsciiDigit && first.all isUnderscoredDigit && middle.all isSixtieth &&
            isSixtieth whole && fraction.all isUnderscoredDigit then
          let lowest := Decimal.Numeral.value ⟨whole, some (bare fraction), none⟩
          let others := (middle ++ [bare first]).map fun part =>
            Decimal.Numeral.nearestFloat (valueIn 10 part) 0
          some (weighted (0.0 + lowest) 60 others)
        else none
      | _ => none
    | [] => none
  | [] => none
where
  /-- Adds parts by rising weight, each of which has to be a float. -/
  weighted (sum : Float) (weight : Nat) : List Float → Except DocumentError Float
    | [] => .ok sum
    | x :: rest =>
      let w := Decimal.Numeral.nearestFloat weight 0
      if w.isInf then .error .weightTooLarge else weighted (sum + x * w) (weight * 60) rest

/-- A magnitude in the notations of floating-point numbers. -/
def float? (signed : Bool) (cs : List Char) : Option (Except DocumentError Float) :=
  let text := String.ofList cs
  if text = ".inf" ∨ text = ".Inf" ∨ text = ".INF" then some (.ok (1.0 / 0.0))
  else if ¬ signed ∧ (text = ".nan" ∨ text = ".NaN" ∨ text = ".NAN") then some (.ok (0.0 / 0.0))
  else
    match cs with
    | '.' :: c :: _ =>
      if ¬ signed ∧ isAsciiDigit c then (decimal? cs).map fun n => .ok n.value else none
    | c :: _ =>
      if isAsciiDigit c then
        match decimal? cs with
        | some n => some (.ok n.value)
        | none => sixtyFold? cs
      else none
    | [] => none

/-! ### Moments, which are left out -/

/-- What follows a run of digits of a length within the bounds. -/
def behindDigits (least most : Nat) (cs : List Char) : Option (List Char) :=
  let n := (cs.takeWhile isAsciiDigit).length
  if least ≤ n ∧ n ≤ most then some (cs.drop n) else none

/-- What follows a character at the front. -/
def behind (c : Char) : List Char → Option (List Char)
  | [] => none
  | x :: rest => if x = c then some rest else none

/-- What follows year, month and day, the latter two of so many digits at least. -/
def behindDate (least : Nat) (cs : List Char) : Option (List Char) := do
  let cs ← behind '-' (← behindDigits 4 4 cs)
  let cs ← behind '-' (← behindDigits least 2 cs)
  behindDigits least 2 cs

/-- What follows hours, minutes and seconds with their parts. -/
def behindClock (cs : List Char) : Option (List Char) := do
  let cs ← behind ':' (← behindDigits 1 2 cs)
  let cs ← behind ':' (← behindDigits 2 2 cs)
  let cs ← behindDigits 2 2 cs
  return ((behind '.' cs).map fun cs => cs.dropWhile isAsciiDigit).getD cs

/-- Whether a text is a time zone or nothing at all. -/
def isZone (cs : List Char) : Bool :=
  match cs with
  | [] => true
  | ['Z'] => true
  | sign :: rest =>
    (sign == '+' || sign == '-') &&
      match behindDigits 1 2 rest with
      | some [] => true
      | some (':' :: rest) => behindDigits 2 2 rest == some []
      | _ => false

/-- Whether a scalar is a day, or a day and a time behind a letter or gaps. -/
def isMoment (cs : List Char) : Bool :=
  let clock :=
    match behindDate 1 cs with
    | some (c :: rest) =>
      if c == 'T' || c == 't' then behindClock rest
      else if isGap c then behindClock (rest.dropWhile isGap)
      else none
    | _ => none
  behindDate 2 cs == some [] || clock.any fun rest => isZone (rest.dropWhile isGap)

/-- The value of a plain scalar. -/
def value (cs : List Char) : Except DocumentError Value :=
  let text := String.ofList cs
  if nulls.contains text then .ok .null
  else if trues.contains text then .ok (.flag true)
  else if falses.contains text then .ok (.flag false)
  else if text = "=" ∨ text = "<<" then .error .malformed
  else
    let (sign, body) := Decimal.scanSign cs
    let negative := sign = some '-'
    match whole? body with
    | some magnitude =>
      magnitude.map fun n => .whole (if negative then -(n : Int) else n)
    | none =>
      match float? sign.isSome body with
      | some size => size.map fun x => .number (if negative then -x else x)
      | none => if isMoment cs then .error .unsupported else .ok (.text text)

end Scalar

end FormulaSheet.Yaml
