import FormulaSheet.Data.Json.Raw
import FormulaSheet.Data.Json.Reader
import FormulaSheet.Proofs.Data.Raw
/-!
Texts in JSON. A text reads back code point by code point as what was written: beyond sixteen bits
the two halves of a pair give the code point back, and a surrogate is no half of a pair unless its
other half stands beside it. What is written is visible ASCII and the space.
-/

namespace FormulaSheet.Json

/-! Units. -/

theorem hexDigit?_digitChar {d : Nat} (h : d < 16) : hexDigit? d.digitChar = some d := by
  have all : ∀ d < 16, hexDigit? d.digitChar = some d := by decide
  exact all d h

theorem hexadecimal_four {n : Nat} (h : n < 0x10000) :
    Text.hexadecimal 4 n = [(n / 0x1000).digitChar, (n / 0x100 % 16).digitChar,
      (n / 0x10 % 16).digitChar, (n % 16).digitChar] := by
  have zero : Nat.digitChar 0 = '0' := rfl
  unfold Text.hexadecimal
  by_cases one : n < 0x10
  · have front : n / 0x1000 = 0 ∧ n / 0x100 % 16 = 0 ∧ n / 0x10 % 16 = 0 ∧ n % 16 = n := by omega
    simp [Nat.toDigits_of_lt_base one, front, zero, List.replicate]
  by_cases two : n < 0x100
  · have front : n / 0x1000 = 0 ∧ n / 0x100 % 16 = 0 ∧ n / 0x10 % 16 = n / 16 := by omega
    have last : n / 16 < 16 := by omega
    simp [Nat.toDigits_of_base_le (by omega) (Nat.le_of_not_lt one), Nat.toDigits_of_lt_base last,
      front, zero, List.replicate]
  by_cases three : n < 0x1000
  · have front : n / 0x1000 = 0 ∧ n / 0x100 % 16 = n / 16 / 16 ∧ n / 0x10 % 16 = n / 16 % 16 := by
      omega
    have next : 16 ≤ n / 16 := by omega
    have last : n / 16 / 16 < 16 := by omega
    simp [Nat.toDigits_of_base_le (by omega) (Nat.le_of_not_lt one),
      Nat.toDigits_of_base_le (by omega) next, Nat.toDigits_of_lt_base last, front, zero]
  · have front : n / 0x1000 = n / 16 / 16 / 16 ∧ n / 0x100 % 16 = n / 16 / 16 % 16 := by omega
    have next : 16 ≤ n / 16 := by omega
    have behind : 16 ≤ n / 16 / 16 := by omega
    have last : n / 16 / 16 / 16 < 16 := by omega
    simp [Nat.toDigits_of_base_le (by omega) (Nat.le_of_not_lt one),
      Nat.toDigits_of_base_le (by omega) next, Nat.toDigits_of_base_le (by omega) behind,
      Nat.toDigits_of_lt_base last, front]

/-- An escaped unit reads as the unit. -/
theorem escapeUnit_eq {n : Nat} (h : n < 0x10000) :
    ∃ a b c d, escapeUnit n = ['\\', 'u', a, b, c, d] ∧ unit? a b c d = some n := by
  refine ⟨_, _, _, _, by rw [escapeUnit, hexadecimal_four h], ?_⟩
  have value : ((n / 0x1000 * 16 + n / 0x100 % 16) * 16 + n / 0x10 % 16) * 16 + n % 16 = n := by
    omega
  simp only [unit?, hexDigit?_digitChar (show n / 0x1000 < 16 by omega),
    hexDigit?_digitChar (Nat.mod_lt _ (show 0 < 16 by decide)), value]

/-! Code points. -/

/-- A text does not begin with the low half of a pair. -/
def LowFree (cs : List Char) : Prop :=
  ∀ a b c d rest, cs = '\\' :: 'u' :: a :: b :: c :: d :: rest →
    ∀ low, unit? a b c d = some low → ¬ (0xDC00 ≤ low ∧ low < 0xE000)

theorem readString_unit {n : Nat} (h : n < 0x10000) {rest : List Char}
    (alone : 0xD800 ≤ n ∧ n < 0xDC00 → LowFree rest) :
    readString (escapeUnit n ++ rest) =
      (readString rest).map fun p => (.ofNat n :: p.1, p.2) := by
  obtain ⟨a, b, c, d, chars, unit⟩ := escapeUnit_eq h
  rw [chars, List.cons_append, List.cons_append, List.cons_append, List.cons_append,
    List.cons_append, List.cons_append, List.nil_append, readString]
  simp only [unit]
  split
  · rename_i e f g h more
    have none : (unit? e f g h).bind (pairPoint? n) = none := by
      cases hu : unit? e f g h with
      | none => rfl
      | some low =>
        refine if_neg ?_
        rintro ⟨above, below, pair⟩
        exact alone ⟨above, below⟩ e f g h more rfl low hu pair
    simp only [none]
  · rfl

theorem readString_pair {high low : Nat} (hh : 0xD800 ≤ high ∧ high < 0xDC00)
    (hl : 0xDC00 ≤ low ∧ low < 0xE000) (rest : List Char) :
    readString (escapeUnit high ++ escapeUnit low ++ rest) =
      (readString rest).map fun p =>
        (.ofNat (0x10000 + (high - 0xD800) * 0x400 + (low - 0xDC00)) :: p.1, p.2) := by
  obtain ⟨a, b, c, d, chars, unit⟩ := escapeUnit_eq (n := high) (by omega)
  obtain ⟨e, f, g, h, chars', unit'⟩ := escapeUnit_eq (n := low) (by omega)
  have pair : pairPoint? high low =
      some (.ofNat (0x10000 + (high - 0xD800) * 0x400 + (low - 0xDC00))) :=
    if_pos ⟨hh.1, hh.2, hl.1, hl.2⟩
  simp only [chars, chars', List.cons_append, List.nil_append]
  rw [readString]
  simp only [unit, unit', Option.bind_some, pair]

theorem readString_short {mark c : Char} (h : escape? mark = some c) (rest : List Char) :
    readString ('\\' :: mark :: rest) = (readString rest).map fun p => (.ofChar c :: p.1, p.2) := by
  have notUnit : mark ≠ 'u' := by
    rintro rfl
    cases h
  rw [readString]
  · simp only [h]
  · simp [notUnit]

theorem readString_plain {c : Char} (low : 0x20 ≤ c.toNat) (quote : c ≠ '"') (backslash : c ≠ '\\')
    (rest : List Char) :
    readString (c :: rest) = (readString rest).map fun p => (.ofChar c :: p.1, p.2) := by
  have visible : ¬ (c.toNat < 0x20 ∨ c = '\\') := by
    rintro (control | same)
    · omega
    · exact backslash same
  rw [readString]
  · exact if_neg visible
  · exact quote
  · simp [backslash]
  · simp [backslash]

/-- Visible ASCII and the space. -/
def IsPlainChar (c : Char) : Prop := 0x20 ≤ c.toNat ∧ c.toNat < 0x7F

instance (c : Char) : Decidable (IsPlainChar c) :=
  inferInstanceAs (Decidable (0x20 ≤ c.toNat ∧ c.toNat < 0x7F))

theorem isPlainChar_of_all {cs : List Char} (h : (cs.all fun c => decide (IsPlainChar c)) = true) :
    ∀ c ∈ cs, IsPlainChar c :=
  fun c hc => of_decide_eq_true (List.all_eq_true.mp h c hc)

/-- A character is written with a mark of its own, as it is, as one unit, or as two. -/
theorem escapeChar_cases (c : Char) :
    (∃ mark, IsPlainChar mark ∧ escape? mark = some c ∧ escapeChar c = ['\\', mark]) ∨
    (IsPlainChar c ∧ c ≠ '"' ∧ c ≠ '\\' ∧ escapeChar c = [c]) ∨
    (c.toNat < 0x10000 ∧ (c.toNat < 0xD800 ∨ 0xE000 ≤ c.toNat) ∧
      escapeChar c = escapeUnit c.toNat) ∨
    ∃ high low, (0xD800 ≤ high ∧ high < 0xDC00) ∧ (0xDC00 ≤ low ∧ low < 0xE000) ∧
      0x10000 + (high - 0xD800) * 0x400 + (low - 0xDC00) = c.toNat ∧
      escapeChar c = escapeUnit high ++ escapeUnit low := by
  have range : c.toNat < 0xD800 ∨ 0xE000 ≤ c.toNat ∧ c.toNat < 0x110000 := by
    rcases c.valid with small | ⟨low, high⟩
    · exact .inl small
    · exact .inr ⟨Nat.succ_le_of_lt low, high⟩
  by_cases quote : c = '"'
  · subst quote
    exact .inl ⟨'"', by decide, rfl, rfl⟩
  by_cases backslash : c = '\\'
  · subst backslash
    exact .inl ⟨'\\', by decide, rfl, rfl⟩
  by_cases feed : c = '\n'
  · subst feed
    exact .inl ⟨'n', by decide, rfl, rfl⟩
  by_cases back : c = '\r'
  · subst back
    exact .inl ⟨'r', by decide, rfl, rfl⟩
  by_cases tab : c = '\t'
  · subst tab
    exact .inl ⟨'t', by decide, rfl, rfl⟩
  by_cases form : c = '\x0C'
  · subst form
    exact .inl ⟨'f', by decide, rfl, rfl⟩
  by_cases erase : c = '\x08'
  · subst erase
    exact .inl ⟨'b', by decide, rfl, rfl⟩
  have chars : escapeChar c =
      if 0x20 ≤ c.toNat ∧ c.toNat < 0x7F then [c]
      else if c.toNat < 0x10000 then escapeUnit c.toNat
      else escapeUnit (0xD800 + (c.toNat - 0x10000) / 0x400) ++
        escapeUnit (0xDC00 + (c.toNat - 0x10000) % 0x400) := by
    simp only [escapeChar, quote, backslash, feed, back, tab, form, erase, if_false]
  rw [chars]
  refine .inr ?_
  by_cases plain : 0x20 ≤ c.toNat ∧ c.toNat < 0x7F
  · exact .inl ⟨plain, quote, backslash, if_pos plain⟩
  by_cases small : c.toNat < 0x10000
  · refine .inr (.inl ⟨small, by omega, ?_⟩)
    rw [if_neg plain, if_pos small]
  · refine .inr (.inr ⟨0xD800 + (c.toNat - 0x10000) / 0x400, 0xDC00 + (c.toNat - 0x10000) % 0x400,
      by omega, by omega, by omega, ?_⟩)
    rw [if_neg plain, if_neg small]

/-- So is a code point, where a surrogate is one unit. -/
theorem escape_cases (p : CodePoint) :
    (∃ mark c, IsPlainChar mark ∧ escape? mark = some c ∧ .ofChar c = p ∧
      p.escape = ['\\', mark]) ∨
    (∃ c, IsPlainChar c ∧ c ≠ '"' ∧ c ≠ '\\' ∧ .ofChar c = p ∧ p.escape = [c]) ∨
    (p.val < 0x10000 ∧ p.escape = escapeUnit p.val) ∨
    ∃ high low, (0xD800 ≤ high ∧ high < 0xDC00) ∧ (0xDC00 ≤ low ∧ low < 0xE000) ∧
      0x10000 + (high - 0xD800) * 0x400 + (low - 0xDC00) = p.val ∧
      p.escape = escapeUnit high ++ escapeUnit low := by
  cases single : p.isSurrogate with
  | true =>
    have range := CodePoint.isSurrogate_iff.mp single
    refine .inr (.inr (.inl ⟨by omega, ?_⟩))
    rw [CodePoint.escape, single, if_pos rfl]
  | false =>
    have escape : p.escape = escapeChar p.char := by
      rw [CodePoint.escape, single, if_neg Bool.false_ne_true]
    have point := CodePoint.ofChar_char single
    have code := CodePoint.toNat_char single
    rw [escape]
    rcases escapeChar_cases p.char with ⟨mark, plain, reads, chars⟩ | ⟨plain, quote, back, chars⟩ |
      ⟨small, _, chars⟩ | pair
    · exact .inl ⟨mark, p.char, plain, reads, point, chars⟩
    · exact .inr (.inl ⟨p.char, plain, quote, back, point, chars⟩)
    · rw [code] at small chars
      exact .inr (.inr (.inl ⟨small, chars⟩))
    · rw [code] at pair
      exact .inr (.inr (.inr pair))

theorem readString_escape {p : CodePoint} {rest : List Char}
    (alone : p.isHigh = true → LowFree rest) :
    readString (p.escape ++ rest) = (readString rest).map fun q => (p :: q.1, q.2) := by
  obtain ⟨mark, c, _, reads, rfl, chars⟩ | ⟨c, plain, quote, backslash, rfl, chars⟩ |
    ⟨small, chars⟩ | ⟨high, low, hh, hl, value, chars⟩ := escape_cases p
  · rw [chars]
    exact readString_short reads rest
  · rw [chars]
    exact readString_plain plain.1 quote backslash rest
  · rw [chars, readString_unit small fun half => alone (by simpa [CodePoint.isHigh] using half),
      CodePoint.ofNat_val]
  · rw [chars, readString_pair hh hl, value, CodePoint.ofNat_val]

theorem lowFree_quote (rest : List Char) : LowFree ('"' :: rest) := by
  intro a b c d rest same
  cases same

theorem lowFree_unit {n : Nat} (h : n < 0x10000) (other : ¬ (0xDC00 ≤ n ∧ n < 0xE000))
    (rest : List Char) : LowFree (escapeUnit n ++ rest) := by
  intro a b c d behind same low unit
  obtain ⟨a', b', c', d', chars, unit'⟩ := escapeUnit_eq h
  rw [chars] at same
  cases same
  rw [unit'] at unit
  cases unit
  exact other

theorem lowFree_escape {p : CodePoint} (h : p.isLow = false) (rest : List Char) :
    LowFree (p.escape ++ rest) := by
  obtain ⟨mark, c, _, reads, _, chars⟩ | ⟨c, _, _, backslash, _, chars⟩ | ⟨small, chars⟩ |
    ⟨high, low, hh, _, _, chars⟩ := escape_cases p
  · rw [chars]
    rintro a b c d rest ⟨⟩
    cases reads
  · rw [chars]
    rintro a b c d rest ⟨⟩
    exact absurd rfl backslash
  · rw [chars]
    exact lowFree_unit small (by simpa [CodePoint.isLow] using h) rest
  · rw [chars, List.append_assoc]
    exact lowFree_unit (by omega) (by omega) _

/-- A text without pairs of surrogates reads as it was written, whatever follows it. -/
theorem readString_chars {s : RawText} (h : s.isUnpaired = true) (rest : List Char) :
    readString (s.flatMap CodePoint.escape ++ '"' :: rest) = some (s, rest) := by
  induction s with
  | nil => simp [readString]
  | cons p s ih =>
    have others : RawText.isUnpaired s = true := by
      cases s with
      | nil => rfl
      | cons q s => exact (Bool.and_eq_true_iff.mp h).2
    have alone : p.isHigh = true → LowFree (s.flatMap CodePoint.escape ++ '"' :: rest) := by
      intro high
      cases s with
      | nil => exact lowFree_quote rest
      | cons q s =>
        have apart := (Bool.and_eq_true_iff.mp h).1
        rw [high, Bool.true_and, Bool.not_eq_true'] at apart
        rw [List.flatMap_cons, List.append_assoc]
        exact lowFree_escape apart _
    rw [List.flatMap_cons, List.append_assoc, readString_escape alone, ih others]
    rfl

/-! What is written. -/

theorem isPlainChar_escapeUnit {n : Nat} (h : n < 0x10000) :
    ∀ c ∈ escapeUnit n, IsPlainChar c := by
  have all : ∀ d < 16, IsPlainChar d.digitChar := by decide
  rw [escapeUnit, hexadecimal_four h]
  intro c hc
  simp only [List.mem_cons, List.not_mem_nil, or_false] at hc
  rcases hc with rfl | rfl | rfl | rfl | rfl | rfl
  · decide
  · decide
  · exact all _ (by omega)
  · exact all _ (by omega)
  · exact all _ (by omega)
  · exact all _ (by omega)

theorem isPlainChar_escape (p : CodePoint) : ∀ d ∈ p.escape, IsPlainChar d := by
  obtain ⟨mark, _, plain, _, _, chars⟩ | ⟨c, plain, _, _, _, chars⟩ | ⟨small, chars⟩ |
    ⟨high, low, hh, hl, _, chars⟩ := escape_cases p
  · simp only [chars, List.mem_cons, List.not_mem_nil, or_false, forall_eq_or_imp, forall_eq]
    exact ⟨by decide, plain⟩
  · simpa [chars] using plain
  · rw [chars]
    exact isPlainChar_escapeUnit small
  · rw [chars]
    intro d hd
    rcases List.mem_append.mp hd with hd | hd
    · exact isPlainChar_escapeUnit (by omega) d hd
    · exact isPlainChar_escapeUnit (by omega) d hd

theorem isPlainChar_text (s : RawText) : ∀ c ∈ s.chars, IsPlainChar c := by
  intro c hc
  simp only [RawText.chars, List.mem_cons, List.mem_append, List.mem_flatMap, List.not_mem_nil,
    or_false] at hc
  rcases hc with rfl | ⟨p, _, hd⟩ | rfl
  · decide
  · exact isPlainChar_escape p c hd
  · decide

/-- A text of characters is written by its code points. -/
theorem chars_ofString (s : String) : (RawText.ofString s).chars = stringChars s := by
  have escapes : ∀ c ∈ s.toList, (CodePoint.ofChar c).escape = escapeChar c := by
    intro c _
    rw [CodePoint.escape, CodePoint.isSurrogate_ofChar, if_neg Bool.false_ne_true,
      CodePoint.char_ofChar]
  rw [RawText.chars, stringChars, RawText.ofString, List.flatMap_map, List.flatMap_def,
    List.flatMap_def, List.map_congr_left escapes]

end FormulaSheet.Json
