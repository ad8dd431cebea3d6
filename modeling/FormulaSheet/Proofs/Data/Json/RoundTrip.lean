import FormulaSheet.Proofs.Data.Json.Numbers
/-!
Writing and reading back. The text of a value with finite numbers, and without pairs of surrogates
in its texts, is read to its end: each number as what its own text reads as, and of several entries
with one key the last.
-/

namespace FormulaSheet.Json

open Text Decimal

/-- What can follow a value in a text. -/
def Follows (rest : List Char) : Prop := ∀ c ∈ rest.head?, c = ',' ∨ c = ']' ∨ c = '}'

theorem Follows.ends {rest : List Char} (h : Follows rest) : NumeralEnds rest := by
  intro c hc
  rcases h c hc with rfl | rfl | rfl
  · decide
  · decide
  · decide

/-! How texts of values begin. -/

/-- A digit, or a minus sign and a digit. -/
def NumberStarts (cs : List Char) : Prop :=
  ∃ sign d tail, cs = sign ++ d :: tail ∧ (sign = [] ∨ sign = ['-']) ∧ isAsciiDigit d = true

theorem NumberStarts.append {cs : List Char} (h : NumberStarts cs) (rest : List Char) :
    NumberStarts (cs ++ rest) := by
  obtain ⟨sign, d, tail, rfl, starts, digit⟩ := h
  exact ⟨sign, d, tail ++ rest, by simp, starts, digit⟩

theorem numberStarts_signedDigits (i : Int) : NumberStarts (signedDigits i) := by
  have ascii := isAsciiDigit_digits i.natAbs
  obtain ⟨d, tail, digits⟩ := List.exists_cons_of_ne_nil (digits_ne_nil i.natAbs)
  rw [digits] at ascii
  unfold signedDigits
  rw [digits]
  split
  · exact ⟨['-'], d, tail, rfl, .inr rfl, ascii d List.mem_cons_self⟩
  · exact ⟨[], d, tail, rfl, .inl rfl, ascii d List.mem_cons_self⟩

theorem numberStarts_shortest {x : Float} (defined : x.isNaN = false) (finite : x.isInf = false) :
    NumberStarts (shortest x).toList := by
  obtain ⟨n, written, text⟩ := shortest_written defined finite
  obtain ⟨d, tail, chars, digit⟩ := written.exists_digit
  rw [text, chars]
  split
  · exact ⟨['-'], d, tail, rfl, .inr rfl, digit⟩
  · exact ⟨[], d, tail, rfl, .inl rfl, digit⟩

theorem readValue_of_number {cs : List Char} (h : NumberStarts cs) (n : Nat) :
    readValue (n + 1) cs = readNumber cs := by
  obtain ⟨sign, d, tail, rfl, starts, digit⟩ := h
  rcases starts with rfl | rfl
  · rw [readValue]
    all_goals
      intros
      rename_i same
      cases same
      exact absurd digit (by decide)
  · rw [readValue]
    all_goals
      intros
      rename_i same
      cases same
    all_goals exact absurd digit (by decide)

/-- The text of a value begins with no space and closes nothing. -/
def ValueStarts (cs : List Char) : Prop :=
  ∃ c tail, cs = c :: tail ∧ isSpace c = false ∧ c ≠ ']'

theorem ValueStarts.skipSpace {cs : List Char} (h : ValueStarts cs) (rest : List Char) :
    skipSpace (cs ++ rest) = cs ++ rest := by
  obtain ⟨c, tail, rfl, space, _⟩ := h
  simp [Json.skipSpace, space]

theorem NumberStarts.valueStarts {cs : List Char} (h : NumberStarts cs) : ValueStarts cs := by
  obtain ⟨sign, d, tail, rfl, starts, digit⟩ := h
  rcases starts with rfl | rfl
  · have apart : ∀ c, isAsciiDigit c = false → d ≠ c := fun c => ne_of_class digit
    refine ⟨d, tail, rfl, ?_, apart ']' (by decide)⟩
    simp [isSpace, apart ' ' (by decide), apart '\t' (by decide), apart '\n' (by decide),
      apart '\r' (by decide)]
  · exact ⟨'-', d :: tail, rfl, by decide, by decide⟩

theorem numberChars_of_finite {x : Float} (defined : x.isNaN = false) (finite : x.isInf = false) :
    numberChars x = (shortest x).toList := by
  rw [numberChars, if_neg (by rw [defined]; decide), if_neg (by rw [finite]; decide)]

/-- Whether a leaf is finite, if it is a number, and without pairs of surrogates, if it is a text. -/
def isLegible : RawValue → Bool
  | .number x => !x.isNaN && !x.isInf
  | .text s => s.isUnpaired
  | _ => true

theorem valueStarts_chars {v : RawValue} (h : v.leaves.all isLegible = true) :
    ValueStarts v.chars := by
  cases v with
  | null => exact ⟨'n', _, rfl, by decide, by decide⟩
  | flag b =>
    cases b with
    | true => exact ⟨'t', _, rfl, by decide, by decide⟩
    | false => exact ⟨'f', _, rfl, by decide, by decide⟩
  | whole i => exact (numberStarts_signedDigits i).valueStarts
  | number x =>
    simp only [RawValue.leaves, List.all_cons, List.all_nil, Bool.and_true, isLegible,
      Bool.and_eq_true, Bool.not_eq_true'] at h
    obtain ⟨defined, finite⟩ := h
    rw [RawValue.chars, numberChars_of_finite defined finite]
    exact (numberStarts_shortest defined finite).valueStarts
  | text s => exact ⟨'"', _, rfl, by decide, by decide⟩
  | list items => cases items <;> exact ⟨'[', _, by rw [RawValue.chars], by decide, by decide⟩
  | table entries => cases entries <;> exact ⟨'{', _, by rw [RawValue.chars], by decide, by decide⟩

/-! Reading back. -/

mutual

/-- What the text of a legible value reads as. -/
def rereadRaw : RawValue → RawValue
  | .number x => .number (rereadNumber x)
  | .list items => .list (rereadRawItems items)
  | .table entries => .table (RawValue.ofEntries (rereadRawEntries entries))
  | v => v

def rereadRawItems : List RawValue → List RawValue
  | [] => []
  | v :: rest => rereadRaw v :: rereadRawItems rest

def rereadRawEntries : List (RawText × RawValue) → List (RawText × RawValue)
  | [] => []
  | (k, v) :: rest => (k, rereadRaw v) :: rereadRawEntries rest

end

theorem length_chars_pos {v : RawValue} (h : v.leaves.all isLegible = true) :
    0 < v.chars.length := by
  obtain ⟨c, tail, chars, _⟩ := valueStarts_chars h
  simp [chars]

theorem length_itemChars_pos (items : List RawValue) :
    0 < (RawValue.itemChars items).length := by
  cases items <;> simp [RawValue.itemChars]

theorem length_entryChars_pos (entries : List (RawText × RawValue)) :
    0 < (RawValue.entryChars entries).length := by
  cases entries <;> simp [RawValue.entryChars]

theorem follows_itemChars (items : List RawValue) (rest : List Char) :
    Follows (RawValue.itemChars items ++ rest) := by
  cases items <;> simp [Follows, RawValue.itemChars]

theorem follows_entryChars (entries : List (RawText × RawValue)) (rest : List Char) :
    Follows (RawValue.entryChars entries ++ rest) := by
  cases entries <;> simp [Follows, RawValue.entryChars]

theorem readValue_items {cs rest : List Char} (h : ValueStarts cs) (n : Nat) :
    readValue (n + 1) ('[' :: (cs ++ rest)) =
      (readItems n (cs ++ rest)).map fun p => (.list p.1, p.2) := by
  rw [readValue_list, h.skipSpace]
  obtain ⟨c, tail, rfl, _, bracket⟩ := h
  split
  · rename_i closed
    cases closed
    exact absurd rfl bracket
  · rfl

theorem readValue_entries (cs : List Char) (n : Nat) :
    readValue (n + 1) ('{' :: '"' :: cs) =
      (readEntries n ('"' :: cs)).map fun p => (.table (RawValue.ofEntries p.1), p.2) := by
  rw [readValue_table]
  rfl

theorem skipSpace_space (cs : List Char) : skipSpace (' ' :: cs) = skipSpace cs := by
  simp [skipSpace, isSpace]

/-- Items are read if the first one and those behind it are. -/
theorem readItems_step {v : RawValue} {items : List RawValue} {n : Nat} {rest : List Char}
    (others : (RawValue.itemLeaves items).all isLegible = true)
    (value : readValue (n + 1) (v.chars ++ (RawValue.itemChars items ++ rest)) =
      some (rereadRaw v, RawValue.itemChars items ++ rest))
    (more : ∀ w tail, items = w :: tail →
      readItems (n + 1) (w.chars ++ (RawValue.itemChars tail ++ rest)) =
        some (rereadRawItems items, rest)) :
    readItems (n + 2) (v.chars ++ (RawValue.itemChars items ++ rest)) =
      some (rereadRawItems (v :: items), rest) := by
  rw [readItems, value]
  cases items with
  | nil => simp [RawValue.itemChars, skipSpace, isSpace, rereadRawItems]
  | cons w items =>
    rw [RawValue.itemLeaves, List.all_append, Bool.and_eq_true] at others
    have comma : skipSpace (RawValue.itemChars (w :: items) ++ rest) =
        ',' :: ' ' :: (w.chars ++ (RawValue.itemChars items ++ rest)) := by
      simp [RawValue.itemChars, skipSpace, isSpace]
    simp only [comma, skipSpace_space, (valueStarts_chars others.1).skipSpace, more w items rfl,
      Option.map_some, rereadRawItems]

/-- Entries are read if the value of the first one and those behind it are. -/
theorem readEntries_step {k : RawText} {v : RawValue} {entries : List (RawText × RawValue)}
    {n : Nat} {rest : List Char} (key : k.isUnpaired = true)
    (h : v.leaves.all isLegible = true)
    (value : readValue (n + 1) (v.chars ++ (RawValue.entryChars entries ++ rest)) =
      some (rereadRaw v, RawValue.entryChars entries ++ rest))
    (more : ∀ l w tail, entries = (l, w) :: tail →
      readEntries (n + 1)
          (l.chars ++ ':' :: ' ' :: (w.chars ++ (RawValue.entryChars tail ++ rest))) =
        some (rereadRawEntries entries, rest)) :
    readEntries (n + 2)
        (k.chars ++ ':' :: ' ' :: (v.chars ++ (RawValue.entryChars entries ++ rest))) =
      some (rereadRawEntries ((k, v) :: entries), rest) := by
  have colon : skipSpace (':' :: ' ' :: (v.chars ++ (RawValue.entryChars entries ++ rest))) =
      ':' :: ' ' :: (v.chars ++ (RawValue.entryChars entries ++ rest)) := by
    simp [skipSpace, isSpace]
  rw [RawText.chars, List.cons_append, List.append_assoc, List.singleton_append, readEntries]
  simp only [readString_chars key, colon, skipSpace_space, (valueStarts_chars h).skipSpace, value]
  cases entries with
  | nil => simp [RawValue.entryChars, skipSpace, isSpace, rereadRawEntries]
  | cons e entries =>
    obtain ⟨l, w⟩ := e
    have comma : skipSpace (RawValue.entryChars ((l, w) :: entries) ++ rest) = ',' :: ' ' ::
        (l.chars ++ ':' :: ' ' :: (w.chars ++ (RawValue.entryChars entries ++ rest))) := by
      simp [RawValue.entryChars, skipSpace, isSpace]
    have quote :
        skipSpace (l.chars ++ ':' :: ' ' :: (w.chars ++ (RawValue.entryChars entries ++ rest))) =
          l.chars ++ ':' :: ' ' :: (w.chars ++ (RawValue.entryChars entries ++ rest)) := by
      simp [RawText.chars, skipSpace, isSpace]
    simp only [comma, skipSpace_space, quote, more l w entries rfl, Option.map_some,
      rereadRawEntries]

theorem legible_entry {k : RawText} {v : RawValue} {entries : List (RawText × RawValue)} :
    (RawValue.entryLeaves ((k, v) :: entries)).all isLegible = true ↔ k.isUnpaired = true ∧
      v.leaves.all isLegible = true ∧ (RawValue.entryLeaves entries).all isLegible = true := by
  rw [RawValue.entryLeaves, List.all_cons, List.all_append, Bool.and_eq_true, Bool.and_eq_true,
    isLegible]

mutual

/-- The text of a value is read to its end, and every value in it takes at most as many steps as it
has characters. -/
theorem readValue_chars : ∀ (v : RawValue) {n : Nat} {rest : List Char},
    v.leaves.all isLegible = true → Follows rest → v.chars.length ≤ n + 1 →
      readValue (n + 1) (v.chars ++ rest) = some (rereadRaw v, rest)
  | .null, _, _, _, _, _ => rfl
  | .flag true, _, _, _, _, _ => rfl
  | .flag false, _, _, _, _, _ => rfl
  | .whole i, _, rest, _, follows, _ => by
    rw [RawValue.chars, readValue_of_number ((numberStarts_signedDigits i).append rest),
      readNumber_signedDigits i follows.ends]
    rfl
  | .number x, _, rest, h, follows, _ => by
    simp only [RawValue.leaves, List.all_cons, List.all_nil, Bool.and_true, isLegible,
      Bool.and_eq_true, Bool.not_eq_true'] at h
    obtain ⟨defined, finite⟩ := h
    rw [RawValue.chars, numberChars_of_finite defined finite,
      readValue_of_number ((numberStarts_shortest defined finite).append rest),
      readNumber_shortest defined finite follows.ends, rereadRaw]
  | .text s, _, _, h, _, _ => by
    simp only [RawValue.leaves, List.all_cons, List.all_nil, Bool.and_true, isLegible] at h
    rw [RawValue.chars, RawText.chars, List.cons_append, List.append_assoc, readValue_text]
    simp [readString_chars h, rereadRaw]
  | .list [], _, _, _, _, _ => rfl
  | .table [], _, _, _, _, _ => rfl
  | .list (v :: items), n, rest, h, _, steps => by
    rw [RawValue.leaves, RawValue.itemLeaves, List.all_append, Bool.and_eq_true] at h
    obtain ⟨first, others⟩ := h
    -- the first item has a character, which leaves the step that reading it takes
    have pos := length_chars_pos first
    simp only [RawValue.chars, List.length_cons, List.length_append] at steps
    obtain ⟨m, rfl⟩ : ∃ m, n = m + 1 := ⟨n - 1, by omega⟩
    rw [RawValue.chars, List.cons_append, List.append_assoc,
      readValue_items (valueStarts_chars first), readItems_chars v items first others (by omega),
      rereadRaw]
    rfl
  | .table ((k, v) :: entries), n, rest, h, _, steps => by
    rw [RawValue.leaves] at h
    have pos := length_chars_pos (legible_entry.mp h).2.1
    simp only [RawValue.chars, List.length_cons, List.length_append] at steps
    obtain ⟨m, rfl⟩ : ∃ m, n = m + 1 := ⟨n - 1, by omega⟩
    have read : readEntries (m + 1)
        (k.chars ++ ':' :: ' ' :: (v.chars ++ (RawValue.entryChars entries ++ rest))) =
          some (rereadRawEntries ((k, v) :: entries), rest) :=
      readEntries_chars k v entries h (by omega)
    have text : RawValue.chars (.table ((k, v) :: entries)) ++ rest =
        '{' :: '"' :: ((k.flatMap CodePoint.escape ++ ['"']) ++
          ':' :: ' ' :: (v.chars ++ (RawValue.entryChars entries ++ rest))) := by
      simp [RawValue.chars, RawText.chars]
    rw [text, readValue_entries, ← List.cons_append, ← RawText.chars, read, Option.map_some,
      rereadRaw]
termination_by v => sizeOf v

theorem readItems_chars : ∀ (v : RawValue) (items : List RawValue) {n : Nat} {rest : List Char},
    v.leaves.all isLegible = true → (RawValue.itemLeaves items).all isLegible = true →
      v.chars.length + (RawValue.itemChars items).length ≤ n + 1 →
      readItems (n + 1) (v.chars ++ (RawValue.itemChars items ++ rest)) =
        some (rereadRawItems (v :: items), rest)
  | v, items, n, rest, h, others, steps => by
    have pos := length_chars_pos h
    have pos' := length_itemChars_pos items
    obtain ⟨m, rfl⟩ : ∃ m, n = m + 1 := ⟨n - 1, by omega⟩
    have value := readValue_chars v h (follows_itemChars items rest) (n := m) (by omega)
    apply readItems_step others value
    intro w tail behind
    rw [behind] at others steps ⊢
    rw [RawValue.itemLeaves, List.all_append, Bool.and_eq_true] at others
    simp only [RawValue.itemChars, List.length_cons, List.length_append] at steps
    exact readItems_chars w tail others.1 others.2 (by omega)
termination_by v items => 1 + sizeOf v + sizeOf items
decreasing_by
  · omega
  · simp only [behind, List.cons.sizeOf_spec]
    omega

theorem readEntries_chars : ∀ (k : RawText) (v : RawValue) (entries : List (RawText × RawValue))
    {n : Nat} {rest : List Char},
    (RawValue.entryLeaves ((k, v) :: entries)).all isLegible = true →
      k.chars.length + v.chars.length + (RawValue.entryChars entries).length ≤ n + 1 →
      readEntries (n + 1)
          (k.chars ++ ':' :: ' ' :: (v.chars ++ (RawValue.entryChars entries ++ rest))) =
        some (rereadRawEntries ((k, v) :: entries), rest)
  | k, v, entries, n, rest, h, steps => by
    obtain ⟨key, here, others⟩ := legible_entry.mp h
    have pos := length_chars_pos here
    have pos' := length_entryChars_pos entries
    obtain ⟨m, rfl⟩ : ∃ m, n = m + 1 := ⟨n - 1, by omega⟩
    have value := readValue_chars v here (follows_entryChars entries rest) (n := m) (by omega)
    apply readEntries_step key here value
    intro l w tail behind
    rw [behind] at others steps ⊢
    simp only [RawValue.entryChars, List.length_cons, List.length_append] at steps
    exact readEntries_chars l w tail others (by omega)
termination_by _ v entries => 1 + sizeOf v + sizeOf entries
decreasing_by
  · omega
  · simp only [behind, List.cons.sizeOf_spec, Prod.mk.sizeOf_spec]
    omega

end

theorem readRaw?_chars {v : RawValue} (h : v.leaves.all isLegible = true) :
    readRaw? v.chars = some (rereadRaw v) := by
  have space := (valueStarts_chars h).skipSpace []
  have alone : Follows [] := by simp [Follows]
  have whole := readValue_chars v (n := 2 * v.chars.length + 1) h alone (by omega)
  rw [List.append_nil] at space whole
  have none : Json.skipSpace [] = [] := rfl
  simp only [readRaw?, space, whole, none, List.isEmpty_nil, if_true]

end FormulaSheet.Json
