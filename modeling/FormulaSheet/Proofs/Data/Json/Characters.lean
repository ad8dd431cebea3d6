import FormulaSheet.Proofs.Data.Json.RoundTrip
import FormulaSheet.Proofs.Data.Json.Visible
import FormulaSheet.Proofs.Data.Value
/-!
Values whose texts are characters. They are written and read by their code points, so the text of a
value with finite numbers is read to its end, each table with texts as keys, and a value whose
tables have distinct texts as keys, and whose numbers are finite and read back by themselves, is
what its text reads as.
-/

namespace FormulaSheet.Json

open Value

mutual

/-- What the text of a value with finite numbers reads as. -/
def reread : Value → Value
  | .number x => .number (rereadNumber x)
  | .list items => .list (rereadItems items)
  | .table entries => .table (ofEntries (rereadEntries entries))
  | v => v

def rereadItems : List Value → List Value
  | [] => []
  | v :: rest => reread v :: rereadItems rest

def rereadEntries : List (Value × Value) → List (Value × Value)
  | [] => []
  | (k, v) :: rest => (.text (keyText k), reread v) :: rereadEntries rest

end

/-- A value that its text gives back: keys are distinct texts, and numbers are finite and what their
texts read as. -/
structure Readable (v : Value) : Prop where
  keyed : Keyed v
  numbers : ∀ x ∈ floats v, x.isNaN = false ∧ x.isInf = false ∧ Reads x

/-! Finite numbers. -/

mutual

theorem isFinite_eq : ∀ v : Value,
    isFinite v = (floats v).all fun x => !x.isNaN && !x.isInf
  | .null => rfl
  | .flag _ => rfl
  | .whole _ => rfl
  | .text _ => rfl
  | .number x => by simp [isFinite, floats]
  | .list items => by rw [isFinite, floats, finiteItems_eq items]
  | .table entries => by rw [isFinite, floats, finiteEntries_eq entries]

theorem finiteItems_eq : ∀ items : List Value,
    finiteItems items = (itemFloats items).all fun x => !x.isNaN && !x.isInf
  | [] => rfl
  | v :: rest => by
    rw [finiteItems, itemFloats, List.all_append, isFinite_eq v,
      finiteItems_eq rest]

theorem finiteEntries_eq : ∀ entries : List (Value × Value),
    finiteEntries entries = (entryFloats entries).all fun x => !x.isNaN && !x.isInf
  | [] => rfl
  | (k, v) :: rest => by
    rw [finiteEntries, entryFloats, List.all_append, List.all_append, isFinite_eq k,
      isFinite_eq v, finiteEntries_eq rest, Bool.and_assoc]

end

/-! Values by their code points. -/

mutual

theorem chars_ofValue : ∀ v : Value, (RawValue.ofValue v).chars = chars v
  | .null => rfl
  | .flag _ => rfl
  | .whole _ => rfl
  | .number _ => rfl
  | .text s => chars_ofString s
  | .list [] => rfl
  | .table [] => rfl
  | .list (v :: rest) => by
    rw [RawValue.ofValue, RawValue.ofValueItems, RawValue.chars, chars, chars_ofValue v,
      itemChars_ofValue rest]
  | .table ((k, v) :: rest) => by
    rw [RawValue.ofValue, RawValue.ofValueEntries, RawValue.chars, chars, chars_ofString,
      chars_ofValue v, entryChars_ofValue rest]

theorem itemChars_ofValue : ∀ items : List Value,
    RawValue.itemChars (RawValue.ofValueItems items) = itemChars items
  | [] => rfl
  | v :: rest => by
    rw [RawValue.ofValueItems, RawValue.itemChars, itemChars, chars_ofValue v,
      itemChars_ofValue rest]

theorem entryChars_ofValue : ∀ entries : List (Value × Value),
    RawValue.entryChars (RawValue.ofValueEntries entries) = entryChars entries
  | [] => rfl
  | (k, v) :: rest => by
    rw [RawValue.ofValueEntries, RawValue.entryChars, entryChars, chars_ofString, chars_ofValue v,
      entryChars_ofValue rest]

end

mutual

theorem legible_ofValue : ∀ {v : Value}, isFinite v = true →
    (RawValue.ofValue v).leaves.all isLegible = true
  | .null, _ => rfl
  | .flag _, _ => rfl
  | .whole _, _ => rfl
  | .number x, h => by simpa [RawValue.ofValue, RawValue.leaves, isLegible, isFinite] using h
  | .text s, _ => by
    simp [RawValue.ofValue, RawValue.leaves, isLegible, RawText.isUnpaired_ofString]
  | .list items, h => by
    rw [isFinite] at h
    rw [RawValue.ofValue, RawValue.leaves]
    exact legible_ofValueItems h
  | .table entries, h => by
    rw [isFinite] at h
    rw [RawValue.ofValue, RawValue.leaves]
    exact legible_ofValueEntries h

theorem legible_ofValueItems : ∀ {items : List Value}, finiteItems items = true →
    (RawValue.itemLeaves (RawValue.ofValueItems items)).all isLegible = true
  | [], _ => rfl
  | v :: rest, h => by
    rw [finiteItems, Bool.and_eq_true] at h
    rw [RawValue.ofValueItems, RawValue.itemLeaves, List.all_append, legible_ofValue h.1,
      legible_ofValueItems h.2]
    rfl

theorem legible_ofValueEntries : ∀ {entries : List (Value × Value)},
    finiteEntries entries = true →
      (RawValue.entryLeaves (RawValue.ofValueEntries entries)).all isLegible = true
  | [], _ => rfl
  | (k, v) :: rest, h => by
    rw [finiteEntries, Bool.and_eq_true, Bool.and_eq_true] at h
    rw [RawValue.ofValueEntries, legible_entry]
    exact ⟨RawText.isUnpaired_ofString _, legible_ofValue h.1.2, legible_ofValueEntries h.2⟩

end

theorem entryValues_insert (s : String) (v : RawValue) {entries : List (RawText × RawValue)}
    (texts : ∀ e ∈ entries, ∃ t, e.1 = .ofString t) :
    RawValue.entryValues (RawValue.insert (.ofString s) v entries) =
      Value.insert (.text s) v.toValue (RawValue.entryValues entries) := by
  induction entries with
  | nil => simp [RawValue.insert, RawValue.entryValues, Value.insert, RawText.string_ofString]
  | cons e rest ih =>
    obtain ⟨k, w⟩ := e
    obtain ⟨⟨t, here⟩, others⟩ := List.forall_mem_cons.mp texts
    obtain rfl : k = .ofString t := here
    by_cases same : t = s
    · subst same
      simp [RawValue.insert, RawValue.entryValues, Value.insert, RawText.string_ofString,
        sameKey_text]
    · simp [RawValue.insert, RawValue.entryValues, Value.insert, RawText.string_ofString,
        sameKey_text, RawText.ofString_inj, same, ih others]

/-- Keys of characters are one key exactly if they are the same characters. -/
theorem entryValues_ofEntries {entries : List (RawText × RawValue)}
    (texts : ∀ e ∈ entries, ∃ t, e.1 = .ofString t) :
    RawValue.entryValues (RawValue.ofEntries entries) =
      Value.ofEntries (RawValue.entryValues entries) := by
  have built : ∀ made : List (RawText × RawValue), (∀ e ∈ made, ∃ t, e.1 = .ofString t) →
      RawValue.entryValues (entries.foldl (fun table e => RawValue.insert e.1 e.2 table) made) =
        (RawValue.entryValues entries).foldl (fun table e => Value.insert e.1 e.2 table)
          (RawValue.entryValues made) := by
    induction entries with
    | nil =>
      intro made _
      rfl
    | cons e rest ih =>
      intro made keys
      obtain ⟨k, w⟩ := e
      obtain ⟨⟨t, here⟩, others⟩ := List.forall_mem_cons.mp texts
      obtain rfl : k = .ofString t := here
      have still : ∀ e ∈ RawValue.insert (.ofString t) w made, ∃ t, e.1 = .ofString t := by
        intro e he
        rcases RawValue.key_of_mem_insert e he with same | ⟨a, ha, same⟩
        · exact ⟨t, same⟩
        · exact same ▸ keys a ha
      rw [List.foldl_cons, ih others _ still, entryValues_insert t w keys, RawValue.entryValues,
        List.foldl_cons, RawText.string_ofString]
  exact built [] (by simp)

theorem keys_rereadRawEntries (entries : List (Value × Value)) :
    ∀ e ∈ rereadRawEntries (RawValue.ofValueEntries entries), ∃ t, e.1 = .ofString t := by
  induction entries with
  | nil => simp [RawValue.ofValueEntries, rereadRawEntries]
  | cons e rest ih =>
    rw [RawValue.ofValueEntries, rereadRawEntries]
    exact List.forall_mem_cons.mpr ⟨⟨_, rfl⟩, ih⟩

mutual

theorem toValue_rereadRaw : ∀ v : Value, (rereadRaw (RawValue.ofValue v)).toValue = reread v
  | .null => rfl
  | .flag _ => rfl
  | .whole _ => rfl
  | .number _ => rfl
  | .text s => by
    rw [RawValue.ofValue, rereadRaw, RawValue.toValue, RawText.string_ofString, reread]
    all_goals simp
  | .list items => by
    rw [RawValue.ofValue, rereadRaw, RawValue.toValue, itemValues_rereadRaw items, reread]
  | .table entries => by
    rw [RawValue.ofValue, rereadRaw, RawValue.toValue,
      entryValues_ofEntries (keys_rereadRawEntries entries), entryValues_rereadRaw entries, reread]

theorem itemValues_rereadRaw : ∀ items : List Value,
    RawValue.itemValues (rereadRawItems (RawValue.ofValueItems items)) = rereadItems items
  | [] => rfl
  | v :: rest => by
    rw [RawValue.ofValueItems, rereadRawItems, RawValue.itemValues, toValue_rereadRaw v,
      itemValues_rereadRaw rest, rereadItems]

theorem entryValues_rereadRaw : ∀ entries : List (Value × Value),
    RawValue.entryValues (rereadRawEntries (RawValue.ofValueEntries entries)) =
      rereadEntries entries
  | [] => rfl
  | (k, v) :: rest => by
    rw [RawValue.ofValueEntries, rereadRawEntries, RawValue.entryValues, toValue_rereadRaw v,
      entryValues_rereadRaw rest, rereadEntries, RawText.string_ofString]

end

theorem read?_chars {v : Value} (h : isFinite v = true) : read? (chars v) = some (reread v) := by
  rw [read?, ← chars_ofValue, readRaw?_chars (legible_ofValue h), Option.map_some,
    toValue_rereadRaw]

theorem rereadEntries_of_texts {entries : List (Value × Value)}
    (h : ∀ e ∈ entries, ∃ s, e.1 = .text s) :
    rereadEntries entries = entries.map fun e => (e.1, reread e.2) := by
  induction entries with
  | nil => rfl
  | cons e rest ih =>
    obtain ⟨k, v⟩ := e
    obtain ⟨s, hs⟩ := h _ List.mem_cons_self
    cases hs
    rw [rereadEntries, ih fun e he => h e (List.mem_cons_of_mem _ he), List.map_cons, keyText]

theorem reread_table {entries : List (Value × Value)} (keys : TextKeys entries) :
    reread (.table entries) = .table (entries.map fun e => (e.1, reread e.2)) := by
  rw [reread, rereadEntries_of_texts keys.text, ofEntries_of_textKeys (keys.map reread)]

/-! Values that their texts give back. -/

theorem Readable.head {v : Value} {items : List Value} (h : Readable (.list (v :: items))) :
    Readable v ∧ Readable (.list items) := by
  obtain ⟨keyed, numbers⟩ := h
  simp only [Keyed, KeyedItems] at keyed
  refine ⟨⟨keyed.1, ?_⟩, ⟨keyed.2, ?_⟩⟩
  · intro x hx
    exact numbers x (by simp [floats, itemFloats, hx])
  · intro x hx
    exact numbers x (List.mem_append_right _ hx)

theorem Readable.entry {k v : Value} {entries : List (Value × Value)}
    (h : Readable (.table ((k, v) :: entries))) :
    (∃ s, k = .text s) ∧ Readable v ∧ Readable (.table entries) := by
  obtain ⟨keyed, numbers⟩ := h
  simp only [Keyed, KeyedEntries] at keyed
  refine ⟨keyed.1.text _ List.mem_cons_self, ⟨keyed.2.1, ?_⟩, ⟨⟨keyed.1.tail, keyed.2.2⟩, ?_⟩⟩
  · intro x hx
    exact numbers x (by simp [floats, entryFloats, hx])
  · intro x hx
    exact numbers x (List.mem_append_right _ (List.mem_append_right _ hx))

mutual

theorem reread_of_readable : ∀ {v : Value}, Readable v → reread v = v
  | .null, _ => rfl
  | .flag _, _ => rfl
  | .whole _, _ => rfl
  | .text _, _ => rfl
  | .number x, h => by
    obtain ⟨_, _, reads⟩ := h.numbers x (by simp [floats])
    rw [reread, reads.rereadNumber]
  | .list items, h => by rw [reread, rereadItems_of_readable h]
  | .table entries, h => by
    rw [reread, rereadEntries_of_readable h, ofEntries_of_textKeys h.keyed.1]

theorem rereadItems_of_readable : ∀ {items : List Value}, Readable (.list items) →
    rereadItems items = items
  | [], _ => rfl
  | v :: rest, h => by
    rw [rereadItems, reread_of_readable h.head.1, rereadItems_of_readable h.head.2]

theorem rereadEntries_of_readable : ∀ {entries : List (Value × Value)},
    Readable (.table entries) → rereadEntries entries = entries
  | [], _ => rfl
  | (k, v) :: rest, h => by
    obtain ⟨⟨s, rfl⟩, first, others⟩ := h.entry
    rw [rereadEntries, keyText, reread_of_readable first, rereadEntries_of_readable others]

end

theorem isPlainChar_chars (v : Value) : ∀ c ∈ chars v, IsPlainChar c := by
  rw [← chars_ofValue]
  exact isPlainChar_raw _

end FormulaSheet.Json
