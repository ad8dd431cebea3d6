import Mathlib.Data.List.Nodup
import FormulaSheet.Proofs.Data.Json.Characters
import FormulaSheet.Proofs.Data.Json.Order
/-!
Values whose texts are code points, with entries in the order of their keys. Where no key comes
twice there is one such order, so values are equal but for the order of entries exactly if they are
equal once in order. A value in order that is legible, with numbers that their texts give back, is
what its text reads as. Where texts are characters, the order is the one of values with characters.
-/

namespace FormulaSheet.RawValue

mutual

/-- No key comes twice in a table. -/
def Distinct : RawValue → Prop
  | list items => DistinctItems items
  | table entries => (entries.map (·.1)).Nodup ∧ DistinctEntries entries
  | _ => True

def DistinctItems : List RawValue → Prop
  | [] => True
  | v :: rest => v.Distinct ∧ DistinctItems rest

def DistinctEntries : List (RawText × RawValue) → Prop
  | [] => True
  | (_, v) :: rest => v.Distinct ∧ DistinctEntries rest

end

/-- Equal but for the order of the entries of tables, wherever these stand. -/
inductive Alike : RawValue → RawValue → Prop
  | refl (v : RawValue) : Alike v v
  | symm {v w : RawValue} (h : Alike v w) : Alike w v
  | trans {u v w : RawValue} (h : Alike u v) (h' : Alike v w) : Alike u w
  | item {v w : RawValue} (front rest : List RawValue) (h : Alike v w) :
    Alike (list (front ++ v :: rest)) (list (front ++ w :: rest))
  | entry {v w : RawValue} (front rest : List (RawText × RawValue)) (k : RawText)
    (h : Alike v w) : Alike (table (front ++ (k, v) :: rest)) (table (front ++ (k, w) :: rest))
  | order {entries others : List (RawText × RawValue)} (distinct : (entries.map (·.1)).Nodup)
    (same : entries.Perm others) : Alike (table entries) (table others)

theorem orderedItems_eq (items : List RawValue) : orderedItems items = items.map ordered := by
  induction items with
  | nil => rfl
  | cons v rest ih => rw [orderedItems, ih, List.map_cons]

theorem orderedEntries_eq (entries : List (RawText × RawValue)) :
    orderedEntries entries = entries.map fun e => (e.1, e.2.ordered) := by
  induction entries with
  | nil => rfl
  | cons e rest ih => rw [orderedEntries, ih, List.map_cons]

theorem keys_orderedEntries (entries : List (RawText × RawValue)) :
    (orderedEntries entries).map (·.1) = entries.map (·.1) := by
  rw [orderedEntries_eq, List.map_map]
  rfl

/-! One table. -/

theorem byKey_perm (entries : List (RawText × RawValue)) : (byKey entries).Perm entries :=
  List.mergeSort_perm entries _

theorem byKey_ascending (entries : List (RawText × RawValue)) :
    (byKey entries).Pairwise fun a b => (!b.1.isBefore a.1) = true := by
  apply List.pairwise_mergeSort
  · intro a b c hab hbc
    simp only [Bool.not_eq_true'] at hab hbc ⊢
    rw [← Bool.not_eq_true] at hab hbc ⊢
    intro before
    rcases RawText.isBefore_total b.1 c.1 with same | first | last
    · exact hab (same ▸ before)
    · exact hab (RawText.isBefore_trans first before)
    · exact hbc last
  · intro a b
    cases before : b.1.isBefore a.1 with
    | false => rfl
    | true =>
      have other : a.1.isBefore b.1 = false := by
        rw [← Bool.not_eq_true]
        intro behind
        have circle := RawText.isBefore_trans before behind
        rw [RawText.isBefore_irrefl] at circle
        cases circle
      rw [other]
      rfl

/-- Entries with distinct keys have one order. -/
theorem byKey_congr {entries others : List (RawText × RawValue)}
    (distinct : (entries.map (·.1)).Nodup) (same : entries.Perm others) :
    byKey entries = byKey others := by
  have left := byKey_perm entries
  have right := byKey_perm others
  refine List.Perm.eq_of_pairwise ?_ (byKey_ascending entries) (byKey_ascending others)
    ((left.trans same).trans right.symm)
  intro a b ha hb first second
  rw [Bool.not_eq_true'] at first second
  have key : a.1 = b.1 := by
    rcases RawText.isBefore_total a.1 b.1 with same | before | behind
    · exact same
    · rw [before] at second
      cases second
    · rw [behind] at first
      cases first
  exact List.inj_on_of_nodup_map distinct (left.mem_iff.mp ha)
    (same.mem_iff.mpr (right.mem_iff.mp hb)) key

/-! Whole values. -/

theorem ordered_of_alike {v w : RawValue} (h : Alike v w) : v.ordered = w.ordered := by
  induction h with
  | refl => rfl
  | symm _ ih => exact ih.symm
  | trans _ _ ih ih' => exact ih.trans ih'
  | item front rest _ ih => simp only [ordered, orderedItems_eq, List.map_append, List.map_cons, ih]
  | entry front rest k _ ih =>
    simp only [ordered, orderedEntries_eq, List.map_append, List.map_cons, ih]
  | @order entries others distinct same =>
    rw [← keys_orderedEntries] at distinct
    have perm : (orderedEntries entries).Perm (orderedEntries others) := by
      rw [orderedEntries_eq, orderedEntries_eq]
      exact same.map _
    rw [ordered, ordered, byKey_congr distinct perm]

theorem alike_items {items : List RawValue} (h : ∀ v ∈ items, Alike v v.ordered) :
    Alike (list items) (list (orderedItems items)) := by
  have each : ∀ front : List RawValue,
      Alike (list (front ++ items)) (list (front ++ orderedItems items)) := by
    induction items with
    | nil => exact fun front => .refl _
    | cons v rest ih =>
      intro front
      obtain ⟨first, others⟩ := List.forall_mem_cons.mp h
      have behind := ih others (front ++ [v.ordered])
      simp only [List.append_assoc, List.singleton_append] at behind
      exact (Alike.item front rest first).trans behind
  exact each []

theorem alike_entries {entries : List (RawText × RawValue)}
    (h : ∀ e ∈ entries, Alike e.2 e.2.ordered) :
    Alike (table entries) (table (orderedEntries entries)) := by
  have each : ∀ front : List (RawText × RawValue),
      Alike (table (front ++ entries)) (table (front ++ orderedEntries entries)) := by
    induction entries with
    | nil => exact fun front => .refl _
    | cons e rest ih =>
      intro front
      obtain ⟨first, others⟩ := List.forall_mem_cons.mp h
      have behind := ih others (front ++ [(e.1, e.2.ordered)])
      simp only [List.append_assoc, List.singleton_append] at behind
      exact (Alike.entry front rest e.1 first).trans behind
  exact each []

mutual

theorem alike_ordered : ∀ {v : RawValue}, v.Distinct → Alike v v.ordered
  | list items, h => by
    rw [Distinct] at h
    exact alike_items (alike_ordered_of_mem_items h)
  | table entries, h => by
    rw [Distinct] at h
    refine (alike_entries (alike_ordered_of_mem_entries h.2)).trans
      (.order ?_ (byKey_perm _).symm)
    rw [keys_orderedEntries]
    exact h.1
  | null, _ => .refl _
  | flag _, _ => .refl _
  | whole _, _ => .refl _
  | number _, _ => .refl _
  | text _, _ => .refl _

theorem alike_ordered_of_mem_items : ∀ {items : List RawValue}, DistinctItems items →
    ∀ v ∈ items, Alike v v.ordered
  | [], _ => by simp
  | _ :: _, h => List.forall_mem_cons.mpr ⟨alike_ordered h.1, alike_ordered_of_mem_items h.2⟩

theorem alike_ordered_of_mem_entries : ∀ {entries : List (RawText × RawValue)},
    DistinctEntries entries → ∀ e ∈ entries, Alike e.2 e.2.ordered
  | [], _ => by simp
  | (_, _) :: _, h =>
    List.forall_mem_cons.mpr ⟨alike_ordered h.1, alike_ordered_of_mem_entries h.2⟩

end

theorem ordered_eq_iff {v w : RawValue} (h : v.Distinct) (h' : w.Distinct) :
    v.ordered = w.ordered ↔ Alike v w := by
  refine ⟨?_, ordered_of_alike⟩
  intro same
  have first := alike_ordered h
  rw [same] at first
  exact first.trans (alike_ordered h').symm

/-! What order leaves as it is. -/

theorem entryLeaves_eq (entries : List (RawText × RawValue)) :
    entryLeaves entries = entries.flatMap fun e => text e.1 :: e.2.leaves := by
  induction entries with
  | nil => rfl
  | cons e rest ih => rw [entryLeaves, ih, List.flatMap_cons, List.cons_append]

mutual

theorem leaves_ordered : ∀ v : RawValue, v.ordered.leaves.Perm v.leaves
  | list items => by
    rw [ordered, leaves, leaves]
    exact itemLeaves_ordered items
  | table entries => by
    rw [ordered, leaves, leaves]
    refine .trans ?_ (entryLeaves_ordered entries)
    rw [entryLeaves_eq, entryLeaves_eq]
    exact (byKey_perm _).flatMap_right _
  | null => .refl _
  | flag _ => .refl _
  | whole _ => .refl _
  | number _ => .refl _
  | text _ => .refl _

theorem itemLeaves_ordered : ∀ items : List RawValue,
    (itemLeaves (orderedItems items)).Perm (itemLeaves items)
  | [] => .refl _
  | v :: rest => (leaves_ordered v).append (itemLeaves_ordered rest)

theorem entryLeaves_ordered : ∀ entries : List (RawText × RawValue),
    (entryLeaves (orderedEntries entries)).Perm (entryLeaves entries)
  | [] => .refl _
  | (_, v) :: rest => ((leaves_ordered v).append (entryLeaves_ordered rest)).cons _

end

theorem distinctEntries_iff {entries : List (RawText × RawValue)} :
    DistinctEntries entries ↔ ∀ e ∈ entries, e.2.Distinct := by
  induction entries with
  | nil => simp [DistinctEntries]
  | cons e rest ih => simp [DistinctEntries, ih]

mutual

theorem distinct_ordered : ∀ {v : RawValue}, v.Distinct → v.ordered.Distinct
  | list items, h => by
    rw [Distinct] at h
    rw [ordered, Distinct]
    exact distinctItems_ordered h
  | table entries, h => by
    rw [Distinct] at h
    have perm := byKey_perm (orderedEntries entries)
    have values := distinctEntries_iff.mp (distinctEntries_ordered h.2)
    have keys := h.1
    rw [← keys_orderedEntries] at keys
    rw [ordered, Distinct]
    exact ⟨(perm.map _).nodup_iff.mpr keys,
      distinctEntries_iff.mpr fun e he => values e (perm.mem_iff.mp he)⟩
  | null, _ => trivial
  | flag _, _ => trivial
  | whole _, _ => trivial
  | number _, _ => trivial
  | text _, _ => trivial

theorem distinctItems_ordered : ∀ {items : List RawValue}, DistinctItems items →
    DistinctItems (orderedItems items)
  | [], _ => trivial
  | _ :: _, h => ⟨distinct_ordered h.1, distinctItems_ordered h.2⟩

theorem distinctEntries_ordered : ∀ {entries : List (RawText × RawValue)},
    DistinctEntries entries → DistinctEntries (orderedEntries entries)
  | [], _ => trivial
  | (_, _) :: _, h => ⟨distinct_ordered h.1, distinctEntries_ordered h.2⟩

end

/-! Reading back. -/

mutual

theorem rereadRaw_of_distinct : ∀ {v : RawValue}, v.Distinct →
    (∀ x, number x ∈ v.leaves → Json.Reads x) → Json.rereadRaw v = v
  | list items, h, reads => by
    rw [Distinct] at h
    rw [Json.rereadRaw, rereadRawItems_of_distinct h reads]
  | table entries, h, reads => by
    rw [Distinct] at h
    rw [Json.rereadRaw, rereadRawEntries_of_distinct h.2 reads, ofEntries_of_distinct h.1]
  | number x, _, reads => by
    rw [Json.rereadRaw, (reads x (by simp [leaves])).rereadNumber]
  | null, _, _ => rfl
  | flag _, _, _ => rfl
  | whole _, _, _ => rfl
  | text _, _, _ => rfl

theorem rereadRawItems_of_distinct : ∀ {items : List RawValue}, DistinctItems items →
    (∀ x, number x ∈ itemLeaves items → Json.Reads x) → Json.rereadRawItems items = items
  | [], _, _ => rfl
  | v :: rest, h, reads => by
    have first := rereadRaw_of_distinct h.1 fun x hx => reads x (List.mem_append_left _ hx)
    have others := rereadRawItems_of_distinct h.2 fun x hx => reads x (List.mem_append_right _ hx)
    rw [Json.rereadRawItems, first, others]

theorem rereadRawEntries_of_distinct : ∀ {entries : List (RawText × RawValue)},
    DistinctEntries entries → (∀ x, number x ∈ entryLeaves entries → Json.Reads x) →
      Json.rereadRawEntries entries = entries
  | [], _, _ => rfl
  | (k, v) :: rest, h, reads => by
    have first := rereadRaw_of_distinct h.1 fun x hx =>
      reads x (List.mem_cons_of_mem _ (List.mem_append_left _ hx))
    have others := rereadRawEntries_of_distinct h.2 fun x hx =>
      reads x (List.mem_cons_of_mem _ (List.mem_append_right _ hx))
    rw [Json.rereadRawEntries, first, others]

end

/-- A value in order is what its text reads as. -/
theorem readRaw?_ordered {v : RawValue} (distinct : v.Distinct)
    (legible : v.leaves.all Json.isLegible = true)
    (reads : ∀ x, number x ∈ v.leaves → Json.Reads x) :
    Json.readRaw? v.ordered.chars = some v.ordered := by
  have perm := leaves_ordered v
  rw [Json.readRaw?_chars (by rwa [perm.all_eq]),
    rereadRaw_of_distinct (distinct_ordered distinct) fun x hx => reads x (perm.mem_iff.mp hx)]

/-! Texts of characters. -/

theorem byKey_texts (ps : List (String × RawValue)) :
    byKey (ps.map fun p => (.ofString p.1, p.2)) =
      (ps.mergeSort fun a b => decide (a.1 ≤ b.1)).map fun p => (.ofString p.1, p.2) := by
  rw [byKey, List.map_mergeSort]
  intro a _ b _
  rw [Bool.eq_iff_iff, decide_eq_true_eq, ← String.not_lt, ← RawText.isBefore_ofString,
    Bool.not_eq_true', Bool.not_eq_true]

theorem ofValueEntries_texts (ps : List (String × Value)) :
    ofValueEntries (ps.map fun p => (.text p.1, p.2)) =
      (ps.map fun p => (p.1, ofValue p.2)).map fun p => (.ofString p.1, p.2) := by
  induction ps with
  | nil => rfl
  | cons p rest ih =>
    rw [List.map_cons, ofValueEntries, ih, Json.keyText]
    rfl

theorem byKey_ofValueEntries {entries : List (Value × Value)}
    (texts : ∀ e ∈ entries, ∃ s, e.1 = .text s) :
    byKey (ofValueEntries entries) = ofValueEntries (Json.byKey entries) := by
  obtain ⟨ps, rfl⟩ := Json.exists_texts texts
  have images : (ps.map fun p => (p.1, ofValue p.2)).mergeSort (fun a b => decide (a.1 ≤ b.1)) =
      (ps.mergeSort fun a b => decide (a.1 ≤ b.1)).map fun p => (p.1, ofValue p.2) := by
    symm
    apply List.map_mergeSort
    intros
    rfl
  rw [ofValueEntries_texts, byKey_texts, images, Json.byKey_texts, ofValueEntries_texts]

mutual

/-- The order of values with characters. -/
theorem ordered_ofValue : ∀ {v : Value}, Value.Keyed v →
    (ofValue v).ordered = ofValue (Json.sorted v)
  | .list items, keyed => by
    simp only [Value.Keyed] at keyed
    rw [ofValue, ordered, orderedItems_ofValue keyed, Json.sorted, ofValue]
  | .table entries, keyed => by
    simp only [Value.Keyed] at keyed
    rw [ofValue, ordered, orderedEntries_ofValue keyed.2,
      byKey_ofValueEntries (Json.textKeys_sortedEntries keyed.1).text, Json.sorted, ofValue]
  | .null, _ => rfl
  | .flag _, _ => rfl
  | .whole _, _ => rfl
  | .number _, _ => rfl
  | .text _, _ => rfl

theorem orderedItems_ofValue : ∀ {items : List Value}, Value.KeyedItems items →
    orderedItems (ofValueItems items) = ofValueItems (Json.sortedItems items)
  | [], _ => rfl
  | v :: rest, keyed => by
    simp only [Value.KeyedItems] at keyed
    rw [ofValueItems, orderedItems, ordered_ofValue keyed.1, orderedItems_ofValue keyed.2,
      Json.sortedItems, ofValueItems]

theorem orderedEntries_ofValue : ∀ {entries : List (Value × Value)}, Value.KeyedEntries entries →
    orderedEntries (ofValueEntries entries) = ofValueEntries (Json.sortedEntries entries)
  | [], _ => rfl
  | (k, v) :: rest, keyed => by
    simp only [Value.KeyedEntries] at keyed
    rw [ofValueEntries, orderedEntries, ordered_ofValue keyed.1, orderedEntries_ofValue keyed.2,
      Json.sortedEntries, ofValueEntries]

end

mutual

/-- Keys that are texts hold no numbers. -/
theorem isFinite_ofValue : ∀ {v : Value}, Value.Keyed v → (ofValue v).isFinite = Json.isFinite v
  | .list items, keyed => by
    simp only [Value.Keyed] at keyed
    exact finiteItems_ofValue keyed
  | .table entries, keyed => by
    simp only [Value.Keyed] at keyed
    exact finiteEntries_ofValue keyed.1.text keyed.2
  | .null, _ => rfl
  | .flag _, _ => rfl
  | .whole _, _ => rfl
  | .number _, _ => by simp [ofValue, isFinite, leaves, Json.isFinite]
  | .text _, _ => rfl

theorem finiteItems_ofValue : ∀ {items : List Value}, Value.KeyedItems items →
    (list (ofValueItems items)).isFinite = Json.finiteItems items
  | [], _ => rfl
  | v :: rest, keyed => by
    simp only [Value.KeyedItems] at keyed
    have first := isFinite_ofValue keyed.1
    have others := finiteItems_ofValue keyed.2
    simp only [isFinite, leaves] at first others ⊢
    rw [ofValueItems, itemLeaves, List.all_append, first, others, Json.finiteItems]

theorem finiteEntries_ofValue : ∀ {entries : List (Value × Value)},
    (∀ e ∈ entries, ∃ s, e.1 = .text s) → Value.KeyedEntries entries →
      (table (ofValueEntries entries)).isFinite = Json.finiteEntries entries
  | [], _, _ => rfl
  | (k, v) :: rest, texts, keyed => by
    obtain ⟨⟨s, rfl⟩, behind⟩ := List.forall_mem_cons.mp texts
    simp only [Value.KeyedEntries] at keyed
    have first := isFinite_ofValue keyed.1
    have others := finiteEntries_ofValue behind keyed.2
    simp only [isFinite, leaves] at first others ⊢
    rw [ofValueEntries, entryLeaves, List.all_cons, List.all_append, first, others,
      Json.finiteEntries, Bool.and_assoc]
    rfl

end

end FormulaSheet.RawValue
