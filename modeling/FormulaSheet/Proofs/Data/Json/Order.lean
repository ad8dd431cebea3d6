import Mathlib.Data.List.Perm.Basic
import FormulaSheet.Data.Json.Canonical
import FormulaSheet.Proofs.Data.Value
/-!
Entries in the order of their keys. They are the entries that there were, so a value in order is the
value but for order: its keys, its numbers and what a key leads to are the same.
-/

namespace FormulaSheet.Json

open Value

theorem sortedEntries_eq (entries : List (Value × Value)) :
    sortedEntries entries = entries.map fun e => (e.1, sorted e.2) := by
  induction entries with
  | nil => rfl
  | cons e rest ih => rw [sortedEntries, ih, List.map_cons]

/-! One table. -/

theorem exists_texts {entries : List (Value × Value)} (h : ∀ e ∈ entries, ∃ s, e.1 = .text s) :
    ∃ ps : List (String × Value), entries = ps.map fun p => (.text p.1, p.2) := by
  induction entries with
  | nil => exact ⟨[], rfl⟩
  | cons e rest ih =>
    obtain ⟨s, hs⟩ := h e List.mem_cons_self
    obtain ⟨ps, hps⟩ := ih fun e he => h e (List.mem_cons_of_mem _ he)
    exact ⟨(s, e.2) :: ps, by rw [List.map_cons, ← hps, ← hs]⟩

theorem byKey_texts (ps : List (String × Value)) :
    byKey (ps.map fun p => (.text p.1, p.2)) =
      (ps.mergeSort fun a b => decide (a.1 ≤ b.1)).map fun p => (.text p.1, p.2) := by
  have defined : ((ps.map fun p => ((.text p.1, p.2) : Value × Value)).any
      fun e => isUndefined e.1) = false := by
    simp [isUndefined]
  rw [byKey, defined, if_neg (by decide), List.map_mergeSort]
  intro a _ b _
  simp [keyLt, ← String.not_lt]

theorem foldl_insertAt_perm {α : Type} (lt : α → α → Bool) (xs made : List α) :
    (xs.foldl (insertAt lt) made).Perm (made ++ xs) := by
  induction xs generalizing made with
  | nil => rw [List.foldl_nil, List.append_nil]
  | cons x rest ih =>
    have put : (insertAt lt made x).Perm (made ++ [x]) := by
      have around := List.take_append_drop (place lt x made) made
      have front : (insertAt lt made x).Perm (x :: (made.take _ ++ made.drop _)) :=
        List.perm_middle
      rw [around] at front
      exact front.trans (List.perm_append_singleton x made).symm
    rw [List.foldl_cons, ← List.singleton_append, ← List.append_assoc]
    exact (ih _).trans (put.append_right rest)

theorem arranged_perm {α : Type} (lt : α → α → Bool) (xs : List α) :
    (arranged lt xs).Perm xs := by
  unfold arranged
  split
  · refine (foldl_insertAt_perm lt _ _).trans ?_
    split
    · exact ((List.reverse_perm _).append_right _).trans (.of_eq (List.take_append_drop _ _))
    · exact .of_eq (List.take_append_drop _ _)
  · exact .refl _

theorem byKey_perm (entries : List (Value × Value)) : (byKey entries).Perm entries := by
  unfold byKey
  split
  · exact arranged_perm _ entries
  · exact List.mergeSort_perm entries _

/-! Whole values. -/

theorem textKeys_sortedEntries {entries : List (Value × Value)} (h : TextKeys entries) :
    TextKeys (sortedEntries entries) := by
  rw [sortedEntries_eq]
  exact h.map sorted

/-- A rearrangement of images is the image of a rearrangement. -/
theorem exists_perm_of_map {α β : Type} {f : α → β} {images : List β} {items : List α}
    (h : images.Perm (items.map f)) :
    ∃ others : List α, others.Perm items ∧ images = others.map f := by
  have paired : List.Forall₂ (fun image item => image = f item) (items.map f) items :=
    List.forall₂_map_left_iff.mpr (List.forall₂_same.mpr fun _ _ => rfl)
  obtain ⟨others, images, perm⟩ := List.perm_comp_forall₂ h paired
  have equal : List.Forall₂ Eq _ (others.map f) := List.forall₂_map_right_iff.mpr images
  rw [List.forall₂_eq_eq_eq] at equal
  exact ⟨others, perm, equal⟩

theorem alikeEntries_sortedEntries {entries : List (Value × Value)}
    (h : ∀ e ∈ entries, Alike (sorted e.2) e.2) :
    AlikeEntries (sortedEntries entries) entries := by
  induction entries with
  | nil => trivial
  | cons e rest ih =>
    exact ⟨rfl, h e List.mem_cons_self, ih fun e he => h e (List.mem_cons_of_mem _ he)⟩

mutual

/-- A value in order is the value but for order. -/
theorem alike_sorted : ∀ {v : Value}, Keyed v → Alike (sorted v) v
  | .list items, keyed => by
    simp only [Keyed] at keyed
    simp only [sorted, Alike]
    exact alikeItems_sorted keyed
  | .table entries, keyed => by
    simp only [Keyed] at keyed
    have values := alike_sorted_of_mem keyed.2
    have perm := byKey_perm (sortedEntries entries)
    have map := sortedEntries_eq entries
    obtain ⟨es, there, same⟩ := exists_perm_of_map (map ▸ perm)
    simp only [sorted, Alike]
    refine ⟨es, there, ?_⟩
    rw [map, same, ← sortedEntries_eq]
    exact alikeEntries_sortedEntries fun e he => values e (there.mem_iff.mp he)
  | .null, _ => rfl
  | .flag _, _ => rfl
  | .whole _, _ => rfl
  | .number _, _ => rfl
  | .text _, _ => rfl

theorem alikeItems_sorted : ∀ {items : List Value}, KeyedItems items →
    AlikeItems (sortedItems items) items
  | [], _ => trivial
  | _ :: _, keyed => ⟨alike_sorted keyed.1, alikeItems_sorted keyed.2⟩

theorem alike_sorted_of_mem : ∀ {entries : List (Value × Value)}, KeyedEntries entries →
    ∀ e ∈ entries, Alike (sorted e.2) e.2
  | [], _ => by simp
  | (k, v) :: rest, keyed => by
    intro e he
    rcases List.mem_cons.mp he with rfl | he
    · exact alike_sorted keyed.1
    · exact alike_sorted_of_mem keyed.2 e he

end

theorem find?_sorted {entries : List (Value × Value)} (h : TextKeys entries) (k : String) :
    find? k (byKey (sortedEntries entries)) = (find? k entries).map sorted := by
  have keys := textKeys_sortedEntries h
  have perm := byKey_perm (sortedEntries entries)
  rw [find?_perm (keys.perm perm.symm) perm, sortedEntries_eq, find?_map]

mutual

theorem keyed_sorted : ∀ {v : Value}, Keyed v → Keyed (sorted v)
  | .list items, keyed => by
    simp only [Keyed] at keyed
    simp only [sorted, Keyed]
    exact keyedItems_sorted keyed
  | .table entries, keyed => by
    simp only [Keyed] at keyed
    have keys := textKeys_sortedEntries keyed.1
    have perm := byKey_perm (sortedEntries entries)
    have values := keyedEntries_sorted keyed.2
    rw [keyedEntries_iff] at values
    simp only [sorted, Keyed]
    exact ⟨keys.perm perm.symm, keyedEntries_iff.mpr fun e he => values e (perm.mem_iff.mp he)⟩
  | .null, _ => trivial
  | .flag _, _ => trivial
  | .whole _, _ => trivial
  | .number _, _ => trivial
  | .text _, _ => trivial

theorem keyedItems_sorted : ∀ {items : List Value}, KeyedItems items →
    KeyedItems (sortedItems items)
  | [], _ => trivial
  | _ :: _, keyed => ⟨keyed_sorted keyed.1, keyedItems_sorted keyed.2⟩

theorem keyedEntries_sorted : ∀ {entries : List (Value × Value)}, KeyedEntries entries →
    KeyedEntries (sortedEntries entries)
  | [], _ => trivial
  | (_, _) :: _, keyed => ⟨keyed_sorted keyed.1, keyedEntries_sorted keyed.2⟩

end

mutual

theorem mem_floats_sorted {x : Float} : ∀ {v : Value}, x ∈ floats (sorted v) → x ∈ floats v
  | .list _, h => mem_itemFloats_sorted h
  | .table entries, h => by
    simp only [sorted, floats] at h
    obtain ⟨e, he, mem⟩ := mem_entryFloats.mp h
    exact mem_entryFloats_sorted (mem_entryFloats.mpr ⟨e, (byKey_perm _).mem_iff.mp he, mem⟩)
  | .null, h => h
  | .flag _, h => h
  | .whole _, h => h
  | .number _, h => h
  | .text _, h => h

theorem mem_itemFloats_sorted {x : Float} : ∀ {items : List Value},
    x ∈ itemFloats (sortedItems items) → x ∈ itemFloats items
  | [], h => h
  | _ :: _, h => by
    simp only [sortedItems, itemFloats, List.mem_append] at h ⊢
    exact h.imp mem_floats_sorted mem_itemFloats_sorted

theorem mem_entryFloats_sorted {x : Float} : ∀ {entries : List (Value × Value)},
    x ∈ entryFloats (sortedEntries entries) → x ∈ entryFloats entries
  | [], h => h
  | _ :: _, h => by
    simp only [sortedEntries, entryFloats, List.mem_append] at h ⊢
    exact h.imp_right (Or.imp mem_floats_sorted mem_entryFloats_sorted)

end

end FormulaSheet.Json
