import FormulaSheet.Data.Value
/-!
Values whose tables have texts as keys, each key once. The entries of such a table are a map: what a
key leads to does not depend on the order of the entries, and setting them one after the other gives
them back. Two values are alike if they are equal but for the order of the entries of tables.
-/

namespace FormulaSheet.Value

mutual

/-- The numbers inside a value. -/
def floats : Value → List Float
  | number x => [x]
  | list items => itemFloats items
  | table entries => entryFloats entries
  | _ => []

def itemFloats : List Value → List Float
  | [] => []
  | v :: rest => floats v ++ itemFloats rest

def entryFloats : List (Value × Value) → List Float
  | [] => []
  | (k, v) :: rest => floats k ++ (floats v ++ entryFloats rest)

end

theorem mem_entryFloats {x : Float} {entries : List (Value × Value)} :
    x ∈ entryFloats entries ↔ ∃ e ∈ entries, x ∈ floats e.1 ∨ x ∈ floats e.2 := by
  induction entries with
  | nil => simp [entryFloats]
  | cons e rest ih => simp [entryFloats, ih, or_assoc]

/-- The keys are texts, and no key comes twice. -/
structure TextKeys (entries : List (Value × Value)) : Prop where
  text : ∀ e ∈ entries, ∃ s, e.1 = text s
  distinct : (entries.map (·.1)).Nodup

mutual

/-- Every table inside has distinct texts as keys. -/
def Keyed : Value → Prop
  | list items => KeyedItems items
  | table entries => TextKeys entries ∧ KeyedEntries entries
  | _ => True

def KeyedItems : List Value → Prop
  | [] => True
  | v :: rest => Keyed v ∧ KeyedItems rest

def KeyedEntries : List (Value × Value) → Prop
  | [] => True
  | (_, v) :: rest => Keyed v ∧ KeyedEntries rest

end

theorem keyedEntries_iff {entries : List (Value × Value)} :
    KeyedEntries entries ↔ ∀ e ∈ entries, Keyed e.2 := by
  induction entries with
  | nil => simp [KeyedEntries]
  | cons e rest ih => simp [KeyedEntries, ih]

mutual

/-- Equal but for the order of the entries of tables. -/
def Alike : Value → Value → Prop
  | list items, list others => AlikeItems items others
  | table entries, table others => ∃ es, es.Perm others ∧ AlikeEntries entries es
  | v, w => v = w

def AlikeItems : List Value → List Value → Prop
  | [], [] => True
  | v :: rest, w :: others => Alike v w ∧ AlikeItems rest others
  | _, _ => False

def AlikeEntries : List (Value × Value) → List (Value × Value) → Prop
  | [], [] => True
  | (k, v) :: rest, (l, w) :: others => k = l ∧ Alike v w ∧ AlikeEntries rest others
  | _, _ => False

end

def isTable : Value → Bool
  | table _ => true
  | _ => false

/-! Entries as a map. -/

theorem sameKey_text (s t : String) : sameKey (text s) (text t) = (s == t) := rfl

/-- A text is the same key as nothing but itself. -/
theorem eq_of_sameKey_text {v : Value} {s : String} (h : sameKey v (text s) = true) :
    v = text s := by
  cases v with
  | text t => rw [eq_of_beq h]
  | null => simp [sameKey, wholeKey?] at h
  | flag b => simp [sameKey, wholeKey?] at h
  | whole i => simp [sameKey, wholeKey?] at h
  | list items => simp [sameKey, wholeKey?] at h
  | table entries => simp [sameKey, wholeKey?] at h
  | number x =>
    simp only [sameKey, wholeKey?] at h
    split at h
    · rename_i whole none
      cases none
    · cases h
    · cases h

theorem TextKeys.tail {e : Value × Value} {rest : List (Value × Value)}
    (h : TextKeys (e :: rest)) : TextKeys rest :=
  ⟨fun e he => h.text e (List.mem_cons_of_mem _ he), (List.nodup_cons.mp h.distinct).2⟩

theorem TextKeys.perm {entries others : List (Value × Value)} (h : TextKeys entries)
    (same : entries.Perm others) : TextKeys others :=
  ⟨fun e he => h.text e (same.mem_iff.mpr he), (same.map _).nodup_iff.mp h.distinct⟩

/-- Keys stay where every value is changed. -/
theorem TextKeys.map {entries : List (Value × Value)} (h : TextKeys entries)
    (f : Value → Value) : TextKeys (entries.map fun e => (e.1, f e.2)) := by
  refine ⟨?_, ?_⟩
  · intro e he
    obtain ⟨entry, mem, rfl⟩ := List.mem_map.mp he
    exact h.text entry mem
  · rw [List.map_map]
    exact h.distinct

theorem find?_eq_some_iff {entries : List (Value × Value)} (h : TextKeys entries) {k : String}
    {v : Value} : find? k entries = some v ↔ (text k, v) ∈ entries := by
  induction entries with
  | nil => simp [find?]
  | cons e rest ih =>
    obtain ⟨key, value⟩ := e
    obtain ⟨s, hs⟩ := h.text _ List.mem_cons_self
    cases hs
    have fresh := (List.nodup_cons.mp h.distinct).1
    rw [find?, sameKey_text, List.mem_cons, Prod.mk.injEq, text.injEq]
    by_cases same : s = k
    · subst same
      have absent : (text s, v) ∉ rest := fun mem => fresh (List.mem_map_of_mem (f := (·.1)) mem)
      simp [absent, eq_comm]
    · have apart : ¬ k = s := fun e => same e.symm
      simp [same, apart, ih h.tail]

/-- What a key leads to does not depend on the order of the entries. -/
theorem find?_perm {entries others : List (Value × Value)} (h : TextKeys entries)
    (same : entries.Perm others) (k : String) : find? k entries = find? k others := by
  apply Option.ext
  intro v
  rw [find?_eq_some_iff h, find?_eq_some_iff (h.perm same), same.mem_iff]

theorem find?_map (f : Value → Value) (k : String) (entries : List (Value × Value)) :
    find? k (entries.map fun e => (e.1, f e.2)) = (find? k entries).map f := by
  induction entries with
  | nil => rfl
  | cons e rest ih =>
    simp only [List.map_cons, find?, ih]
    split <;> rfl

theorem insert_fresh {key value : Value} {entries : List (Value × Value)}
    (h : ∀ e ∈ entries, sameKey e.1 key = false) :
    insert key value entries = entries ++ [(key, value)] := by
  induction entries with
  | nil => rfl
  | cons e rest ih =>
    obtain ⟨k, v⟩ := e
    have apart : sameKey k key = false := h _ List.mem_cons_self
    rw [insert, apart, ih fun e he => h e (List.mem_cons_of_mem _ he)]
    rfl

theorem find?_insert (s t : String) (v : Value) (entries : List (Value × Value)) :
    find? t (insert (text s) v entries) = if s = t then some v else find? t entries := by
  induction entries with
  | nil => simp [insert, find?, sameKey_text]
  | cons e rest ih =>
    obtain ⟨key, value⟩ := e
    by_cases here : sameKey key (text s) = true
    · cases eq_of_sameKey_text here
      by_cases same : s = t <;> simp [insert, find?, sameKey_text, same]
    · rw [insert, if_neg here, find?, find?, ih]
      by_cases same : s = t
      · subst same
        simp [here]
      · simp [same]

/-- Entries with distinct texts as keys are what setting them one after the other gives. -/
theorem ofEntries_of_textKeys {entries : List (Value × Value)} (h : TextKeys entries) :
    ofEntries entries = entries := by
  have built : ∀ made, TextKeys (made ++ entries) →
      entries.foldl (fun table e => insert e.1 e.2 table) made = made ++ entries := by
    intro made keys
    clear h
    induction entries generalizing made with
    | nil => rw [List.foldl_nil, List.append_nil]
    | cons e rest ih =>
      have fresh : ∀ a ∈ made, sameKey a.1 e.1 = false := by
        intro a ha
        obtain ⟨s, hs⟩ := keys.text a (List.mem_append_left _ ha)
        obtain ⟨t, ht⟩ := keys.text e (List.mem_append_right _ List.mem_cons_self)
        have distinct := keys.distinct
        rw [List.map_append, List.map_cons] at distinct
        have apart := (List.nodup_append.mp distinct).2.2 a.1 (List.mem_map_of_mem ha) e.1
          List.mem_cons_self
        rw [hs, ht] at apart
        rw [hs, ht, sameKey_text, beq_eq_false_iff_ne]
        exact fun same => apart (congrArg text same)
      rw [List.foldl_cons, insert_fresh fresh, ih]
      · rw [List.append_assoc, List.singleton_append]
      · rwa [List.append_assoc, List.singleton_append]
  exact built [] h

end FormulaSheet.Value
