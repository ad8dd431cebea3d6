import FormulaSheet.Proofs.Address.Label
import FormulaSheet.Sheet.Basic
/-!
What the operations of a sheet do to the cells under its keys. A lookup may put a blank cell under a
key that had none and changes nothing else; where each cell is stored under its own label, changing
one cell changes what one key leads to.
-/

namespace FormulaSheet.Sheet

/-- Each cell is stored under its own label. -/
def SelfLabelled (s : Sheet) : Prop := ∀ k c, s.cell? k = some c → c.label = k

/-- Every cell without a formula carries the fault of the empty formula. -/
def BlanksMarked (s : Sheet) : Prop :=
  ∀ k c, s.cell? k = some c → c.isFilled = false → c.fault = some .emptyFormula

theorem key_eq_ok_iff {s : Sheet} {label k : String} :
    s.key label = .ok k ↔ k = Text.upper label ∧ Label.isKey s.rows s.columns k = true := by
  unfold key
  dsimp only
  cases hp : Label.parse? (Text.upper label) with
  | none =>
    constructor
    · intro h
      cases h
    · rintro ⟨rfl, hk⟩
      obtain ⟨p, hp', _⟩ := Label.isKey_iff.mp hk
      rw [hp] at hp'
      cases hp'
  | some p =>
    dsimp only
    constructor
    · intro h
      split at h
      · cases h
      · rename_i inside
        cases h
        rw [not_or, Nat.not_le, Nat.not_le] at inside
        exact ⟨rfl, Label.isKey_iff.mpr ⟨p, hp, inside⟩⟩
    · rintro ⟨rfl, hk⟩
      obtain ⟨q, hq, row, column⟩ := Label.isKey_iff.mp hk
      obtain rfl : p = q := by rw [hp] at hq; exact Option.some.inj hq
      rw [if_neg (by omega)]

theorem key_of_isKey {s : Sheet} {k : String} (h : Label.isKey s.rows s.columns k = true) :
    s.key k = .ok k :=
  key_eq_ok_iff.mpr ⟨(Label.upper_of_isLabel (Label.isLabel_of_isKey h)).symm, h⟩

theorem mem_keys_of_lookup {s : Sheet} {k : String} {slot : Nat}
    (h : s.keys.lookup k = some slot) : (k, slot) ∈ s.keys := by
  obtain ⟨before, behind, he, _⟩ := List.lookup_eq_some_iff.mp h
  rw [he]
  exact List.mem_append_right _ List.mem_cons_self

theorem isKey_of_lookup {s : Sheet} {k : String} {slot : Nat} (h : s.keys.lookup k = some slot) :
    Label.isKey s.rows s.columns k = true :=
  s.inside (k, slot) (mem_keys_of_lookup h)

theorem cell?_eq_some_iff {s : Sheet} {k : String} {c : Cell} :
    s.cell? k = some c ↔ ∃ slot, s.keys.lookup k = some slot ∧ s.cellAt slot = c :=
  Option.map_eq_some_iff

theorem cell?_of_notMem {s : Sheet} {k : String} (h : k ∉ s.keys.map (·.1)) :
    s.cell? k = none := by
  cases hc : s.cell? k with
  | none => rfl
  | some c =>
    obtain ⟨slot, hs, _⟩ := cell?_eq_some_iff.mp hc
    exact absurd (List.mem_map.mpr ⟨_, mem_keys_of_lookup hs, rfl⟩) h

theorem isKey_of_cell? {s : Sheet} {k : String} {c : Cell} (h : s.cell? k = some c) :
    Label.isKey s.rows s.columns k = true := by
  obtain ⟨slot, hs, _⟩ := cell?_eq_some_iff.mp h
  exact isKey_of_lookup hs

theorem find?_of_isLabel {s : Sheet} {l : String} (h : Label.isLabel l = true) :
    s.find? l = s.cell? l := by
  rw [find?, Label.upper_of_isLabel h]

theorem find?_of_cell? {s : Sheet} {k : String} {c : Cell} (h : s.cell? k = some c) :
    s.find? k = some c := by
  rw [find?_of_isLabel (Label.isLabel_of_isKey (isKey_of_cell? h)), h]

theorem SelfLabelled.slot_unique {s : Sheet} (own : s.SelfLabelled) {k k' : String} {slot : Nat}
    (h : s.keys.lookup k = some slot) (h' : s.keys.lookup k' = some slot) : k' = k := by
  have label := own k _ (cell?_eq_some_iff.mpr ⟨slot, h, rfl⟩)
  have label' := own k' _ (cell?_eq_some_iff.mpr ⟨slot, h', rfl⟩)
  exact label'.symm.trans label

/-! Changing a cell. -/

theorem cellAt_modify (s : Sheet) {slot : Nat} (hs : slot < s.pool.size) (f : Cell → Cell)
    (i : Nat) :
    (s.modify slot f).cellAt i = if i = slot then f (s.cellAt i) else s.cellAt i := by
  simp only [cellAt, modify, Array.getD_eq_getD_getElem?, Array.getElem?_modify]
  by_cases he : i = slot
  · subst he
    simp [hs]
  · rw [if_neg he, if_neg (fun e => he e.symm)]

theorem cellAt_modify_of_ne (s : Sheet) {slot i : Nat} (h : i ≠ slot) (f : Cell → Cell) :
    (s.modify slot f).cellAt i = s.cellAt i := by
  simp only [cellAt, modify, Array.getD_eq_getD_getElem?, Array.getElem?_modify,
    if_neg (Ne.symm h)]

theorem cell?_modify {s : Sheet} (own : s.SelfLabelled) {k : String} {slot : Nat}
    (h : s.keys.lookup k = some slot) (f : Cell → Cell) (k' : String) :
    (s.modify slot f).cell? k' = if k' = k then (s.cell? k').map f else s.cell? k' := by
  have hs : slot < s.pool.size := s.stored (k, slot) (mem_keys_of_lookup h)
  have keys : (s.modify slot f).keys = s.keys := rfl
  rw [cell?, cell?, keys]
  cases h' : s.keys.lookup k' with
  | none => simp
  | some i =>
    simp only [Option.map_some, cellAt_modify s hs]
    by_cases he : i = slot
    · subst he
      rw [own.slot_unique h h']
      simp
    · have hk : k' ≠ k := by
        rintro rfl
        rw [h] at h'
        exact he (Option.some.inj h').symm
      rw [if_neg he, if_neg hk]

theorem SelfLabelled.modify {s : Sheet} (own : s.SelfLabelled) {k : String} {slot : Nat}
    (h : s.keys.lookup k = some slot) {f : Cell → Cell} (same : ∀ c, (f c).label = c.label) :
    (s.modify slot f).SelfLabelled := by
  intro k' c hc
  rw [cell?_modify own h] at hc
  split at hc
  · obtain ⟨c', hc', rfl⟩ := Option.map_eq_some_iff.mp hc
    rw [same]
    exact own k' c' hc'
  · exact own k' c hc

/-! Looking labels up. -/

theorem lookup_link (k : String) (slot : Nat) (keys : List (String × Nat)) (k' : String) :
    (link k slot keys).lookup k' = if k' = k then some slot else keys.lookup k' := by
  induction keys with
  | nil =>
    by_cases hk : k' = k
    · simp [link, hk]
    · simp [link, hk]
  | cons e rest ih =>
    obtain ⟨k₀, i⟩ := e
    by_cases he : k₀ = k
    · subst he
      by_cases hk : k' = k₀
      · simp [link, hk]
      · simp [link, List.lookup_cons, beq_false_of_ne hk, hk]
    · rw [link, if_neg he]
      by_cases hk : k' = k₀
      · subst hk
        simp [he]
      · simp only [List.lookup_cons, beq_false_of_ne hk, ih]

theorem cellAt_add_of_lt {s : Sheet} (c : Cell) {i : Nat} (h : i < s.pool.size) :
    (s.add c).2.cellAt i = s.cellAt i := by
  simp [add, cellAt, Array.getD_eq_getD_getElem?, Array.getElem?_push, Nat.ne_of_lt h]

theorem cellAt_add (s : Sheet) (c : Cell) : (s.add c).2.cellAt (s.add c).1 = c := by
  simp [add, cellAt, Array.getD_eq_getD_getElem?]

theorem rows_assign (s : Sheet) (k : String) (slot : Nat) :
    (s.assign k slot).rows = s.rows ∧ (s.assign k slot).columns = s.columns := by
  unfold assign
  split <;> exact ⟨rfl, rfl⟩

theorem keys_assign {s : Sheet} {k : String} {slot : Nat} (hs : slot < s.pool.size)
    (hk : Label.isKey s.rows s.columns k = true) : (s.assign k slot).keys = link k slot s.keys := by
  rw [assign, dif_pos ⟨hs, hk⟩]
  rfl

theorem cellAt_assign {s : Sheet} {k : String} {slot : Nat} (hs : slot < s.pool.size)
    (hk : Label.isKey s.rows s.columns k = true) (i : Nat) :
    (s.assign k slot).cellAt i =
      if i = slot then { s.cellAt i with label := k } else s.cellAt i := by
  rw [assign, dif_pos ⟨hs, hk⟩]
  exact cellAt_modify s hs _ i

theorem cell?_assign {s : Sheet} {k : String} {slot : Nat} (hs : slot < s.pool.size)
    (hk : Label.isKey s.rows s.columns k = true) (k' : String) :
    (s.assign k slot).cell? k' =
      if k' = k then some { s.cellAt slot with label := k }
      else (s.keys.lookup k').map fun i =>
        if i = slot then { s.cellAt i with label := k } else s.cellAt i := by
  rw [cell?, keys_assign hs hk, lookup_link, funext (cellAt_assign hs hk)]
  split
  · rw [Option.map_some, if_pos rfl]
  · rfl

theorem locate_of_lookup {s : Sheet} {label k : String} {slot : Nat} (hk : s.key label = .ok k)
    (h : s.keys.lookup k = some slot) : s.locate label = .ok (slot, s) := by
  simp only [locate, hk, Except.map, h]

/-- What a successful lookup gives: the slot of the key, and a sheet with a cell there. -/
structure Located (s : Sheet) (k : String) (slot : Nat) (t : Sheet) : Prop where
  rows : t.rows = s.rows
  columns : t.columns = s.columns
  slot : t.keys.lookup k = some slot
  slots : ∀ k' i, s.keys.lookup k' = some i → t.keys.lookup k' = some i
  cell : ∀ k', t.cell? k' = if k' = k then some ((s.cell? k').getD (.blank k)) else s.cell? k'

theorem located_known {s : Sheet} {k : String} {slot : Nat} (h : s.keys.lookup k = some slot) :
    Located s k slot s := by
  refine ⟨rfl, rfl, h, fun _ _ hi => hi, ?_⟩
  intro k'
  split
  · rename_i he
    subst he
    rw [cell?, h]
    rfl
  · rfl

theorem located_fresh {s : Sheet} {k : String} (fresh : s.keys.lookup k = none)
    (inside : Label.isKey s.rows s.columns k = true) :
    Located s k (s.add (.blank k)).1 ((s.add (.blank k)).2.assign k (s.add (.blank k)).1) := by
  have stored : (s.add (.blank k)).1 < (s.add (.blank k)).2.pool.size := by
    rw [add, Array.size_push]
    exact Nat.lt_succ_self _
  have keys := keys_assign stored inside
  refine ⟨(rows_assign _ _ _).1, (rows_assign _ _ _).2, ?_, ?_, ?_⟩
  · rw [keys, lookup_link, if_pos rfl]
  · intro k' i hi
    have apart : k' ≠ k := by
      rintro rfl
      rw [fresh] at hi
      cases hi
    rw [keys, lookup_link, if_neg apart]
    exact hi
  · intro k'
    rw [cell?_assign stored inside]
    split
    · rename_i he
      subst he
      have none : s.cell? k' = none := by rw [cell?, fresh]; rfl
      rw [cellAt_add, none]
      rfl
    · change (s.keys.lookup k').map _ = _
      rw [cell?]
      cases h : s.keys.lookup k' with
      | none => rfl
      | some i =>
        have hi : i < s.pool.size := s.stored (k', i) (mem_keys_of_lookup h)
        have apart : i ≠ (s.add (.blank k)).1 := Nat.ne_of_lt hi
        rw [Option.map_some, Option.map_some, if_neg apart, cellAt_add_of_lt _ hi]

theorem locate_of_fresh {s : Sheet} {label k : String} (hk : s.key label = .ok k)
    (fresh : s.keys.lookup k = none) :
    s.locate label =
      .ok ((s.add (.blank k)).1, (s.add (.blank k)).2.assign k (s.add (.blank k)).1) := by
  simp only [locate, hk, Except.map, fresh]

theorem located_of_locate {s t : Sheet} {label : String} {slot : Nat}
    (h : s.locate label = .ok (slot, t)) : Located s (Text.upper label) slot t := by
  cases hk : s.key label with
  | error e =>
    simp only [locate, hk, Except.map] at h
    cases h
  | ok k =>
    obtain ⟨he, inside⟩ := key_eq_ok_iff.mp hk
    rw [← he]
    cases hl : s.keys.lookup k with
    | some i =>
      rw [locate_of_lookup hk hl] at h
      cases h
      exact located_known hl
    | none =>
      rw [locate_of_fresh hk hl] at h
      cases h
      exact located_fresh hl inside

theorem exists_locate {s : Sheet} {label k : String} (hk : s.key label = .ok k) :
    ∃ slot t, s.locate label = .ok (slot, t) ∧ Located s k slot t := by
  cases hl : s.keys.lookup k with
  | some slot => exact ⟨slot, s, locate_of_lookup hk hl, located_known hl⟩
  | none => exact ⟨_, _, locate_of_fresh hk hl, located_fresh hl (key_eq_ok_iff.mp hk).2⟩

theorem locate_eq_error_iff {s : Sheet} {label : String} {e : ReferenceError} :
    s.locate label = .error e ↔ s.key label = .error e := by
  rw [locate]
  cases s.key label with
  | error e' =>
    constructor
    · intro h
      cases h
      rfl
    · intro h
      cases h
      rfl
  | ok k =>
    constructor
    · intro h
      cases h
    · intro h
      cases h

theorem Located.cellAt {s t : Sheet} {k : String} {slot : Nat} (h : Located s k slot t) :
    t.cellAt slot = (s.cell? k).getD (.blank k) := by
  have cell := h.cell k
  rw [if_pos rfl, cell?, h.slot] at cell
  exact Option.some.inj cell

/-- New keys stand behind those that were there. -/
theorem keys_locate {s t : Sheet} {label : String} {slot : Nat}
    (h : s.locate label = .ok (slot, t)) :
    ∃ new, t.keys.map (·.1) = s.keys.map (·.1) ++ new := by
  cases hk : s.key label with
  | error e =>
    simp only [locate, hk, Except.map] at h
    cases h
  | ok k =>
    cases hl : s.keys.lookup k with
    | some i =>
      rw [locate_of_lookup hk hl] at h
      cases h
      exact ⟨[], (List.append_nil _).symm⟩
    | none =>
      rw [locate_of_fresh hk hl] at h
      cases h
      have stored : (s.add (.blank k)).1 < (s.add (.blank k)).2.pool.size := by
        rw [add, Array.size_push]
        exact Nat.lt_succ_self _
      have keys := keys_assign stored (key_eq_ok_iff.mp hk).2
      rw [keys, map_fst_link]
      split
      · exact ⟨[], (List.append_nil _).symm⟩
      · exact ⟨[k], rfl⟩

/-! Growing by blank cells. -/

/-- The key leads to the same cell, or from none to a blank one. -/
def BlankOrSame (s t : Sheet) (k : String) : Prop :=
  t.cell? k = s.cell? k ∨ (s.cell? k = none ∧ t.cell? k = some (.blank k))

theorem BlankOrSame.trans {s t u : Sheet} {k : String} (h : BlankOrSame s t k)
    (h' : BlankOrSame t u k) : BlankOrSame s u k := by
  rcases h' with later | ⟨none, later⟩
  · unfold BlankOrSame
    rw [later]
    exact h
  · rcases h with early | ⟨_, early⟩
    · exact .inr ⟨early ▸ none, later⟩
    · rw [early] at none
      cases none

theorem BlankOrSame.cell? {s t : Sheet} {k : String} (h : BlankOrSame s t k) {c : Cell}
    (hc : s.cell? k = some c) : t.cell? k = some c := by
  rcases h with same | ⟨none, _⟩
  · rw [same, hc]
  · rw [hc] at none
    cases none

/-- The second sheet is the first one with blank cells under some keys that had none. -/
structure Grows (s t : Sheet) : Prop where
  rows : t.rows = s.rows
  columns : t.columns = s.columns
  slots : ∀ k i, s.keys.lookup k = some i → t.keys.lookup k = some i
  cells : ∀ k, BlankOrSame s t k

theorem Grows.refl (s : Sheet) : Grows s s := ⟨rfl, rfl, fun _ _ hi => hi, fun _ => .inl rfl⟩

theorem Grows.trans {s t u : Sheet} (h : Grows s t) (h' : Grows t u) : Grows s u :=
  ⟨h'.rows.trans h.rows, h'.columns.trans h.columns, fun k i hi => h'.slots k i (h.slots k i hi),
    fun k => (h.cells k).trans (h'.cells k)⟩

theorem Located.grows {s t : Sheet} {k : String} {slot : Nat} (h : Located s k slot t) :
    Grows s t := by
  refine ⟨h.rows, h.columns, h.slots, ?_⟩
  intro k'
  unfold BlankOrSame
  rw [h.cell]
  split
  · rename_i he
    subst he
    cases hc : s.cell? k' with
    | none => exact .inr ⟨rfl, rfl⟩
    | some c => exact .inl rfl
  · exact .inl rfl

theorem touch_cons (s : Sheet) (label : String) (rest : List String) :
    s.touch (label :: rest) = (((s.locate label).map (·.2)).toOption.getD s).touch rest := by
  simp only [touch, List.foldl_cons]

theorem grows_touch (s : Sheet) (labels : List String) : Grows s (s.touch labels) := by
  induction labels generalizing s with
  | nil => exact .refl s
  | cons label rest ih =>
    have first : Grows s (((s.locate label).map (·.2)).toOption.getD s) := by
      cases h : s.locate label with
      | error e => exact .refl s
      | ok r =>
        obtain ⟨slot, t⟩ := r
        have grown : Grows s t := (located_of_locate h).grows
        exact grown
    rw [touch_cons]
    exact first.trans (ih _)

theorem keys_touch (s : Sheet) (labels : List String) :
    ∃ new, (s.touch labels).keys.map (·.1) = s.keys.map (·.1) ++ new := by
  induction labels generalizing s with
  | nil => exact ⟨[], (List.append_nil _).symm⟩
  | cons label rest ih =>
    rw [touch_cons]
    cases located : s.locate label with
    | error e => exact ih s
    | ok found =>
      obtain ⟨slot, u⟩ := found
      obtain ⟨new, first⟩ := keys_locate located
      obtain ⟨more, later⟩ := ih u
      refine ⟨new ++ more, ?_⟩
      rw [← List.append_assoc, ← first]
      exact later

theorem Grows.selfLabelled {s t : Sheet} (h : Grows s t) (own : s.SelfLabelled) :
    t.SelfLabelled := by
  intro k c hc
  rcases h.cells k with same | ⟨_, blank⟩
  · exact own k c (same ▸ hc)
  · rw [blank] at hc
    cases hc
    rfl

theorem Grows.blanksMarked {s t : Sheet} (h : Grows s t) (marked : s.BlanksMarked) :
    t.BlanksMarked := by
  intro k c hc empty
  rcases h.cells k with same | ⟨_, blank⟩
  · exact marked k c (same ▸ hc) empty
  · rw [blank] at hc
    cases hc
    rfl

theorem key_congr {s t : Sheet} (rows : t.rows = s.rows) (columns : t.columns = s.columns)
    (label : String) : t.key label = s.key label := by
  unfold key
  rw [rows, columns]

/-- A blank cell answers to a reference as a label without a cell does. -/
theorem read_environment_congr {s t : Sheet} (rows : t.rows = s.rows)
    (columns : t.columns = s.columns) {label : String}
    (cell : BlankOrSame s t (Text.upper label)) (isLabel : Token → Bool) :
    (t.environment isLabel).read label = (s.environment isLabel).read label := by
  simp only [environment]
  rw [key_congr rows columns]
  cases hk : s.key label with
  | error e => rfl
  | ok k =>
    rw [← (key_eq_ok_iff.mp hk).1] at cell
    dsimp only
    rcases cell with same | ⟨none, blank⟩
    · rw [same]
    · rw [none, blank]
      rfl

theorem Grows.environment {s t : Sheet} (h : Grows s t) (isLabel : Token → Bool) :
    t.environment isLabel = s.environment isLabel :=
  Environment.ext rfl (funext fun _ => read_environment_congr h.rows h.columns (h.cells _) isLabel)

end FormulaSheet.Sheet
