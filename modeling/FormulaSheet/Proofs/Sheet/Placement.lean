import FormulaSheet.Proofs.Sheet.EditOrder
import FormulaSheet.Proofs.Sheet.Positions
/-!
Cells under several keys. A cell that is put under a key gets the key as its label, and stays under
the keys that led to it before. So each cell bears the key that it was last put under, whatever is
put where; and every cell bears each key that leads to it until one is put under a second key.
-/

namespace FormulaSheet.Sheet

/-- What can be done with the cells of a sheet through labels. The cell that is put under a label is
a new one, or one that the sheet has or had. -/
inductive Placement
  | lookUp (label : String)
  | lookUpAt (row column : Int)
  | putNew (label : String) (c : Cell)
  | putAgain (label : String) (slot : Nat)

/-- The sheet behind a placement; one that is refused changes nothing. -/
def place (s : Sheet) : Placement → Sheet
  | .lookUp label => s.lookedUp label
  | .lookUpAt row column => s.lookedUpAt row column
  | .putNew label c => ((s.add c).2.share label (s.add c).1).toOption.getD s
  | .putAgain label slot => (s.share label slot).toOption.getD s

def placeAll (s : Sheet) : List Placement → Sheet
  | [] => s
  | p :: rest => (s.place p).placeAll rest

/-- The key that a lookup creates a cell for, and the slot of the cell. -/
def createdBy (s : Sheet) (label : String) : Option (String × Nat) :=
  (s.key label).toOption.bind fun k =>
    if (s.keys.lookup k).isSome then none else some (k, s.pool.size)

/-- The key that a lookup by position creates a cell for, and the slot of the cell. -/
def createdAt (s : Sheet) (row column : Int) : Option (String × Nat) :=
  if Decimal.isWritable (row + 1) then s.createdBy (Label.ofPosition row column) else none

/-- The key that a placement puts a cell under, and the slot of the cell. -/
def putBy (s : Sheet) : Placement → Option (String × Nat)
  | .lookUp label => s.createdBy label
  | .lookUpAt row column => s.createdAt row column
  | .putNew label _ => (s.key label).toOption.map fun k => (k, s.pool.size)
  | .putAgain label slot =>
    if slot < s.pool.size then (s.key label).toOption.map fun k => (k, slot) else none

/-- All keys and slots of placements in turn, the last ones first. -/
def ledger (s : Sheet) : List Placement → List (String × Nat)
  | [] => []
  | p :: rest => (s.place p).ledger rest ++ (s.putBy p).toList

/-- The key of the first entry with the slot. -/
def lastKey (entries : List (String × Nat)) (slot : Nat) : Option String :=
  (entries.find? fun e => e.2 = slot).map (·.1)

/-- No cell is put under a second key. -/
def Single (s : Sheet) : Placement → Prop
  | .putAgain label slot =>
    ∀ k k', s.key label = .ok k → s.keys.lookup k' = some slot → k' = k
  | _ => True

def AllSingle (s : Sheet) : List Placement → Prop
  | [] => True
  | p :: rest => s.Single p ∧ (s.place p).AllSingle rest

/-! One placement. -/

/-- The second sheet is the first one with the cell of a slot put under a key. -/
structure Put (s : Sheet) (k : String) (slot : Nat) (t : Sheet) : Prop where
  size : s.pool.size ≤ t.pool.size
  inside : slot < t.pool.size
  keys : ∀ k', t.keys.lookup k' = if k' = k then some slot else s.keys.lookup k'
  label : (t.cellAt slot).label = k
  others : ∀ i, i < s.pool.size → i ≠ slot → t.cellAt i = s.cellAt i

inductive Placed (s : Sheet) : Option (String × Nat) → Sheet → Prop
  | nothing : Placed s none s
  | put {k : String} {slot : Nat} {t : Sheet} (h : Put s k slot t) : Placed s (some (k, slot)) t

theorem size_assign (s : Sheet) (k : String) (slot : Nat) :
    (s.assign k slot).pool.size = s.pool.size := by
  unfold assign
  split
  · simp [modify]
  · rfl

theorem put_assign {s : Sheet} {k : String} {slot : Nat} (stored : slot < s.pool.size)
    (inside : Label.isKey s.rows s.columns k = true) : Put s k slot (s.assign k slot) := by
  have size := size_assign s k slot
  have cells := cellAt_assign stored inside
  constructor
  · exact Nat.le_of_eq size.symm
  · exact Nat.lt_of_lt_of_eq stored size.symm
  · intro k'
    rw [keys_assign stored inside, lookup_link]
  · simp only [cells, if_true]
  · intro i _ apart
    simp only [cells, if_neg apart]

theorem put_new {s : Sheet} {k : String} (inside : Label.isKey s.rows s.columns k = true)
    (c : Cell) : Put s k s.pool.size ((s.add c).2.assign k s.pool.size) := by
  have size : (s.add c).2.pool.size = s.pool.size + 1 := by simp [add]
  have put : Put (s.add c).2 k s.pool.size ((s.add c).2.assign k s.pool.size) :=
    put_assign (by omega) inside
  constructor
  · exact Nat.le_trans (by omega) put.size
  · exact put.inside
  · exact put.keys
  · exact put.label
  · intro i hi apart
    exact (put.others i (by omega) apart).trans (cellAt_add_of_lt c hi)

theorem placed_lookedUp (s : Sheet) (label : String) :
    s.Placed (s.createdBy label) (s.lookedUp label) := by
  cases hk : s.key label with
  | error e =>
    simp only [createdBy, lookedUp, locate, hk]
    exact .nothing
  | ok k =>
    cases known : s.keys.lookup k with
    | some slot =>
      simp only [createdBy, lookedUp, locate_of_lookup hk known, hk, Except.toOption,
        Option.bind_some, known]
      exact .nothing
    | none =>
      simp only [createdBy, lookedUp, locate_of_fresh hk known, hk, Except.toOption,
        Option.bind_some, known]
      exact .put (put_new (key_eq_ok_iff.mp hk).2 _)

theorem placed_lookedUpAt (s : Sheet) (row column : Int) :
    s.Placed (s.createdAt row column) (s.lookedUpAt row column) := by
  rw [createdAt, lookedUpAt_eq]
  split
  · exact s.placed_lookedUp _
  · exact .nothing

theorem share_of_key {s : Sheet} {label k : String} (hk : s.key label = .ok k) (slot : Nat) :
    s.share label slot = .ok (s.assign k slot) := by
  simp only [share, hk, Except.map]

theorem share_of_misplaced {s : Sheet} {label : String} {e : ReferenceError}
    (hk : s.key label = .error e) (slot : Nat) : s.share label slot = .error e := by
  simp only [share, hk, Except.map]

theorem placed_putNew (s : Sheet) (label : String) (c : Cell) :
    s.Placed (s.putBy (.putNew label c)) (s.place (.putNew label c)) := by
  have rows : (s.add c).2.rows = s.rows := rfl
  have columns : (s.add c).2.columns = s.columns := rfl
  have key := key_congr rows columns label
  cases hk : s.key label with
  | error e =>
    simp only [putBy, place, share_of_misplaced (key.trans hk), hk]
    exact .nothing
  | ok k =>
    simp only [putBy, place, share_of_key (key.trans hk), hk]
    exact .put (put_new (key_eq_ok_iff.mp hk).2 c)

theorem placed_putAgain (s : Sheet) (label : String) (slot : Nat) :
    s.Placed (s.putBy (.putAgain label slot)) (s.place (.putAgain label slot)) := by
  cases hk : s.key label with
  | error e =>
    have none : s.putBy (.putAgain label slot) = none := by simp [putBy, hk, Except.toOption]
    simp only [none, place, share_of_misplaced hk]
    exact .nothing
  | ok k =>
    simp only [putBy, place, share_of_key hk, hk]
    by_cases stored : slot < s.pool.size
    · rw [if_pos stored]
      exact .put (put_assign stored (key_eq_ok_iff.mp hk).2)
    · have same : s.assign k slot = s := dif_neg fun h => stored h.1
      rw [if_neg stored, same]
      exact .nothing

theorem placed (s : Sheet) (p : Placement) : s.Placed (s.putBy p) (s.place p) := by
  cases p with
  | lookUp label => exact placed_lookedUp s label
  | lookUpAt row column => exact s.placed_lookedUpAt row column
  | putNew label c => exact placed_putNew s label c
  | putAgain label slot => exact placed_putAgain s label slot

/-! Labels and the ledger. -/

/-- The entries, the last ones first, tell where each key leads and which label each cell has. -/
structure Follows (s : Sheet) (entries : List (String × Nat)) : Prop where
  stored : ∀ e ∈ entries, e.2 < s.pool.size
  keys : ∀ k, s.keys.lookup k = entries.lookup k
  labels : ∀ i k, lastKey entries i = some k → (s.cellAt i).label = k

theorem SelfLabelled.follows {s : Sheet} (own : s.SelfLabelled) : s.Follows s.keys := by
  constructor
  · exact s.stored
  · exact fun _ => rfl
  · intro i k last
    obtain ⟨e, found, rfl⟩ := Option.map_eq_some_iff.mp last
    have slot : e.2 = i := by simpa using List.find?_some found
    rw [← slot]
    exact own.label_of_mem_keys (List.mem_of_find?_eq_some found)

theorem Put.follows {s t : Sheet} {k : String} {slot : Nat} (h : Put s k slot t)
    {entries : List (String × Nat)} (before : s.Follows entries) :
    t.Follows ((k, slot) :: entries) := by
  constructor
  · intro e he
    rcases List.mem_cons.mp he with rfl | he
    · exact h.inside
    · exact Nat.lt_of_lt_of_le (before.stored e he) h.size
  · intro k'
    rw [h.keys, List.lookup_cons, before.keys]
    by_cases here : k' = k
    · simp [here]
    · rw [if_neg here, beq_false_of_ne here]
  · intro i k' last
    by_cases here : slot = i
    · subst here
      simp only [lastKey, List.find?_cons, decide_true, Option.map_some, Option.some.injEq] at last
      rw [← last, h.label]
    · have earlier : lastKey entries i = some k' := by simpa [lastKey, here] using last
      obtain ⟨e, found, _⟩ := Option.map_eq_some_iff.mp earlier
      have there : e.2 = i := by simpa using List.find?_some found
      have stored := before.stored e (List.mem_of_find?_eq_some found)
      rw [h.others i (there ▸ stored) (Ne.symm here)]
      exact before.labels i k' earlier

theorem Follows.place {s : Sheet} {entries : List (String × Nat)} (h : s.Follows entries)
    (p : Placement) : (s.place p).Follows ((s.putBy p).toList ++ entries) := by
  generalize ht : s.place p = t
  generalize hp : s.putBy p = entry
  have done := s.placed p
  rw [ht, hp] at done
  cases done with
  | nothing => exact h
  | put put => exact put.follows h

theorem Follows.placeAll {s : Sheet} {entries : List (String × Nat)} (h : s.Follows entries)
    (steps : List Placement) : (s.placeAll steps).Follows (s.ledger steps ++ entries) := by
  induction steps generalizing s entries with
  | nil => exact h
  | cons p rest ih =>
    have later := ih (h.place p)
    rw [← List.append_assoc] at later
    exact later

theorem Follows.lastKey_of_lookup {s : Sheet} {entries : List (String × Nat)}
    (h : s.Follows entries) {k : String} {i : Nat} (led : s.keys.lookup k = some i) :
    lastKey entries i = some (s.cellAt i).label := by
  have known := h.keys k
  rw [led] at known
  obtain ⟨front, behind, rfl, _⟩ := List.lookup_eq_some_iff.mp known.symm
  cases last : lastKey (front ++ (k, i) :: behind) i with
  | none =>
    have absent := Option.map_eq_none_iff.mp last
    simp at absent
  | some k' => rw [h.labels i k' last]

theorem Follows.selfLabelled_iff {s : Sheet} {entries : List (String × Nat)}
    (h : s.Follows entries) :
    s.SelfLabelled ↔ ∀ k i, s.keys.lookup k = some i → lastKey entries i = some k := by
  constructor
  · intro own k i led
    rw [h.lastKey_of_lookup led, own k _ (cell?_eq_some_iff.mpr ⟨i, led, rfl⟩)]
  · intro last k c hc
    obtain ⟨i, led, rfl⟩ := cell?_eq_some_iff.mp hc
    exact h.labels i k (last k i led)

/-! Cells under their own labels. -/

theorem Put.selfLabelled_iff {s t : Sheet} {k : String} {slot : Nat} (h : Put s k slot t)
    (own : s.SelfLabelled) :
    t.SelfLabelled ↔ ∀ k', s.keys.lookup k' = some slot → k' = k := by
  constructor
  · intro ownThere k' led
    by_cases apart : k' = k
    · exact apart
    · have there : t.keys.lookup k' = some slot := by rw [h.keys, if_neg apart, led]
      rw [← h.label, ownThere k' _ (cell?_eq_some_iff.mpr ⟨slot, there, rfl⟩)]
  · intro only k' c hc
    obtain ⟨i, led, rfl⟩ := cell?_eq_some_iff.mp hc
    rw [h.keys] at led
    by_cases here : k' = k
    · rw [if_pos here] at led
      cases led
      rw [h.label, here]
    · rw [if_neg here] at led
      have apart : i ≠ slot := by
        rintro rfl
        exact here (only k' led)
      rw [h.others i (s.stored _ (mem_keys_of_lookup led)) apart]
      exact own k' _ (cell?_eq_some_iff.mpr ⟨i, led, rfl⟩)

theorem slot_of_createdBy {s : Sheet} {label k : String} {slot : Nat}
    (h : s.createdBy label = some (k, slot)) : slot = s.pool.size := by
  unfold createdBy at h
  obtain ⟨k', _, entry⟩ := Option.bind_eq_some_iff.mp h
  split at entry
  · cases entry
  · cases entry
    rfl

theorem not_lookup_size {s : Sheet} {k : String} (led : s.keys.lookup k = some s.pool.size) :
    False :=
  Nat.lt_irrefl _ (s.stored _ (mem_keys_of_lookup led))

theorem single_iff {s : Sheet} {p : Placement} :
    s.Single p ↔ ∀ k slot, s.putBy p = some (k, slot) →
      ∀ k', s.keys.lookup k' = some slot → k' = k := by
  have created : ∀ label k slot, s.createdBy label = some (k, slot) →
      ∀ k', s.keys.lookup k' = some slot → k' = k := by
    intro label k slot put k' led
    cases slot_of_createdBy put
    exact (not_lookup_size led).elim
  cases p with
  | lookUp label => exact ⟨fun _ => created label, fun _ => trivial⟩
  | lookUpAt row column =>
    refine ⟨fun _ k slot put => ?_, fun _ => trivial⟩
    simp only [putBy, createdAt, Option.ite_none_right_eq_some] at put
    exact created _ k slot put.2
  | putNew label c =>
    refine ⟨fun _ k slot put k' led => ?_, fun _ => trivial⟩
    unfold putBy at put
    obtain ⟨_, _, same⟩ := Option.map_eq_some_iff.mp put
    cases same
    exact (not_lookup_size led).elim
  | putAgain label slot =>
    cases hk : s.key label with
    | error e => simp [Single, putBy, hk, Except.toOption]
    | ok k =>
      by_cases stored : slot < s.pool.size
      · have put : s.putBy (.putAgain label slot) = some (k, slot) := by
          simp [putBy, hk, Except.toOption, stored]
        constructor
        · intro single k₁ slot₁ put₁
          cases put.symm.trans put₁
          exact fun k' => single k k' hk
        · intro only k₁ k' hk₁
          cases hk.symm.trans hk₁
          exact only k slot put k'
      · have unused : ∀ k', s.keys.lookup k' ≠ some slot :=
          fun k' led => stored (s.stored _ (mem_keys_of_lookup led))
        simp [Single, putBy, stored, unused]

/-- Cells keep to their own labels exactly if no cell is put under a second key. -/
theorem selfLabelled_place_iff {s : Sheet} (own : s.SelfLabelled) (p : Placement) :
    (s.place p).SelfLabelled ↔ s.Single p := by
  rw [single_iff]
  have done := s.placed p
  generalize s.place p = t at done ⊢
  generalize s.putBy p = entry at done ⊢
  cases done with
  | nothing => simp [own]
  | put put => simp [put.selfLabelled_iff own]

theorem AllSingle.selfLabelled {s : Sheet} {steps : List Placement} (single : s.AllSingle steps)
    (own : s.SelfLabelled) : (s.placeAll steps).SelfLabelled := by
  induction steps generalizing s with
  | nil => exact own
  | cons p rest ih => exact ih single.2 ((selfLabelled_place_iff own p).mpr single.1)

/-- Every cell comes up once, and is found under the label that it bears. -/
structure Orderly (s : Sheet) : Prop where
  own : s.SelfLabelled
  cells : (s.sortedKeys.map (·.2)).Nodup
  labels : s.labelsWithFormulas.Nodup
  found : ∀ e ∈ s.sortedKeys, s.keys.lookup (s.cellAt e.2).label = some e.2
  formulas : ∀ l ∈ s.labelsWithFormulas,
    ∃ c, s.find? l = some c ∧ c.label = l ∧ c.isFilled = true

theorem SelfLabelled.orderly {s : Sheet} (own : s.SelfLabelled) : s.Orderly := by
  have known : ∀ e ∈ s.sortedKeys, e ∈ s.keys := fun e he => (sortedKeys_perm s).mem_iff.mp he
  constructor
  · exact own
  · apply List.pairwise_map.mpr
    refine s.nodup_sortedKeys.imp_of_mem ?_
    intro e e' he he' apart same
    apply apart
    rw [← own.label_of_mem_keys (known e he), ← own.label_of_mem_keys (known e' he'), same]
  · exact nodup_labelsWithFormulas own
  · intro e he
    rw [own.label_of_mem_keys (known e he)]
    exact lookup_of_mem_keys (known e he)
  · intro l hl
    obtain ⟨c, hc, filled⟩ := (mem_labelsWithFormulas own).mp hl
    exact ⟨c, find?_of_cell? hc, own l c hc, filled⟩

/-- A sheet as it begins: without cells, or filled from a table. -/
inductive Initial (s : Sheet) : Prop
  | empty {rows columns : Int} (new : empty? rows columns = some s)
  | described {entries : List (Value × Value)} (table : ofSpec entries = .ok s)

theorem Initial.selfLabelled {s : Sheet} (h : s.Initial) : s.SelfLabelled := by
  cases h with
  | empty new =>
    intro k c hc
    rw [cell?_empty? new] at hc
    cases hc
  | described table => exact selfLabelled_ofSpec table

/-- Whatever is put where, each key leads to the cell that was last put under it, and each cell
bears the key that it was last put under. So cells bear the keys that they stand under exactly if
these are their last ones, and always if no cell is put under a second key. -/
theorem labels_of_placements {s : Sheet} (start : s.Initial) (steps : List Placement) :
    (∀ k, (s.placeAll steps).keys.lookup k = (s.ledger steps ++ s.keys).lookup k) ∧
      (∀ k i, (s.placeAll steps).keys.lookup k = some i →
        lastKey (s.ledger steps ++ s.keys) i = some ((s.placeAll steps).cellAt i).label) ∧
      ((s.placeAll steps).SelfLabelled ↔ ∀ k i, (s.placeAll steps).keys.lookup k = some i →
        lastKey (s.ledger steps ++ s.keys) i = some k) ∧
      ((s.placeAll steps).SelfLabelled → (s.placeAll steps).Orderly) ∧
      (∀ p, (s.placeAll steps).SelfLabelled →
        (((s.placeAll steps).place p).SelfLabelled ↔ (s.placeAll steps).Single p)) ∧
      (s.AllSingle steps → (s.placeAll steps).Orderly) := by
  have follows := start.selfLabelled.follows.placeAll steps
  refine ⟨follows.keys, fun _ _ => follows.lastKey_of_lookup, follows.selfLabelled_iff,
    SelfLabelled.orderly, fun p own => selfLabelled_place_iff own p, ?_⟩
  intro single
  exact (single.selfLabelled start.selfLabelled).orderly

/-- The first cell of the sheet is put under A2 as well. -/
def putTwice : List Placement := [.putNew "A1" { label := "", formula := ["1"] }, .putAgain "a2" 0]

/-- A cell under two keys bears one of them, and comes up twice. -/
theorem cell_under_two_keys :
    standard.Initial ∧ (∃ i, (standard.placeAll putTwice).keys.lookup "A1" = some i ∧
      ((standard.placeAll putTwice).cellAt i).label = "A2") ∧
      (standard.placeAll putTwice).labelsWithFormulas = ["A2", "A2"] := by
  have start : empty? 100 26 = some standard := rfl
  have keys : (standard.placeAll putTwice).keys = [("A1", 0), ("A2", 0)] := by decide +kernel
  have label : ((standard.placeAll putTwice).cellAt 0).label = "A2" := by decide +kernel
  have filled : ((standard.placeAll putTwice).cellAt 0).isFilled = true := by decide +kernel
  have sorted : (standard.placeAll putTwice).sortedKeys = [("A1", 0), ("A2", 0)] := by
    have order : Position.le ((Label.position? "A1").getD ⟨0, 0⟩)
        ((Label.position? "A2").getD ⟨0, 0⟩) = true := by decide +kernel
    simp [sortedKeys, keys, List.mergeSort, List.MergeSort.Internal.splitInTwo, order]
  refine ⟨.empty start, ⟨0, ?_, label⟩, ?_⟩
  · rw [keys]
    rfl
  · simp [labelsWithFormulas, cells, entries, sorted, filled, label]

/-- Two cells, one of them put back under its own key. -/
def putBack : List Placement :=
  [.putNew "b2" { label := "", formula := ["1"] }, .lookUpAt 0 0, .putAgain "B2" 0]

theorem labels_of_cell_put_back :
    standard.AllSingle putBack ∧ (standard.placeAll putBack).Orderly := by
  have single : standard.AllSingle putBack := by
    have keys : ((standard.place (.putNew "b2" { label := "", formula := ["1"] })).place
        (.lookUpAt 0 0)).keys = [("B2", 0), ("A1", 1)] := by decide +kernel
    have own : ((standard.place (.putNew "b2" { label := "", formula := ["1"] })).place
        (.lookUpAt 0 0)).key "B2" = .ok "B2" := by decide +kernel
    refine ⟨trivial, trivial, ?_, trivial⟩
    intro k k' hk led
    cases own.symm.trans hk
    have known := mem_keys_of_lookup led
    simpa [keys] using known
  exact ⟨single, (labels_of_placements (.empty (show empty? 100 26 = some standard from rfl))
    putBack).2.2.2.2.2 single⟩

end FormulaSheet.Sheet
