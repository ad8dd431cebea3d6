import FormulaSheet.Sheet.Cell
/-!
A sheet of cells addressed by label. Cells come into being when they are first looked up, and stay.
Keys are upper-case labels inside the bounds, in the order of their creation; what a key leads to is
a slot of the pool, so that one cell can stand under several keys. Such a cell has the label of the
key it was last put under. Keys that denote the same position are not identified: a label with and
one without a final line feed lead to two cells.
-/

namespace FormulaSheet

structure Sheet where
  rows : Nat
  columns : Nat
  keys : List (String × Nat)
  pool : Array Cell
  rows_pos : 0 < rows
  columns_pos : 0 < columns
  stored : ∀ e ∈ keys, e.2 < pool.size
  inside : ∀ e ∈ keys, Label.isKey rows columns e.1
  distinct : (keys.map (·.1)).Nodup

/-- Why a position leads to no cell. -/
inductive PositionError
  | reference (error : ReferenceError)
  /-- A number is too long to be written, be it in the label or in what there is to say about it. -/
  | tooLong
deriving DecidableEq, Repr

namespace PositionError

def message : PositionError → String
  | reference e => e.message
  | tooLong =>
    "Exceeds the limit (" ++ Decimal.natText Decimal.digitLimit ++
      " digits) for integer string conversion; use sys.set_int_max_str_digits() to increase the limit"

/-- What becomes of a refused label: its message may have to name numbers that are too long. -/
def ofReference (e : ReferenceError) : PositionError :=
  match e with
  | .outside _ rows columns =>
    if Decimal.isWritable rows && Decimal.isWritable columns then .reference e else .tooLong
  | e => .reference e

end PositionError

namespace Sheet

/-- A sheet without cells; it needs at least one row and one column. -/
def empty? (rows columns : Int) : Option Sheet :=
  if h : 0 < rows.toNat ∧ 0 < columns.toNat then
    some ⟨rows.toNat, columns.toNat, [], #[], h.1, h.2, by simp, by simp, by simp⟩
  else none

/-- An empty sheet of the usual size. -/
def standard : Sheet :=
  ⟨100, 26, [], #[], by decide, by decide, by simp, by simp, by simp⟩

/-- The key of a label in either case. -/
def key (s : Sheet) (label : String) : Except ReferenceError String :=
  let label := Text.upper label
  match Label.parse? label with
  | none => .error (.notALabel label)
  | some p =>
    if s.rows ≤ p.row ∨ s.columns ≤ p.column then .error (.outside label s.rows s.columns)
    else .ok label

def cellAt (s : Sheet) (slot : Nat) : Cell := s.pool.getD slot (.blank "")

/-- The cell under a key. -/
def cell? (s : Sheet) (k : String) : Option Cell := (s.keys.lookup k).map s.cellAt

/-- The cell of a label in either case, if it has been created. -/
def find? (s : Sheet) (label : String) : Option Cell := s.cell? (Text.upper label)

/-- Adds a cell that no key leads to yet. -/
def add (s : Sheet) (c : Cell) : Nat × Sheet :=
  (s.pool.size,
    { s with
      pool := s.pool.push c
      stored := fun e he => by
        simpa using Nat.lt_succ_of_lt (s.stored e he) })

/-- Lets a key lead to a slot. A known key keeps its place. -/
def link (k : String) (slot : Nat) : List (String × Nat) → List (String × Nat)
  | [] => [(k, slot)]
  | e :: rest => if e.1 = k then (k, slot) :: rest else e :: link k slot rest

theorem mem_link {k : String} {slot : Nat} {keys : List (String × Nat)} {e : String × Nat}
    (h : e ∈ link k slot keys) : e = (k, slot) ∨ e ∈ keys := by
  induction keys with
  | nil => simpa [link] using h
  | cons a rest ih =>
    rw [link] at h
    split at h
    · rcases List.mem_cons.1 h with h | h
      · exact .inl h
      · exact .inr (List.mem_cons_of_mem _ h)
    · rcases List.mem_cons.1 h with h | h
      · exact .inr (h ▸ List.mem_cons_self)
      · rcases ih h with h | h
        · exact .inl h
        · exact .inr (List.mem_cons_of_mem _ h)

theorem map_fst_link (k : String) (slot : Nat) (keys : List (String × Nat)) :
    (link k slot keys).map (·.1) =
      if k ∈ keys.map (·.1) then keys.map (·.1) else keys.map (·.1) ++ [k] := by
  induction keys with
  | nil => simp [link]
  | cons a rest ih =>
    rw [link]
    split
    · rename_i h
      simp [h]
    · rename_i h
      have hk : ¬ k = a.1 := fun e => h e.symm
      simp only [List.map_cons, ih, List.mem_cons, hk, false_or]
      split <;> rfl

theorem nodup_link {k : String} {slot : Nat} {keys : List (String × Nat)}
    (h : (keys.map (·.1)).Nodup) : ((link k slot keys).map (·.1)).Nodup := by
  rw [map_fst_link]
  split
  · exact h
  · rename_i hk
    rw [List.nodup_append]
    refine ⟨h, by simp, ?_⟩
    intro a ha b hb
    rw [List.mem_singleton] at hb
    rintro rfl
    exact hk (hb ▸ ha)

/-- Changes the cell of a slot. -/
def modify (s : Sheet) (slot : Nat) (f : Cell → Cell) : Sheet :=
  { s with
    pool := s.pool.modify slot f
    stored := fun e he => by simpa using s.stored e he }

/-- Puts the cell of a slot under a key and gives it the key as its label. -/
def assign (s : Sheet) (k : String) (slot : Nat) : Sheet :=
  if h : slot < s.pool.size ∧ Label.isKey s.rows s.columns k then
    let s := s.modify slot fun c => { c with label := k }
    { s with
      keys := link k slot s.keys
      stored := fun e he => by
        rcases mem_link he with he | he
        · subst he; simpa [s, modify] using h.1
        · exact s.stored e he
      inside := fun e he => by
        rcases mem_link he with he | he
        · subst he; exact h.2
        · exact s.inside e he
      distinct := nodup_link s.distinct }
  else s

/-- The slot of a label, whose cell is created if it is missing. -/
def locate (s : Sheet) (label : String) : Except ReferenceError (Nat × Sheet) :=
  (s.key label).map fun k =>
    match s.keys.lookup k with
    | some slot => (slot, s)
    | none =>
      let (slot, s) := s.add (.blank k)
      (slot, s.assign k slot)

/-- The slot of a position, counted from zero. The position is written as a label first. -/
def locatePosition (s : Sheet) (row column : Int) : Except PositionError (Nat × Sheet) :=
  if Decimal.isWritable (row + 1) then
    (s.locate (Label.ofPosition row column)).mapError .ofReference
  else .error .tooLong

/-- Puts the cell of a slot under a label as well. -/
def share (s : Sheet) (label : String) (slot : Nat) : Except ReferenceError Sheet :=
  (s.key label).map fun k => s.assign k slot

/-- Creates the cells of those labels that the sheet can have. -/
def touch (s : Sheet) (labels : List String) : Sheet :=
  labels.foldl (fun s label => ((s.locate label).map (·.2)).toOption.getD s) s

/-- Keys and slots in row-major order of the keys, keys of one position in order of creation. -/
def sortedKeys (s : Sheet) : List (String × Nat) :=
  let position (e : String × Nat) := (Label.position? e.1).getD ⟨0, 0⟩
  s.keys.mergeSort fun a b => Position.le (position a) (position b)

/-- Keys with their cells, in row-major order of the keys. -/
def entries (s : Sheet) : List (String × Cell) :=
  s.sortedKeys.map fun e => (e.1, s.cellAt e.2)

def cells (s : Sheet) : List Cell := s.entries.map (·.2)

def labelsWithFormulas (s : Sheet) : List String :=
  (s.cells.filter Cell.isFilled).map Cell.label

/-- How the cells of the sheet answer to references. A cell that could be created reads as blank. -/
def environment (s : Sheet) (isLabel : Token → Bool) : Environment where
  isLabel
  read label :=
    match s.key label with
    | .error _ => none
    | .ok k => some ((s.cell? k).getD (.blank k)).reading

/-- Evaluates tokens against the sheet. Every label that is looked up comes into being. -/
def evaluate (s : Sheet) (isLabel : Token → Bool) (tokens : List Token) : Outcome × Sheet :=
  let e := FormulaSheet.evaluate (s.environment isLabel) tokens
  (e.outcome, s.touch e.labels)

end Sheet

end FormulaSheet
