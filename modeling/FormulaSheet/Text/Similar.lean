/-!
How alike two texts are, and which of some names were probably meant by a word. What two texts have
in common is their longest common block, and what they have in common before it and behind it. A
name is close to a word if three fifths of the characters of both are common ones.
-/

namespace FormulaSheet.Text

/-- A block that two texts have in common. -/
structure CommonBlock where
  /-- Where it begins in the first text. -/
  first : Nat
  /-- Where it begins in the second text. -/
  second : Nat
  length : Nat

def commonLength : List Char → List Char → Nat
  | a :: as, b :: bs => if a = b then commonLength as bs + 1 else 0
  | _, _ => 0

/-- Blocks that begin with the first text, at every place of the second. -/
def blocksAt (first : Nat) (as : List Char) : Nat → List Char → List CommonBlock
  | _, [] => []
  | second, b :: bs =>
    ⟨first, second, commonLength as (b :: bs)⟩ :: blocksAt first as (second + 1) bs

/-- Blocks that begin at every place of the first text. -/
def blocks : Nat → List Char → List Char → List CommonBlock
  | _, [], _ => []
  | first, a :: as, bs => blocksAt first (a :: as) 0 bs ++ blocks (first + 1) as bs

/-- The longest common block; of equally long ones the first in the first text, and of those the
first in the second. -/
def longestBlock (as bs : List Char) : CommonBlock :=
  (blocks 0 as bs).foldl (fun best b => if best.length < b.length then b else best) ⟨0, 0, 0⟩

/-- How many characters two texts have in common, in blocks that follow each other in both. -/
def commonCount (as bs : List Char) : Nat :=
  match longestBlock as bs with
  | ⟨i, j, n⟩ =>
    if _ : i < as.length ∧ 0 < n then
      commonCount (as.take i) (bs.take j) + n +
        commonCount (as.drop (i + n)) (bs.drop (j + n))
    else 0
termination_by as.length
decreasing_by all_goals simp only [List.length_take, List.length_drop]; omega

/-- A name beside a word: how many characters they have in common, and how many there are. -/
structure Likeness where
  name : String
  common : Nat
  total : Nat

namespace Likeness

def of (word name : String) : Likeness :=
  ⟨name, commonCount name.toList word.toList, name.length + word.length⟩

def isClose (l : Likeness) : Bool := 3 * l.total ≤ 10 * l.common

/-- Whether a name is at least as close as another; of equally close ones the later name is. -/
def atLeast (l m : Likeness) : Bool :=
  m.common * l.total < l.common * m.total ||
    (m.common * l.total == l.common * m.total && !(l.name < m.name))

end Likeness

/-- The three closest of the names that are close to a word, in alphabetical order. -/
def closeNames (word : String) (names : List String) : List String :=
  let close := (names.map (Likeness.of word)).filter Likeness.isClose
  (((close.mergeSort Likeness.atLeast).take 3).map (·.name)).mergeSort fun s t => !(t < s)

end FormulaSheet.Text
