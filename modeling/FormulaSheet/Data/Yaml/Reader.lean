import FormulaSheet.Data.Yaml.Node
import FormulaSheet.Data.Yaml.Scalar
/-!
YAML documents as values. Of several values of a key the last one counts. A document has faults
where a scalar means nothing and where a key has parts; a lone equals sign means nothing as a value,
but as a key it is a text. Of several faults the one nearest to the root is reported, and of those
equally near the first in the text.

This is a part of YAML: block and flow collections, plain and quoted scalars, comments, and the
marks of one document. Left out are directives, anchors and aliases that lead to them, tags, block
scalars, merge keys, days and times, and escaped surrogates. A text that has one of these where it
counts is `unsupported`; what a text has behind its first fault does not count. What is said of
loading documents is said of those that are `Covered`.
-/

namespace FormulaSheet.Yaml

namespace Node

def isEqualsSign : Node → Bool
  | scalar text plain => plain && text == ['=']
  | _ => false

def isMergeSign : Node → Bool
  | scalar text plain => plain && text == ['<', '<']
  | _ => false

/-- What is wrong with a node on its own, apart from its parts. -/
def ownFault? : Node → Option DocumentError
  | scalar text true =>
    match Scalar.value text with
    | .error e => some e
    | .ok _ => none
  | mapping entries => if entries.any (·.1.isMergeSign) then some .unsupported else none
  | _ => none

/-- What is wrong with a node as a key. -/
def keyFault? : Node → Option DocumentError
  | scalar text plain =>
    if (scalar text plain).isEqualsSign then none else (scalar text plain).ownFault?
  | _ => some .malformed

mutual

/-- The first fault at a depth below a node. -/
def faultAt? : Nat → Node → Option DocumentError
  | 0, node => node.ownFault?
  | depth + 1, sequence items => itemFaultAt? depth items
  | depth + 1, mapping entries => entryFaultAt? depth entries
  | _ + 1, scalar _ _ => none

def itemFaultAt? (depth : Nat) : List Node → Option DocumentError
  | [] => none
  | item :: rest => (item.faultAt? depth).or (itemFaultAt? depth rest)

def entryFaultAt? (depth : Nat) : List (Node × Node) → Option DocumentError
  | [] => none
  | (k, v) :: rest =>
    let key := if depth = 0 then k.keyFault? else none
    (key.or (v.faultAt? depth)).or (entryFaultAt? depth rest)

end

mutual

/-- How deep the parts of a node go. -/
def height : Node → Nat
  | scalar _ _ => 0
  | sequence items => itemHeight items + 1
  | mapping entries => entryHeight entries + 1

def itemHeight : List Node → Nat
  | [] => 0
  | item :: rest => max item.height (itemHeight rest)

def entryHeight : List (Node × Node) → Nat
  | [] => 0
  | (_, v) :: rest => max v.height (entryHeight rest)

end

/-- The fault that is reported: the first of those nearest to the root. -/
def fault? (node : Node) : Option DocumentError :=
  (List.range (node.height + 1)).findSome? fun depth => node.faultAt? depth

def keyValue (k : Node) (value : Value) : Value :=
  if k.isEqualsSign then .text "=" else value

mutual

/-- The value of a node. A scalar that means nothing counts as null. -/
def value : Node → Value
  | scalar text plain =>
    if plain then (Scalar.value text).toOption.getD .null else .text (String.ofList text)
  | sequence items => .list (itemValues items)
  | mapping entries => .table (Value.ofEntries (entryValues entries))

def itemValues : List Node → List Value
  | [] => []
  | item :: rest => item.value :: itemValues rest

def entryValues : List (Node × Node) → List (Value × Value)
  | [] => []
  | (k, v) :: rest => (k.keyValue k.value, v.value) :: entryValues rest

end

end Node

/-- The value of a document; a text without one is null. -/
def read (cs : List Char) : Except DocumentError Value := do
  match ← (Scan.ofText cs).document with
  | none => return .null
  | some node =>
    match node.fault? with
    | some e => throw e
    | none => return node.value

/-- Whether a surrogate is escaped at the front of a text. -/
def surrogateBegins : List Char → Bool
  | '\\' :: e :: rest =>
    (escapeWidth? e).any fun width =>
      (codePoint width rest).toOption.any fun n => 0xD800 ≤ n && n < 0xE000
  | _ => false

/-- Whether a surrogate is escaped anywhere in a text. -/
def escapesSurrogate : List Char → Bool
  | [] => false
  | c :: rest => surrogateBegins (c :: rest) || escapesSurrogate rest

/-- The texts of which something is claimed: none of what this reader leaves out counts in them, and
no surrogate is escaped, not even in a pair that stands for a character. -/
structure Covered (cs : List Char) : Prop where
  parts : read cs ≠ .error .unsupported
  characters : escapesSurrogate cs = false

end FormulaSheet.Yaml
