import FormulaSheet.Data.Yaml.Token
/-!
YAML tokens as a tree of scalars, sequences and mappings. A text holds one document at most; missing
nodes are empty plain scalars. Tokens are taken one after the other, so of two faults in a text the
first one counts: a token at a wrong place in front of where the tokens break off.
-/

namespace FormulaSheet.Yaml

inductive Node
  | scalar (text : List Char) (plain : Bool)
  | sequence (items : List Node)
  | mapping (entries : List (Node × Node))
deriving Inhabited

/-- The node that stands where none is written. -/
def Node.missing : Node := .scalar [] true

/-- Where a node is looked for: which tokens may begin one. -/
inductive Context
  | flow
  | block
  /-- Behind a key or a value, where a sequence need not be indented. -/
  | blockEntry
deriving DecidableEq

/-- Why tokens are no document. -/
inductive Refusal
  /-- More tokens are needed. -/
  | unfinished
  /-- The next token cannot stand where it stands. -/
  | misplaced
deriving DecidableEq, Repr

def Refusal.ofTokens : List Token → Refusal
  | [] => unfinished
  | _ => misplaced

def refuse {α : Type} (ts : List Token) : Except Refusal α := .error (.ofTokens ts)

mutual

/-- A node at the front of the tokens. The count bounds the nodes and entries still to be read. -/
def node : Nat → Context → List Token → Except Refusal (Node × List Token)
  | 0, _, _ => .error .misplaced
  | n + 1, context, ts =>
    match ts with
    | .scalar text plain :: rest => .ok (.scalar text plain, rest)
    | .flowSequenceStart :: .flowSequenceEnd :: rest => .ok (.sequence [], rest)
    | .flowSequenceStart :: rest =>
      (flowItems n rest).map fun (items, r) => (.sequence items, r)
    | .flowMappingStart :: .flowMappingEnd :: rest => .ok (.mapping [], rest)
    | .flowMappingStart :: rest =>
      (flowEntries n rest).map fun (entries, r) => (.mapping entries, r)
    | .blockEntry :: rest =>
      if context = .blockEntry then
        (plainItems n (.blockEntry :: rest)).map fun (items, r) => (.sequence items, r)
      else refuse ts
    | .blockSequenceStart :: rest =>
      if context = .flow then refuse ts
      else (blockItems n rest).map fun (items, r) => (.sequence items, r)
    | .blockMappingStart :: rest =>
      if context = .flow then refuse ts
      else (blockEntries n rest).map fun (entries, r) => (.mapping entries, r)
    | ts => refuse ts

/-- Items of an indented sequence and its end. -/
def blockItems : Nat → List Token → Except Refusal (List Node × List Token)
  | 0, _ => .error .misplaced
  | n + 1, ts =>
    match ts with
    | .blockEntry :: rest => do
      let (item, rest) ←
        match rest with
        | .blockEntry :: _ => .ok (Node.missing, rest)
        | .blockEnd :: _ => .ok (Node.missing, rest)
        | _ => node n .block rest
      let (items, rest) ← blockItems n rest
      return (item :: items, rest)
    | .blockEnd :: rest => .ok ([], rest)
    | ts => refuse ts

/-- Items of a sequence without indentation. -/
def plainItems : Nat → List Token → Except Refusal (List Node × List Token)
  | 0, _ => .error .misplaced
  | n + 1, ts =>
    match ts with
    | .blockEntry :: rest => do
      let (item, rest) ←
        match rest with
        | .blockEntry :: _ => .ok (Node.missing, rest)
        | .key :: _ => .ok (Node.missing, rest)
        | .value :: _ => .ok (Node.missing, rest)
        | .blockEnd :: _ => .ok (Node.missing, rest)
        | _ => node n .block rest
      let (items, rest) ← plainItems n rest
      return (item :: items, rest)
    | ts => .ok ([], ts)

/-- The node behind a key or a value of a block mapping. -/
def blockPart : Nat → List Token → Except Refusal (Node × List Token)
  | 0, _ => .error .misplaced
  | n + 1, ts =>
    match ts with
    | .key :: _ => .ok (Node.missing, ts)
    | .value :: _ => .ok (Node.missing, ts)
    | .blockEnd :: _ => .ok (Node.missing, ts)
    | _ => node n .blockEntry ts

/-- Entries of a block mapping and its end. -/
def blockEntries : Nat → List Token → Except Refusal (List (Node × Node) × List Token)
  | 0, _ => .error .misplaced
  | n + 1, ts =>
    match ts with
    | .blockEnd :: rest => .ok ([], rest)
    | .key :: rest => do
      let (k, rest) ← blockPart n rest
      let (v, rest) ←
        match rest with
        | .value :: rest => blockPart n rest
        | rest => .ok (Node.missing, rest)
      let (entries, rest) ← blockEntries n rest
      return ((k, v) :: entries, rest)
    | ts => refuse ts

/-- The node behind a key or a value in a flow collection that ends with the given token. -/
def flowPart : Nat → Token → List Token → Except Refusal (Node × List Token)
  | 0, _, _ => .error .misplaced
  | n + 1, close, ts =>
    match ts with
    | .value :: _ => .ok (Node.missing, ts)
    | .flowEntry :: _ => .ok (Node.missing, ts)
    | t :: _ => if t = close then .ok (Node.missing, ts) else node n .flow ts
    | [] => .error .unfinished

/-- A key with its value, which may be missing. -/
def flowPair : Nat → Token → List Token → Except Refusal ((Node × Node) × List Token)
  | 0, _, _ => .error .misplaced
  | n + 1, close, ts => do
    let (k, rest) ← flowPart n close ts
    match rest with
    | .value :: rest =>
      match rest with
      | .value :: _ => .error .misplaced
      | rest => (flowPart n close rest).map fun (v, r) => ((k, v), r)
    | rest => .ok ((k, Node.missing), rest)

/-- Items of a flow sequence, one at least, and its end. A single pair is an item too. -/
def flowItems : Nat → List Token → Except Refusal (List Node × List Token)
  | 0, _ => .error .misplaced
  | n + 1, ts => do
    let (item, rest) ←
      match ts with
      | .key :: rest =>
        (flowPair n .flowSequenceEnd rest).map fun (e, r) => (Node.mapping [e], r)
      | ts => node n .flow ts
    match rest with
    | .flowSequenceEnd :: rest => .ok ([item], rest)
    | .flowEntry :: .flowSequenceEnd :: rest => .ok ([item], rest)
    | .flowEntry :: rest => (flowItems n rest).map fun (items, r) => (item :: items, r)
    | rest => refuse rest

/-- Entries of a flow mapping, one at least, and its end. A key without colon has no value. -/
def flowEntries : Nat → List Token → Except Refusal (List (Node × Node) × List Token)
  | 0, _ => .error .misplaced
  | n + 1, ts => do
    let (entry, rest) ←
      match ts with
      | .key :: rest => flowPair n .flowMappingEnd rest
      | ts => (node n .flow ts).map fun (k, r) => ((k, Node.missing), r)
    match rest with
    | .flowMappingEnd :: rest => .ok ([entry], rest)
    | .flowEntry :: .flowMappingEnd :: rest => .ok ([entry], rest)
    | .flowEntry :: rest => (flowEntries n rest).map fun (entries, r) => (entry :: entries, r)
    | rest => refuse rest

end

/-- Whether the tokens behind a document end the text: only marks of its end may come first. -/
def atStreamEnd : List Token → Except Refusal Unit
  | [.streamEnd] => .ok ()
  | .documentEnd :: rest => atStreamEnd rest
  | ts => refuse ts

/-- The document of a token list; none if there is nothing between the marks of its beginning and
its end. -/
def document (ts : List Token) : Except Refusal (Option Node) :=
  let count := 4 * ts.length + 4
  let close (r : Node × List Token) : Except Refusal (Option Node) :=
    (atStreamEnd r.2).map fun _ => some r.1
  match ts with
  | [.streamEnd] => .ok none
  | .documentStart :: rest =>
    match rest with
    | .documentStart :: _ => .error .misplaced
    | .documentEnd :: _ => close (.missing, rest)
    | .streamEnd :: _ => close (.missing, rest)
    | rest => (node count .block rest).bind close
  | ts => (node count .block ts).bind close

/-- The document of a text. Where more tokens are needed than could be told, the failure of the scan
is the reason. -/
def Scan.document (s : Scan) : Except DocumentError (Option Node) :=
  (Yaml.document s.tokens).mapError fun
    | .unfinished => s.failure.getD .malformed
    | .misplaced => .malformed

end FormulaSheet.Yaml
