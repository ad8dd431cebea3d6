import FormulaSheet.Data.Yaml.Plain
import FormulaSheet.Data.Yaml.Quoted
/-!
YAML text as tokens: block and flow collections, entries, keys and values, scalars, and document
marks. Whether a scalar was a key is known only when its colon comes, so the key token is put in
front of it then. Scalars are plain or quoted. Directives, anchors, tags and block scalars are left
out: where one begins the text is unsupported. So no node has a name, and an alias is a token that
nothing can follow up.
-/

namespace FormulaSheet.Yaml

inductive Token
  | blockSequenceStart
  | blockMappingStart
  | blockEnd
  | flowSequenceStart
  | flowSequenceEnd
  | flowMappingStart
  | flowMappingEnd
  | blockEntry
  | flowEntry
  | key
  | value
  | scalar (text : List Char) (plain : Bool)
  /-- A reference to a named node. No node ever has a name. -/
  | alias
  | documentStart
  | documentEnd
  | streamEnd
deriving DecidableEq, Repr

/-- Where the reader stands. Lines and columns count from zero. -/
structure Cursor where
  chars : List Char
  line : Nat := 0
  column : Nat := 0
  index : Nat := 0

namespace Cursor

def next (c : Cursor) : Cursor :=
  match c.chars with
  | [] => c
  | '\r' :: '\n' :: rest => ⟨'\n' :: rest, c.line, c.column + 1, c.index + 1⟩
  | ch :: rest =>
    if isBreak ch then ⟨rest, c.line + 1, 0, c.index + 1⟩
    else if ch == '\uFEFF' then ⟨rest, c.line, c.column, c.index + 1⟩
    else ⟨rest, c.line, c.column + 1, c.index + 1⟩

def skip : Nat → Cursor → Cursor
  | 0, c => c
  | n + 1, c => skip n c.next

/-- Goes on to where only `rest` is left. -/
def goTo (c : Cursor) (rest : List Char) : Cursor := c.skip (c.chars.length - rest.length)

end Cursor

/-- A scalar or collection that may turn out to be a key. -/
structure PossibleKey where
  /-- Where a key must stand: nothing else can begin here. -/
  required : Bool
  /-- How many tokens come before it. -/
  place : Nat
  index : Nat
  line : Nat
  column : Nat

structure Scanner where
  cursor : Cursor
  tokens : Array Token := #[]
  /-- The columns of the open block collections, innermost first. -/
  indents : List Nat := []
  /-- For each open flow collection and for the block around them, innermost first. -/
  keys : List (Option PossibleKey) := [none]
  keyAllowed : Bool := true

namespace Scanner

def inFlow (s : Scanner) : Bool := 1 < s.keys.length

/-- The column of the innermost block collection; before any there is none. -/
def indent (s : Scanner) : Int := (s.indents.head?.map (fun (n : Nat) => (n : Int))).getD (-1)

def push (s : Scanner) (t : Token) : Scanner := { s with tokens := s.tokens.push t }

/-- Leaves the block collections to the right of a column. -/
def unwind (s : Scanner) (column : Int) : Scanner :=
  if s.inFlow then s
  else
    let closed := s.indents.takeWhile fun (n : Nat) => column < (n : Int)
    { s with
      indents := s.indents.drop closed.length
      tokens := s.tokens ++ (closed.map fun _ => Token.blockEnd).toArray }

/-- Opens a block collection at a column unless it is open already. -/
def openBlock (s : Scanner) (column : Nat) (t : Token) (place : Nat) : Scanner :=
  if s.indent < (column : Int) then
    { s with indents := column :: s.indents, tokens := s.tokens.insertIdxIfInBounds place t }
  else s

/-- Gives up the possible key of the innermost level; a required one may not be given up. -/
def dropKey (s : Scanner) : Except DocumentError Scanner :=
  match s.keys with
  | [] => .ok s
  | k :: rest =>
    if k.any (·.required) then .error .malformed else .ok { s with keys := none :: rest }

/-- Gives up possible keys that are no longer near enough: those of earlier lines, and those that
began more than 1024 characters ago. -/
def dropStale (s : Scanner) : Except DocumentError Scanner :=
  let stale (k : PossibleKey) : Bool :=
    k.line != s.cursor.line || 1024 < s.cursor.index - k.index
  if s.keys.any fun k => k.any fun k => stale k && k.required then .error .malformed
  else .ok { s with keys := s.keys.map (·.filter fun k => !stale k) }

/-- Takes what begins here for a possible key. -/
def saveKey (s : Scanner) : Except DocumentError Scanner :=
  if s.keyAllowed then do
    let s ← s.dropKey
    let c := s.cursor
    let required := !s.inFlow && s.indent == (c.column : Int)
    return { s with
      keys := some ⟨required, s.tokens.size, c.index, c.line, c.column⟩ :: s.keys.drop 1 }
  else .ok s

/-- Goes to the next token: over spaces, comments and line breaks. Behind a line break a key may
stand, unless a flow collection is open. -/
def skipToToken : Nat → Scanner → Scanner
  | 0, s => s
  | n + 1, s =>
    let rest := s.cursor.chars.dropWhile (· == ' ')
    let rest :=
      match rest with
      | '#' :: _ => rest.dropWhile fun c => !isBreak c
      | _ => rest
    let c := s.cursor.goTo rest
    match rest with
    | b :: _ =>
      if isBreak b then
        skipToToken n { s with cursor := c.next, keyAllowed := s.keyAllowed || !s.inFlow }
      else { s with cursor := c }
    | [] => { s with cursor := c }

def openFlow (s : Scanner) (t : Token) : Except DocumentError Scanner := do
  let s ← s.saveKey
  return { s with
    cursor := s.cursor.next, tokens := s.tokens.push t, keys := none :: s.keys, keyAllowed := true }

def closeFlow (s : Scanner) (t : Token) : Except DocumentError Scanner := do
  let s ← s.dropKey
  if s.inFlow then
    return { s with
      cursor := s.cursor.next, tokens := s.tokens.push t, keys := s.keys.drop 1,
      keyAllowed := false }
  else .error .malformed

def flowEntry (s : Scanner) : Except DocumentError Scanner := do
  let s ← s.dropKey
  return { s with
    cursor := s.cursor.next, tokens := s.tokens.push .flowEntry, keyAllowed := true }

def blockEntry (s : Scanner) : Except DocumentError Scanner := do
  let s ←
    if s.inFlow then .ok s
    else if s.keyAllowed then
      .ok (s.openBlock s.cursor.column .blockSequenceStart s.tokens.size)
    else .error .malformed
  let s ← s.dropKey
  return { s with
    cursor := s.cursor.next, tokens := s.tokens.push .blockEntry, keyAllowed := true }

/-- A question mark announces a key. -/
def explicitKey (s : Scanner) : Except DocumentError Scanner := do
  let s ←
    if s.inFlow then .ok s
    else if s.keyAllowed then
      .ok (s.openBlock s.cursor.column .blockMappingStart s.tokens.size)
    else .error .malformed
  let s ← s.dropKey
  return { s with
    cursor := s.cursor.next, tokens := s.tokens.push .key, keyAllowed := !s.inFlow }

/-- A colon makes a key of what may be one, and begins a value. -/
def value (s : Scanner) : Except DocumentError Scanner := do
  let s ←
    match s.keys with
    | some k :: rest =>
      let s :=
        { s with
          tokens := s.tokens.insertIdxIfInBounds k.place .key
          keys := none :: rest
          keyAllowed := false }
      .ok (if s.inFlow then s else s.openBlock k.column .blockMappingStart k.place)
    | _ => do
      let s ←
        if s.inFlow then .ok s
        else if s.keyAllowed then
          .ok (s.openBlock s.cursor.column .blockMappingStart s.tokens.size)
        else .error .malformed
      let s ← s.dropKey
      .ok { s with keyAllowed := !s.inFlow }
  return { s with cursor := s.cursor.next, tokens := s.tokens.push .value }

def documentMark (s : Scanner) (t : Token) : Except DocumentError Scanner := do
  let s ← (s.unwind (-1)).dropKey
  return { s with cursor := s.cursor.skip 3, tokens := s.tokens.push t, keyAllowed := false }

def quoted (s : Scanner) (double : Bool) : Except DocumentError Scanner := do
  let s ← s.saveKey
  let body := s.cursor.chars.drop 1
  let (text, rest) ← quotedText double (body.length + 1) body
  return { s with
    cursor := s.cursor.goTo rest, tokens := s.tokens.push (.scalar text false),
    keyAllowed := false }

/-- Letters, digits, hyphens and underscores make the name that an alias refers to. -/
def aliasToken (s : Scanner) : Except DocumentError Scanner := do
  let s ← s.saveKey
  let rest := (s.cursor.chars.drop 1).dropWhile isNameChar
  if rest.length + 1 < s.cursor.chars.length ∧ nameEnds rest then
    return { s with
      cursor := s.cursor.goTo rest, tokens := s.tokens.push .alias, keyAllowed := false }
  else .error .malformed

/-- Words of a plain scalar and the gaps between them. Outside flow collections the scalar goes on
in the next line only behind the indentation. -/
def plainWords (s : Scanner) : Nat → List Char → List Char × Scanner
  | 0, _ => ([], s)
  | n + 1, gap =>
    let chars := s.cursor.chars
    let word := plainWord s.inFlow chars
    if chars.head? == some '#' || word.isEmpty then ([], s)
    else
      let (next, rest, crossed) := plainGap (chars.drop word.length)
      let s := { s with cursor := s.cursor.goTo rest, keyAllowed := crossed }
      let ends :=
        next.isEmpty || rest.head? == some '#' ||
          (!s.inFlow && (s.cursor.column : Int) < s.indent + 1)
      if ends then (gap ++ word, s)
      else
        let (more, s) := s.plainWords n next
        (gap ++ word ++ more, s)

def plain (s : Scanner) : Except DocumentError Scanner := do
  let s ← s.saveKey
  let (text, s) := { s with keyAllowed := false }.plainWords (s.cursor.chars.length + 1) []
  return s.push (.scalar text true)

/-- Whether a plain scalar can begin here. -/
def plainBegins (inFlow : Bool) : List Char → Bool
  | [] => false
  | c :: rest =>
    !(isGap c || isBreak c || "-?:,[]\x7b\x7d#&*!|>'\"%@\x60".toList.contains c) ||
      (!atWordEnd rest && (c == '-' || (!inFlow && (c == '?' || c == ':'))))

/-- Whether something begins here that is left out: an anchor, a tag, or a block scalar, which has
no place in flow collections. -/
def unsupportedBegins (inFlow : Bool) (c : Char) : Bool :=
  c == '&' || c == '!' || (!inFlow && (c == '|' || c == '>'))

/-- The token that begins here. -/
def step (s : Scanner) : Except DocumentError Scanner :=
  match s.cursor.chars with
  | [] => .error .malformed
  | c :: rest =>
    if s.cursor.column = 0 ∧ c = '%' then .error .unsupported
    else if s.cursor.column = 0 ∧ atDocumentMark (c :: rest) then
      s.documentMark (if c = '-' then .documentStart else .documentEnd)
    else
      match c with
      | '[' => s.openFlow .flowSequenceStart
      | '{' => s.openFlow .flowMappingStart
      | ']' => s.closeFlow .flowSequenceEnd
      | '}' => s.closeFlow .flowMappingEnd
      | ',' => s.flowEntry
      | '\'' => s.quoted false
      | '"' => s.quoted true
      | '*' => s.aliasToken
      | c =>
        if c = '-' ∧ atWordEnd rest then s.blockEntry
        else if c = '?' ∧ (s.inFlow ∨ atWordEnd rest) then s.explicitKey
        else if c = ':' ∧ (s.inFlow ∨ atWordEnd rest) then s.value
        else if unsupportedBegins s.inFlow c then .error .unsupported
        else if plainBegins s.inFlow (c :: rest) then s.plain
        else .error .malformed

/-- The next token; behind the last one the end of all. -/
def next (s : Scanner) : Except DocumentError Scanner := do
  let s ← (s.skipToToken (s.cursor.chars.length + 1)).dropStale
  let s := s.unwind s.cursor.column
  if s.cursor.chars.isEmpty then
    let s ← (s.unwind (-1)).dropKey
    return s.push .streamEnd
  else s.step

/-- The tokens before the first place at which a colon could still put a key. -/
def settled (s : Scanner) : List Token :=
  let keys := (s.dropStale.toOption.getD s).keys
  s.tokens.toList.take (keys.foldl (fun n k => min n ((k.map (·.place)).getD n)) s.tokens.size)

end Scanner

/-- What can be told of a text: its tokens, up to its end or up to a failure. -/
structure Scan where
  tokens : List Token
  failure : Option DocumentError := none

namespace Scan

/-- Goes on from a scanner. Each token takes a character at least, so the length of the text bounds
their number. Behind a failure nothing counts that was not settled before it. -/
def ofScanner : Nat → Scanner → Scan
  | 0, s => ⟨s.settled, some .malformed⟩
  | n + 1, s =>
    match s.next with
    | .error e => ⟨s.settled, some e⟩
    | .ok after =>
      if after.tokens.back? = some .streamEnd then { tokens := after.tokens.toList }
      else ofScanner n after

/-- The scan of a text. A byte order mark in front is skipped. -/
def ofText (cs : List Char) : Scan :=
  if cs.all isAllowed then
    let body :=
      match cs with
      | '\uFEFF' :: rest => rest
      | cs => cs
    ofScanner (body.length + 2) { cursor := { chars := body } }
  else ⟨[], some .malformed⟩

end Scan

end FormulaSheet.Yaml
