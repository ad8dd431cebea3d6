import FormulaSheet.Data.Raw
import FormulaSheet.Decimal.Numeral
/-!
Reading JSON text. Beside JSON proper the names of the numbers that are not finite are read as
numbers, and of several entries with one key the last counts. Numbers without point and exponent
are whole numbers of any size, and values are nested as deep as they come: limits that a runtime may
set to digits and to nesting are left out. A unit of a surrogate pair that stands alone is read as
the code point that it is; only in a value with characters, as `read?` gives it, the replacement
character stands for it.
-/

namespace FormulaSheet.Json

open Text

def isSpace (c : Char) : Bool := c == ' ' || c == '\t' || c == '\n' || c == '\r'

def skipSpace (cs : List Char) : List Char := cs.dropWhile isSpace

def hexDigit? (c : Char) : Option Nat :=
  if '0' ≤ c ∧ c ≤ '9' then some (c.toNat - '0'.toNat)
  else if 'a' ≤ c ∧ c ≤ 'f' then some (c.toNat - 'a'.toNat + 10)
  else if 'A' ≤ c ∧ c ≤ 'F' then some (c.toNat - 'A'.toNat + 10)
  else none

/-- The sixteen-bit unit of four hexadecimal digits. -/
def unit? (a b c d : Char) : Option Nat :=
  match hexDigit? a, hexDigit? b, hexDigit? c, hexDigit? d with
  | some a, some b, some c, some d => some (((a * 16 + b) * 16 + c) * 16 + d)
  | _, _, _, _ => none

/-- The code point of a high and a low unit. -/
def pairPoint? (high low : Nat) : Option CodePoint :=
  if 0xD800 ≤ high ∧ high < 0xDC00 ∧ 0xDC00 ≤ low ∧ low < 0xE000 then
    some (.ofNat (0x10000 + (high - 0xD800) * 0x400 + (low - 0xDC00)))
  else none

def escape? : Char → Option Char
  | '"' => some '"'
  | '\\' => some '\\'
  | '/' => some '/'
  | 'b' => some '\x08'
  | 'f' => some '\x0C'
  | 'n' => some '\n'
  | 'r' => some '\r'
  | 't' => some '\t'
  | _ => none

/-- The code points up to the closing quote, and what follows it. -/
def readString : List Char → Option (RawText × List Char)
  | [] => none
  | '"' :: rest => some ([], rest)
  | '\\' :: 'u' :: a :: b :: c :: d :: rest =>
    match unit? a b c d with
    | none => none
    | some high =>
      match rest with
      | '\\' :: 'u' :: e :: f :: g :: h :: more =>
        match (unit? e f g h).bind (pairPoint? high) with
        | some x => (readString more).map fun (xs, r) => (x :: xs, r)
        | none =>
          (readString ('\\' :: 'u' :: e :: f :: g :: h :: more)).map fun (xs, r) =>
            (.ofNat high :: xs, r)
      | rest => (readString rest).map fun (xs, r) => (.ofNat high :: xs, r)
  | '\\' :: c :: rest =>
    match escape? c with
    | none => none
    | some x => (readString rest).map fun (xs, r) => (.ofChar x :: xs, r)
  | c :: rest =>
    if c.toNat < 0x20 ∨ c = '\\' then none
    else (readString rest).map fun (xs, r) => (.ofChar c :: xs, r)
termination_by cs => cs.length

/-- The digits of a whole number: a zero, or digits that do not begin with one. -/
def readWhole? (cs : List Char) : Option (List Char × List Char) :=
  match cs with
  | '0' :: rest => some (['0'], rest)
  | cs =>
    let ds := cs.takeWhile isAsciiDigit
    if ds.isEmpty then none else some (ds, cs.dropWhile isAsciiDigit)

/-- A point and at least one digit. -/
def readFraction? : List Char → Option (List Char × List Char)
  | '.' :: rest =>
    let ds := rest.takeWhile isAsciiDigit
    if ds.isEmpty then none else some (ds, rest.dropWhile isAsciiDigit)
  | _ => none

/-- An exponent mark, an optional sign, and at least one digit. -/
def readExponent? : List Char → Option (Int × List Char)
  | c :: rest =>
    if c == 'e' || c == 'E' then
      let (sign, rest) := Decimal.scanSign rest
      let ds := rest.takeWhile isAsciiDigit
      if ds.isEmpty then none
      else
        let n : Int := digitsValue ds
        some (if sign = some '-' then -n else n, rest.dropWhile isAsciiDigit)
    else none
  | [] => none

/-- A number with the given sign. -/
def readUnsigned (negative : Bool) (cs : List Char) : Option (RawValue × List Char) :=
  (readWhole? cs).map fun (ds, rest) =>
    let (fraction, rest) := ((readFraction? rest).map fun (f, r) => (some f, r)).getD (none, rest)
    let (exponent, rest) := ((readExponent? rest).map fun (e, r) => (some e, r)).getD (none, rest)
    match fraction, exponent with
    | none, none =>
      let n : Int := digitsValue ds
      (.whole (if negative then -n else n), rest)
    | fraction, exponent =>
      let fraction := fraction.getD []
      let x := Decimal.Numeral.nearestFloat (digitsValue (ds ++ fraction))
        (exponent.getD 0 - fraction.length)
      (.number (if negative then -x else x), rest)

def readNumber : List Char → Option (RawValue × List Char)
  | '-' :: rest => readUnsigned true rest
  | cs => readUnsigned false cs

mutual

/-- A value at the front of a text. The count bounds the steps still to be taken. A value, an item
and an entry each take one, and no text needs more than twice as many steps as it has characters. -/
def readValue : Nat → List Char → Option (RawValue × List Char)
  | 0, _ => none
  | n + 1, cs =>
    match cs with
    | '"' :: rest => (readString rest).map fun (s, r) => (.text s, r)
    | '[' :: rest =>
      match skipSpace rest with
      | ']' :: r => some (.list [], r)
      | r => (readItems n r).map fun (items, r) => (.list items, r)
    | '{' :: rest =>
      match skipSpace rest with
      | '}' :: r => some (.table [], r)
      | r => (readEntries n r).map fun (entries, r) => (.table (RawValue.ofEntries entries), r)
    | 'n' :: 'u' :: 'l' :: 'l' :: rest => some (.null, rest)
    | 't' :: 'r' :: 'u' :: 'e' :: rest => some (.flag true, rest)
    | 'f' :: 'a' :: 'l' :: 's' :: 'e' :: rest => some (.flag false, rest)
    | 'N' :: 'a' :: 'N' :: rest => some (.number (0.0 / 0.0), rest)
    | 'I' :: 'n' :: 'f' :: 'i' :: 'n' :: 'i' :: 't' :: 'y' :: rest =>
      some (.number (1.0 / 0.0), rest)
    | '-' :: 'I' :: 'n' :: 'f' :: 'i' :: 'n' :: 'i' :: 't' :: 'y' :: rest =>
      some (.number (-1.0 / 0.0), rest)
    | cs => readNumber cs

/-- Items up to the closing bracket. -/
def readItems : Nat → List Char → Option (List RawValue × List Char)
  | 0, _ => none
  | n + 1, cs =>
    match readValue n cs with
    | none => none
    | some (v, rest) =>
      match skipSpace rest with
      | ']' :: r => some ([v], r)
      | ',' :: r => (readItems n (skipSpace r)).map fun (vs, r) => (v :: vs, r)
      | _ => none

/-- Entries up to the closing brace. -/
def readEntries : Nat → List Char → Option (List (RawText × RawValue) × List Char)
  | 0, _ => none
  | n + 1, cs =>
    match cs with
    | '"' :: rest =>
      match readString rest with
      | none => none
      | some (k, rest) =>
        match skipSpace rest with
        | ':' :: rest =>
          match readValue n (skipSpace rest) with
          | none => none
          | some (v, rest) =>
            match skipSpace rest with
            | '}' :: r => some ([(k, v)], r)
            | ',' :: r => (readEntries n (skipSpace r)).map fun (es, r) => ((k, v) :: es, r)
            | _ => none
        | _ => none
    | _ => none

end

theorem readValue_text (n : Nat) (cs : List Char) :
    readValue (n + 1) ('"' :: cs) =
      (readString cs).map fun (s, r) => (.text s, r) := rfl

theorem readValue_list (n : Nat) (cs : List Char) :
    readValue (n + 1) ('[' :: cs) =
      match skipSpace cs with
      | ']' :: r => some (.list [], r)
      | r => (readItems n r).map fun (items, r) => (.list items, r) := rfl

theorem readValue_table (n : Nat) (cs : List Char) :
    readValue (n + 1) ('{' :: cs) =
      match skipSpace cs with
      | '}' :: r => some (.table [], r)
      | r => (readEntries n r).map fun (entries, r) => (.table (RawValue.ofEntries entries), r) := rfl

/-- The value that a text spells out from its first to its last character, spaces aside. -/
def readRaw? (cs : List Char) : Option RawValue :=
  match readValue (2 * cs.length + 2) (skipSpace cs) with
  | some (v, rest) => if (skipSpace rest).isEmpty then some v else none
  | none => none

/-- The value with characters in place of code points. -/
def read? (cs : List Char) : Option Value := (readRaw? cs).map RawValue.toValue

end FormulaSheet.Json
