import FormulaSheet.Data.Yaml.Character
import FormulaSheet.Data.Yaml.Error
/-!
Quoted scalars. In single quotes a quote is written twice; double quotes know escapes, among them
code points in hexadecimal. What is wrong first in the text is reported, so a number that is no code
point counts even where the closing quote is missing. Surrogates, which are code points of no
character, are left out, but for the pairs that stand for one.
-/

namespace FormulaSheet.Yaml

/-- Further breaks in a quoted scalar, up to the first text. A document mark is an error. -/
def quotedBreaks : Nat → List Char → Except DocumentError (List Char × List Char)
  | 0, _ => .error .malformed
  | n + 1, cs =>
    if atDocumentMark cs then .error .malformed
    else
      match cs.dropWhile isGap with
      | c :: rest =>
        if isBreak c then (quotedBreaks n rest).map fun (bs, r) => (breakChar c :: bs, r)
        else .ok ([], c :: rest)
      | [] => .ok ([], [])

def simpleEscape? : Char → Option Char
  | '0' => some '\x00'
  | 'a' => some '\x07'
  | 'b' => some '\x08'
  | 't' => some '\t'
  | '\t' => some '\t'
  | 'n' => some '\n'
  | 'v' => some '\x0B'
  | 'f' => some '\x0C'
  | 'r' => some '\r'
  | 'e' => some '\x1B'
  | ' ' => some ' '
  | '"' => some '"'
  | '\\' => some '\\'
  | '/' => some '/'
  | 'N' => some '\u0085'
  | '_' => some '\u00A0'
  | 'L' => some '\u2028'
  | 'P' => some '\u2029'
  | _ => none

/-- How many hexadecimal digits an escape has. -/
def escapeWidth? : Char → Option Nat
  | 'x' => some 2
  | 'u' => some 4
  | 'U' => some 8
  | _ => none

def hexValue? (c : Char) : Option Nat :=
  if '0' ≤ c ∧ c ≤ '9' then some (c.toNat - '0'.toNat)
  else if 'a' ≤ c ∧ c ≤ 'f' then some (c.toNat - 'a'.toNat + 10)
  else if 'A' ≤ c ∧ c ≤ 'F' then some (c.toNat - 'A'.toNat + 10)
  else none

/-- A code point written with the given count of hexadecimal digits. -/
def codePoint (width : Nat) (cs : List Char) : Except DocumentError Nat :=
  let ds := (cs.take width).map hexValue?
  if ds.length = width ∧ ds.all Option.isSome then
    let n := ds.foldl (fun n d => n * 16 + d.getD 0) 0
    if 0x7FFFFFFF < n then .error .codeTooLarge
    else if 0x10FFFF < n then .error .noCodePoint
    else .ok n
  else .error .malformed

/-- The character of an escaped code point, and what follows the escape. A surrogate is no
character; two that belong together are read as the character that they stand for. -/
def escapedChar (width : Nat) (cs : List Char) : Except DocumentError (Char × List Char) := do
  let n ← codePoint width cs
  if n < 0xD800 ∨ 0xE000 ≤ n then return (Char.ofNat n, cs.drop width)
  match cs.drop width with
  | '\\' :: 'u' :: rest =>
    let low := (codePoint 4 rest).toOption.getD 0
    if n < 0xDC00 ∧ 0xDC00 ≤ low ∧ low < 0xE000 then
      return (Char.ofNat (0x10000 + (n - 0xD800) * 0x400 + (low - 0xDC00)), rest.drop 4)
    else throw .unsupported
  | _ => throw .unsupported

/-- The text of a quoted scalar up to its closing quote, and what follows. -/
def quotedText (double : Bool) : Nat → List Char →
    Except DocumentError (List Char × List Char)
  | 0, _ => .error .malformed
  | n + 1, cs =>
    match cs with
    | [] => .error .malformed
    | c :: rest =>
      if isGap c || isBreak c then
        let gap := cs.takeWhile isGap
        match cs.dropWhile isGap with
        | [] => .error .malformed
        | b :: more =>
          if isBreak b then do
            let (breaks, more) ← quotedBreaks (more.length + 1) more
            let (text, r) ← quotedText double n more
            return (folded b breaks ++ text, r)
          else (quotedText double n (b :: more)).map fun (text, r) => (gap ++ text, r)
      else if double then
        if c == '"' then .ok ([], rest)
        else if c == '\\' then
          match rest with
          | [] => .error .malformed
          | e :: more =>
            match simpleEscape? e, escapeWidth? e with
            | some x, _ => (quotedText double n more).map fun (text, r) => (x :: text, r)
            | none, some width => do
              let (x, more) ← escapedChar width more
              let (text, r) ← quotedText double n more
              return (x :: text, r)
            | none, none =>
              if isBreak e then do
                let (breaks, more) ← quotedBreaks (more.length + 1) more
                let (text, r) ← quotedText double n more
                return (breaks ++ text, r)
              else .error .malformed
        else (quotedText double n rest).map fun (text, r) => (c :: text, r)
      else if c == '\'' then
        match rest with
        | '\'' :: more => (quotedText double n more).map fun (text, r) => ('\'' :: text, r)
        | rest => .ok ([], rest)
      else (quotedText double n rest).map fun (text, r) => (c :: text, r)

end FormulaSheet.Yaml
