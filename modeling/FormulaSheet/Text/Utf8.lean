import FormulaSheet.Text.Quoted
import FormulaSheet.Decimal.Digits
/-!
UTF-8, read in two ways. Decoding never fails: each maximal piece of a broken sequence becomes one
replacement character, and reading goes on behind it. Reading a text refuses the first such piece.
-/

namespace FormulaSheet.Text

/-- The shape of a sequence by its first byte: how many bytes follow, the range of the first of
them, and the bits that the first byte contributes. -/
structure Utf8Lead where
  count : Nat
  low : Nat
  high : Nat
  bits : Nat

/-- The lead of a multi-byte sequence. Ranges exclude overlong forms, surrogates, and code points
beyond the last one. -/
def utf8Lead? (b : Nat) : Option Utf8Lead :=
  if 0xC2 ≤ b ∧ b ≤ 0xDF then some ⟨1, 0x80, 0xBF, b - 0xC0⟩
  else if b = 0xE0 then some ⟨2, 0xA0, 0xBF, 0⟩
  else if b = 0xED then some ⟨2, 0x80, 0x9F, b - 0xE0⟩
  else if 0xE1 ≤ b ∧ b ≤ 0xEF then some ⟨2, 0x80, 0xBF, b - 0xE0⟩
  else if b = 0xF0 then some ⟨3, 0x90, 0xBF, 0⟩
  else if 0xF1 ≤ b ∧ b ≤ 0xF3 then some ⟨3, 0x80, 0xBF, b - 0xF0⟩
  else if b = 0xF4 then some ⟨3, 0x80, 0x8F, b - 0xF0⟩
  else none

/-- The rest of a sequence: its code point unless it breaks off, and the bytes behind what belongs
to it. -/
def utf8Tail (count low high bits : Nat) (bytes : List UInt8) : Option Nat × List UInt8 :=
  match count, bytes with
  | 0, bytes => (some bits, bytes)
  | _ + 1, [] => (none, [])
  | count + 1, b :: rest =>
    if low ≤ b.toNat ∧ b.toNat ≤ high then
      utf8Tail count 0x80 0xBF (bits * 0x40 + (b.toNat - 0x80)) rest
    else (none, b :: rest)

theorem length_utf8Tail_le (count low high bits : Nat) (bytes : List UInt8) :
    (utf8Tail count low high bits bytes).2.length ≤ bytes.length := by
  induction count generalizing low high bits bytes with
  | zero => simp [utf8Tail]
  | succ count ih =>
    cases bytes with
    | nil => simp [utf8Tail]
    | cons b rest =>
      rw [utf8Tail]
      split
      · exact Nat.le_succ_of_le (ih ..)
      · exact Nat.le_refl _

def replacement : Char := '\uFFFD'

def decodeUtf8 (bytes : List UInt8) : List Char :=
  match bytes with
  | [] => []
  | b :: rest =>
    if b.toNat < 0x80 then Char.ofNat b.toNat :: decodeUtf8 rest
    else
      match utf8Lead? b.toNat with
      | none => replacement :: decodeUtf8 rest
      | some lead =>
        let tail := utf8Tail lead.count lead.low lead.high lead.bits rest
        (tail.1.map Char.ofNat).getD replacement :: decodeUtf8 tail.2
termination_by bytes.length
decreasing_by
  · exact Nat.lt_succ_self _
  · exact Nat.lt_succ_self _
  · exact Nat.lt_succ_of_le (length_utf8Tail_le ..)

/-- What is wrong with bytes that are no text. -/
inductive Utf8Fault
  | start
  | continuation
  | ending
deriving DecidableEq, Repr

def Utf8Fault.name : Utf8Fault → String
  | start => "invalid start byte"
  | continuation => "invalid continuation byte"
  | ending => "unexpected end of data"

/-- The first piece of a broken sequence: its first byte, where it begins, and how many bytes it
has. -/
structure Utf8Error where
  byte : UInt8
  position : Nat
  count : Nat
  fault : Utf8Fault
deriving DecidableEq, Repr

def Utf8Error.message (e : Utf8Error) : String :=
  let place :=
    if e.count = 1 then
      "byte 0x" ++ String.ofList (hexadecimal 2 e.byte.toNat) ++ " in position " ++
        Decimal.natText e.position
    else
      "bytes in position " ++ Decimal.natText e.position ++ "-" ++
        Decimal.natText (e.position + e.count - 1)
  "'utf-8' codec can't decode " ++ place ++ ": " ++ e.fault.name

/-- The first fault of bytes that begin at a position. -/
def utf8Error? (position : Nat) (bytes : List UInt8) : Option Utf8Error :=
  match bytes with
  | [] => none
  | b :: rest =>
    if b.toNat < 0x80 then utf8Error? (position + 1) rest
    else
      match utf8Lead? b.toNat with
      | none => some ⟨b, position, 1, .start⟩
      | some lead =>
        let tail := utf8Tail lead.count lead.low lead.high lead.bits rest
        match tail.1 with
        | some _ => utf8Error? (position + 1 + lead.count) tail.2
        | none =>
          some ⟨b, position, 1 + (rest.length - tail.2.length),
            if tail.2.isEmpty then .ending else .continuation⟩
termination_by bytes.length
decreasing_by
  · exact Nat.lt_succ_self _
  · exact Nat.lt_succ_of_le (length_utf8Tail_le ..)

/-- The text that bytes are, if they are one. -/
def readUtf8 (bytes : List UInt8) : Except Utf8Error (List Char) :=
  match utf8Error? 0 bytes with
  | none => .ok (decodeUtf8 bytes)
  | some e => .error e

def encodeUtf8 (s : String) : List UInt8 := s.toUTF8.data.toList

end FormulaSheet.Text
