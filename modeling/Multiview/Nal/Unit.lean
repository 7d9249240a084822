import Multiview.Fault
import Multiview.Nal.Header

/-!
NAL units found in a buffer. Units are delimited either by start codes, each reaching to the next
one, or by length fields in front of them. A start code is the bytes 0, 0, 1 with at least one byte
behind them; zero bytes at the end of a unit belong to the framing. Malformed framing ends the scan.

`startCodeUnits` lists the units between start codes. `UnitScanner` visits the units of either
framing one at a time.
-/

namespace Multiview

/-- A unit and its place in the buffer it was found in. -/
structure NalUnit where
  header : NalHeader
  /-- Offset of the start code or length field. -/
  start : Nat
  /-- Offset of the header byte. -/
  pos : Nat
  /-- Header and payload without any framing. -/
  data : Bytes
  deriving DecidableEq, Repr

namespace NalUnit

/-- Offset behind the last byte. -/
def stop (u : NalUnit) : Nat := u.pos + u.data.length

def isSlice (u : NalUnit) : Bool := u.header.type.isSlice

def isExtensionSlice (u : NalUnit) : Bool := u.header.type.isExtensionSlice

end NalUnit

/-- A start code with a byte behind it comes first. -/
def beginsUnit : Bytes → Bool
  | a :: b :: c :: _ :: _ => a == 0 && b == 0 && c == 1
  | _ => false

/-- A place in a buffer: the offset reached and the bytes that follow it. -/
structure Cursor where
  offset : Nat
  rest : Bytes
  deriving DecidableEq, Repr

/-- Moves on to the next start code, or to the end. -/
def seekStartCode (offset : Nat) : Bytes → Cursor
  | [] => ⟨offset, []⟩
  | b :: rest => if beginsUnit (b :: rest) then ⟨offset, b :: rest⟩ else seekStartCode (offset + 1) rest

/-- Drops zero bytes at the end, but never the first byte. -/
def trimZeros : Bytes → Bytes
  | [] => []
  | b :: rest => b :: (rest.reverse.dropWhile (· == 0)).reverse

/-- The unit whose start code is at the cursor, and the cursor at the next start code. -/
def startCodeUnit? (c : Cursor) : Option (NalUnit × Cursor) :=
  match c.rest.drop 3 with
  | [] => none
  | head :: tail =>
    let pos := c.offset + 3
    let next := seekStartCode pos (head :: tail)
    some (⟨NalHeader.parse head, c.offset, pos,
      trimZeros ((head :: tail).take (next.offset - pos))⟩, next)

/-- The units of a buffer between start codes. -/
def startCodeUnits (data : Bytes) : List NalUnit :=
  collect startCodeUnit? (data.length + 1) (seekStartCode 0 data) []

/-- How units are told apart. -/
inductive Framing where
  | startCodes
  /-- Each unit follows its length, written in `size` bytes. -/
  | lengthField (size : Nat)
  deriving DecidableEq, Repr

namespace Framing

/-- Start codes have no length field. -/
def ofLengthSize : Nat → Framing
  | 0 => .startCodes
  | size + 1 => .lengthField (size + 1)

def lengthSize : Framing → Nat
  | startCodes => 0
  | lengthField size => size

end Framing

/-- The unit whose length field is at the cursor. A length of zero, or one that reaches past the
end, ends the scan. The length is a word of at most eight bytes. -/
def lengthFieldUnit? (size : Nat) (c : Cursor) : Outcome (Option (NalUnit × Cursor)) := do
  if c.rest.isEmpty then
    return none
  let pos ← below wordLimit (c.offset + size)
  match c.rest.drop size with
  | [] => return none
  | head :: tail =>
    if 8 < size then
      throw .outOfRange
    let length := Bytes.toNumber (c.rest.take size)
    let data := (head :: tail).take length
    if length = 0 ∨ data.length < length then
      return none
    return some (⟨NalHeader.parse head, c.offset, pos, data⟩, ⟨pos + length, (head :: tail).drop length⟩)

/-- Visits the units of a buffer in order. -/
structure UnitScanner where
  framing : Framing
  cursor : Cursor
  deriving DecidableEq, Repr

namespace UnitScanner

/-- A buffer with start codes need not begin with one. -/
def «over» (framing : Framing) (data : Bytes) : UnitScanner where
  framing := framing
  cursor := match framing with
    | .startCodes => seekStartCode 0 data
    | .lengthField _ => ⟨0, data⟩

/-- The next unit. After the last one the scanner stays at the end. -/
def next (s : UnitScanner) : Outcome (Option NalUnit × UnitScanner) := do
  let found ← match s.framing with
    | .startCodes => pure (startCodeUnit? s.cursor)
    | .lengthField size => lengthFieldUnit? size s.cursor
  match found with
  | none => return (none, { s with cursor := ⟨s.cursor.offset + s.cursor.rest.length, []⟩ })
  | some (u, cursor) => return (some u, { s with cursor := cursor })

/-- The next unit, as a step that ends with the last one. -/
def step (s : UnitScanner) : Outcome (Option (NalUnit × UnitScanner)) := do
  match ← s.next with
  | (none, _) => return none
  | (some u, s) => return some (u, s)

end UnitScanner

/-- All units of a buffer. -/
def scanUnits (framing : Framing) (data : Bytes) : Outcome (List NalUnit) :=
  tryCollect UnitScanner.step (data.length + 1) (.«over» framing data) []

end Multiview
