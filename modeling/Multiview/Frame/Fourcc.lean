import Multiview.Bytes
import Multiview.Text

/-!
Four-character codes of pixel formats and streams.
-/

namespace Multiview

/-- A four-character code. Its first character is the least significant byte. -/
structure Fourcc where
  code : UInt32
  deriving DecidableEq, Repr

namespace Fourcc

def ofBytes (a b c d : UInt8) : Fourcc :=
  ⟨a.toUInt32 ||| (b.toUInt32 <<< 8) ||| (c.toUInt32 <<< 16) ||| (d.toUInt32 <<< 24)⟩

def bytes (f : Fourcc) : Bytes :=
  [f.code.toUInt8, (f.code >>> 8).toUInt8, (f.code >>> 16).toUInt8, (f.code >>> 24).toUInt8]

/-- The four characters; a dot stands for a byte that is neither graphic nor a space. -/
def text (f : Fourcc) : String :=
  String.ofList (f.bytes.map fun b =>
    if 0x20 ≤ b.toNat ∧ b.toNat ≤ 0x7e then Char.ofNat b.toNat else '.')

/-- Characters and number together. -/
def describe (f : Fourcc) : String :=
  "Fourcc(" ++ f.text ++ ", 0x" ++ Text.hexPadded 8 f.code.toNat ++ ")"

/-- Two planes: luma, then both chroma components interleaved at half resolution. -/
def nv12 : Fourcc := ofBytes 0x4e 0x56 0x31 0x32

/-- Streams whose extradata carries the configuration of the second view in an atom. -/
def mvc1 : Fourcc := ofBytes 0x4d 0x56 0x43 0x31

/-- Streams of units delimited by start codes. -/
def amvc : Fourcc := ofBytes 0x41 0x4d 0x56 0x43

end Fourcc

end Multiview
