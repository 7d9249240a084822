import Multiview.Bytes

/-!
The one-byte header of a NAL unit and the unit types it can name.
-/

namespace Multiview

/-- Unit types. Reserved and unspecified codes are all `unknown`. -/
inductive NalType where
  | unknown
  | slice
  | slicePartA
  | slicePartB
  | slicePartC
  | sliceIdr
  | sei
  | sps
  | pps
  | delimiter
  | endOfSequence
  | endOfStream
  | filler
  | spsExtension
  | prefixUnit
  | subsetSps
  | depthSps
  | sliceAuxiliary
  | sliceExtension
  | sliceDepth
  deriving DecidableEq, Repr

namespace NalType

def code : NalType → Nat
  | unknown => 0
  | slice => 1
  | slicePartA => 2
  | slicePartB => 3
  | slicePartC => 4
  | sliceIdr => 5
  | sei => 6
  | sps => 7
  | pps => 8
  | delimiter => 9
  | endOfSequence => 10
  | endOfStream => 11
  | filler => 12
  | spsExtension => 13
  | prefixUnit => 14
  | subsetSps => 15
  | depthSps => 16
  | sliceAuxiliary => 19
  | sliceExtension => 20
  | sliceDepth => 21

def all : List NalType :=
  [unknown, slice, slicePartA, slicePartB, slicePartC, sliceIdr, sei, sps, pps, delimiter,
    endOfSequence, endOfStream, filler, spsExtension, prefixUnit, subsetSps, depthSps,
    sliceAuxiliary, sliceExtension, sliceDepth]

def name : NalType → String
  | unknown => "Unknown"
  | slice => "Slice"
  | slicePartA => "SliceDpa"
  | slicePartB => "SliceDpb"
  | slicePartC => "SliceDpc"
  | sliceIdr => "SliceIdr"
  | sei => "Sei"
  | sps => "Sps"
  | pps => "Pps"
  | delimiter => "AuDelimiter"
  | endOfSequence => "SeqEnd"
  | endOfStream => "StreamEnd"
  | filler => "FillerData"
  | spsExtension => "SpsExt"
  | prefixUnit => "PrefixUnit"
  | subsetSps => "SubsetSps"
  | depthSps => "DepthSps"
  | sliceAuxiliary => "SliceAux"
  | sliceExtension => "SliceExt"
  | sliceDepth => "SliceDepth"

/-- The type with a given code, if there is one. -/
def ofCode? (n : Nat) : Option NalType := all.find? (·.code == n)

/-- Coded slice data of the base view. -/
def isBaseSlice : NalType → Bool
  | slice | slicePartA | slicePartB | slicePartC | sliceIdr => true
  | _ => false

/-- Coded slice data of another view. -/
def isExtensionSlice : NalType → Bool
  | sliceExtension | sliceDepth => true
  | _ => false

def isSlice (t : NalType) : Bool := t.isBaseSlice || t.isExtensionSlice

theorem ofCode?_code (t : NalType) : ofCode? t.code = some t := by
  cases t <;> rfl

end NalType

structure NalHeader where
  forbiddenBit : Bool
  refIdc : UInt8
  type : NalType
  deriving DecidableEq, Repr

/-- One bit that should be clear, two bits of reference importance and five of type. -/
def NalHeader.parse (byte : UInt8) : NalHeader where
  forbiddenBit := (byte >>> 7) &&& 1 != 0
  refIdc := (byte >>> 5) &&& 3
  type := (NalType.ofCode? (byte &&& 0x1f).toNat).getD .unknown

end Multiview
