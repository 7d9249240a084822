import Multiview.Alignment
import Multiview.Frame.Fourcc

/-!
What is known about a frame: its geometry, the data written with a decoded picture, and the
identifier under which an allocator handed it out.
-/

namespace Multiview

structure Resolution where
  width : UInt32
  height : UInt32
  deriving DecidableEq, Repr

/-- Both dimensions rounded up to a multiple of `alignment`. -/
def Resolution.round (r : Resolution) (alignment : UInt32) : Outcome Resolution := do
  let width ← alignUp (.unsigned 32) r.width.toNat alignment.toNat
  let height ← alignUp (.unsigned 32) r.height.toNat alignment.toNat
  return ⟨UInt32.ofNat width.toNat, UInt32.ofNat height.toNat⟩

/-- Identifier of a frame, meaningful to the allocator that issued it. -/
structure MemId where
  value : Nat
  deriving DecidableEq, Repr

def MemId.describe (mid : MemId) : String := "MemId(0x" ++ Text.hex mid.value ++ ")"

/-- Geometry and identity of a frame. -/
structure FrameInfo where
  fourcc : Fourcc := ⟨0⟩
  width : UInt32 := 0
  height : UInt32 := 0
  cropX : UInt32 := 0
  cropY : UInt32 := 0
  cropWidth : UInt32 := 0
  cropHeight : UInt32 := 0
  /-- Sample aspect ratio, zero when unknown. -/
  aspectWidth : UInt16 := 0
  aspectHeight : UInt16 := 0
  rateNumerator : UInt32 := 0
  rateDenominator : UInt32 := 0
  /-- Zero for the base view. -/
  viewId : UInt16 := 0
  deriving DecidableEq, Repr

/-- The part of a frame description that is to be replaced. -/
structure FrameInfo.Patch where
  fourcc : Option Fourcc := none
  width : Option UInt32 := none
  height : Option UInt32 := none
  cropX : Option UInt32 := none
  cropY : Option UInt32 := none
  cropWidth : Option UInt32 := none
  cropHeight : Option UInt32 := none
  aspectWidth : Option UInt16 := none
  aspectHeight : Option UInt16 := none
  rateNumerator : Option UInt32 := none
  rateDenominator : Option UInt32 := none
  viewId : Option UInt16 := none
  deriving DecidableEq, Repr

def FrameInfo.patch (info : FrameInfo) (p : FrameInfo.Patch) : FrameInfo where
  fourcc := p.fourcc.getD info.fourcc
  width := p.width.getD info.width
  height := p.height.getD info.height
  cropX := p.cropX.getD info.cropX
  cropY := p.cropY.getD info.cropY
  cropWidth := p.cropWidth.getD info.cropWidth
  cropHeight := p.cropHeight.getD info.cropHeight
  aspectWidth := p.aspectWidth.getD info.aspectWidth
  aspectHeight := p.aspectHeight.getD info.aspectHeight
  rateNumerator := p.rateNumerator.getD info.rateNumerator
  rateDenominator := p.rateDenominator.getD info.rateDenominator
  viewId := p.viewId.getD info.viewId

/-- Data that comes with a decoded picture. -/
structure FrameMeta where
  frameOrder : UInt32 := 0
  timestamp : Option UInt64 := none
  flags : UInt16 := 0
  deriving DecidableEq, Repr

/-- Set on a timestamp that was copied from the stream. -/
def FrameMeta.fromStream : UInt16 := 1

/-- The timestamp, if the stream itself carried it. -/
def FrameMeta.streamTimestamp (m : FrameMeta) : Option UInt64 :=
  if m.flags &&& fromStream = fromStream then m.timestamp else none

end Multiview
