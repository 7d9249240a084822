import Multiview.Frame.Info

/-!
The two planes of a frame in memory: where the visible part begins, how it is copied out line by
line, and the size at which it is shown.
-/

namespace Multiview

/-- Offsets of the first visible sample of both planes, for planes at `offsets` with lines of
`pitch` bytes. Chroma samples belong to two columns and two rows. -/
def cropOffsets (pitch : Nat) (offsets : Nat × Nat) (info : FrameInfo) : Outcome (Nat × Nat) := do
  let x := info.cropX.toNat
  let y := info.cropY.toNat
  let luma ← below wordLimit (offsets.1 + y * pitch + x)
  let chroma ← below wordLimit (offsets.2 + y / 2 * pitch + (x - x % 2))
  return (luma, chroma)

/-- Takes `rows` lines of `width` bytes out of `plane`, whose lines begin `stride` bytes apart. The
lines are held in reverse, added to those of `taken`. -/
def takeRows (width stride : Nat) : Nat → Bytes → List Bytes → Outcome (List Bytes)
  | 0, _, taken => .ok taken
  | rows + 1, plane, taken => do
    let row ← takeExactly width plane
    takeRows width stride rows (plane.drop stride) (row :: taken)

/-- The luma and chroma planes of a frame without their padding. The chroma plane has half the rows,
and both of its dimensions are rounded up to even ones. -/
def visibleSamples (src : Bytes) (width height : Nat) (strides offsets : Nat × Nat) :
    Outcome Bytes := do
  let luma ← dropExactly offsets.1 src
  let rows ← takeRows width strides.1 height luma []
  let chromaWidth ← below wordLimit (width + width % 2)
  let chromaHeight ← below wordLimit (height + height % 2)
  let chroma ← dropExactly offsets.2 src
  let rows ← takeRows chromaWidth strides.2 (chromaHeight / 2) chroma rows
  return rows.reverse.flatten

/-- Copies the visible samples of a frame over the beginning of `dst`. -/
def copyPlanes (src dst : Bytes) (width height : Nat) (strides offsets : Nat × Nat) :
    Outcome Bytes := do
  let samples ← visibleSamples src width height strides offsets
  let rest ← dropExactly samples.length dst
  return samples ++ rest

/-- Rounds to the nearest integer, halves away from zero, and down to a multiple of four. -/
private def toMultipleOfFour (x : Float) : UInt32 := x.round.toUInt32 &&& 0xfffffffc

/-- Size at which a frame is shown: its visible height and the width that goes with its aspect
ratio, scaled down to the coded width if that is smaller. -/
def displaySize (info : FrameInfo) : UInt32 × UInt32 :=
  if info.cropWidth = 0 ∨ info.cropHeight = 0 then
    (info.cropWidth, info.cropHeight)
  else
    let cropRatio := info.cropWidth.toFloat / info.cropHeight.toFloat
    let aspect :=
      if info.aspectWidth = 0 ∨ info.aspectHeight = 0 then cropRatio
      else info.aspectWidth.toFloat / info.aspectHeight.toFloat * cropRatio
    let width := toMultipleOfFour (info.cropHeight.toFloat * aspect)
    if info.width < width then
      (info.width, toMultipleOfFour (info.width.toFloat / aspect))
    else
      (width, info.cropHeight)

end Multiview
