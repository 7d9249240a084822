import Multiview.Frame.Planes
import Multiview.Memory.Request

/-!
Buffers in the memory of the host and the layout of a frame in one. When that memory runs out is left
open: any block may be refused. A buffer is zero at first and only ever filled range by range, so it is
described by its size and the fills that are still visible.
-/

namespace Multiview

/-- The memory of the host. -/
structure HostMemory where
  /-- Whether a block can be had, given how many were asked for before and how many bytes it has. -/
  grants : Nat → Nat → Bool
  /-- Blocks asked for so far. -/
  requests : Nat := 0

namespace HostMemory

/-- Memory that never runs out, as far as a block fits into addresses of 47 bits. -/
def ample : HostMemory where
  grants _ bytes := bytes < 1 <<< 47

/-- The same memory after `n` more blocks were asked for. -/
def asked (n : Nat) (m : HostMemory) : HostMemory := { m with requests := m.requests + n }

end HostMemory

/-- The bytes from `start` up to `stop` set to `value`. -/
structure Fill where
  start : Nat
  stop : Nat
  value : UInt8
  deriving DecidableEq, Repr

/-- A block of host memory. Fills are held with the latest first. -/
structure HostBuffer where
  size : Nat
  fills : List Fill
  deriving DecidableEq, Repr

namespace HostBuffer

/-- The size of the largest block: with the alignment of frames added it is still a signed word. -/
def largest : Nat := 1 <<< 63 - 32

/-- A block of zeros, of at least one byte. Blocks beyond the largest one are always refused. -/
def allocate (size : Nat) (m : HostMemory := .ample) : Except AllocError HostBuffer :=
  if max size 1 ≤ largest ∧ m.grants m.requests (max size 1) then .ok ⟨max size 1, []⟩
  else .error .memory

def byteAt (b : HostBuffer) (i : Nat) : UInt8 :=
  match b.fills.find? fun f => f.start ≤ i && i < f.stop with
  | some f => f.value
  | none => 0

/-- The first `n` bytes, in front of `rest`. -/
def firstBytes (b : HostBuffer) : Nat → Bytes → Bytes
  | 0, rest => rest
  | n + 1, rest => firstBytes b n (b.byteAt n :: rest)

def toBytes (b : HostBuffer) : Bytes := b.firstBytes b.size []

theorem firstBytes_eq (b : HostBuffer) (n : Nat) (rest : Bytes) :
    b.firstBytes n rest = (List.range n).map b.byteAt ++ rest := by
  induction n generalizing rest with
  | zero => rfl
  | succ n ih => rw [firstBytes, ih, List.range_succ, List.map_append, List.append_assoc]; rfl

theorem toBytes_eq (b : HostBuffer) : b.toBytes = (List.range b.size).map b.byteAt := by
  rw [toBytes, firstBytes_eq, List.append_nil]

/-- Sets the bytes from `start` up to `stop`. Earlier fills that lie within are forgotten. -/
def fill (b : HostBuffer) (start stop : Nat) (value : UInt8) : Outcome HostBuffer :=
  if start ≤ stop ∧ stop ≤ b.size then
    .ok { b with
      fills := ⟨start, stop, value⟩ ::
        b.fills.filter fun f => !(start ≤ f.start && f.stop ≤ stop) }
  else
    .error .outOfRange

end HostBuffer

/-- Lines of `pitch` bytes: `rows` of luma, then half as many of interleaved chroma. -/
structure HostLayout where
  pitch : Nat
  rows : Nat
  deriving DecidableEq, Repr

namespace HostLayout

/-- Frame dimensions in host memory are multiples of this. -/
def alignment : Nat := 32

def ofInfo (info : FrameInfo) : HostLayout :=
  ⟨roundUp info.width.toNat alignment, roundUp info.height.toNat alignment⟩

def chromaOffset (l : HostLayout) : Nat := l.pitch * l.rows

def size (l : HostLayout) : Nat := l.pitch * l.rows + 2 * (l.pitch / 2) * (l.rows / 2)

end HostLayout

/-- A frame in host memory as seen by whoever maps it. -/
structure FrameView where
  pitch : Nat
  /-- Where the luma and chroma planes begin. -/
  offsets : Nat × Nat
  buffer : HostBuffer
  deriving DecidableEq, Repr

/-- The visible part of a mapped frame, without any padding. -/
def FrameView.cropped (v : FrameView) (info : FrameInfo) : Outcome Bytes := do
  let offsets ← cropOffsets v.pitch v.offsets info
  visibleSamples v.buffer.toBytes info.cropWidth.toNat info.cropHeight.toNat (v.pitch, v.pitch)
    offsets

end Multiview
