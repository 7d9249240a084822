import Multiview.Fault
import Multiview.Frame.Info

/-!
Parameters that the decoder and the engine agree on, and the stream data handed over.
-/

namespace Multiview

/-- Who carries out the decoding. -/
inductive Implementation where
  | software
  | hardware
  deriving DecidableEq, Repr

def Implementation.name : Implementation → String
  | software => "Software"
  | hardware => "Hardware"

/-- Where frames live: in buffers of the host or in textures of the graphics device. -/
inductive MemoryKind where
  | system
  | video
  deriving DecidableEq, Repr

namespace MemoryKind

def name : MemoryKind → String
  | system => "system"
  | video => "video"

/-- Name of the format of frames in this memory. -/
def pixelFormat : MemoryKind → String
  | system => "nv12"
  | video => "texture_nv12"

end MemoryKind

structure ViewDependency where
  viewId : UInt16 := 0
  anchorRefs : List UInt16 := []
  nonAnchorRefs : List UInt16 := []
  deriving DecidableEq, Repr

structure OperationPoint where
  temporalId : UInt16 := 0
  level : UInt16 := 0
  targetViews : List UInt16 := []
  deriving DecidableEq, Repr

/-- The views of a stream. The engine reports the counts first; the tables must have room for them
before it can fill them in. -/
structure SequenceDesc where
  viewCount : UInt16 := 0
  viewIdCount : UInt16 := 0
  pointCount : UInt16 := 0
  views : List ViewDependency := []
  viewIds : List UInt16 := []
  points : List OperationPoint := []
  deriving DecidableEq, Repr

/-- Exactly `n` elements: the list cut off, or filled up with `filler`. -/
def resized {α : Type} (filler : α) (n : Nat) (xs : List α) : List α :=
  xs.take n ++ List.replicate (n - xs.length) filler

theorem length_resized {α : Type} (filler : α) (n : Nat) (xs : List α) :
    (resized filler n xs).length = n := by
  simp [resized]
  omega

namespace SequenceDesc

/-- The tables can hold as many entries as the counts say. -/
def hasRoom (d : SequenceDesc) : Bool :=
  d.viewCount.toNat ≤ d.views.length && d.viewIdCount.toNat ≤ d.viewIds.length &&
    d.pointCount.toNat ≤ d.points.length

/-- Gives the tables the sizes that the counts ask for. -/
def allocate (d : SequenceDesc) : SequenceDesc :=
  { d with
    views := resized {} d.viewCount.toNat d.views
    viewIds := resized 0 d.viewIdCount.toNat d.viewIds
    points := resized {} d.pointCount.toNat d.points }

theorem hasRoom_allocate (d : SequenceDesc) : d.allocate.hasRoom = true := by
  simp [hasRoom, allocate, length_resized]

end SequenceDesc

structure VideoParams where
  info : FrameInfo := {}
  memory : MemoryKind := .system
  /-- Operations that may be in flight at once. -/
  asyncDepth : UInt16 := 0
  sequence : SequenceDesc := {}
  deriving DecidableEq, Repr

/-- A piece of the stream and how much of it was consumed. -/
structure Bitstream where
  data : Bytes
  offset : Nat := 0
  timestamp : Option UInt64 := none
  decodeTimestamp : Option UInt64 := none
  deriving DecidableEq, Repr

namespace Bitstream

def remaining (b : Bitstream) : Bytes := b.data.drop b.offset

/-- Moves past `n` more bytes, at most to the end. -/
def consume (b : Bitstream) (n : Nat) : Outcome Bitstream := do
  let offset ← below wordLimit (b.offset + n)
  return { b with offset := min offset b.data.length }

end Bitstream

/-- Stands for an operation in flight until its completion has been waited for. -/
structure SyncPoint where
  value : Nat
  deriving DecidableEq, Repr

/-- Counts the references of the engine to a surface. The count is a word: locking wraps around,
unlocking stops at zero. -/
structure SurfaceLock where
  count : UInt16 := 0
  deriving DecidableEq, Repr

namespace SurfaceLock

def lock (l : SurfaceLock) : SurfaceLock := ⟨l.count + 1⟩

def unlock (l : SurfaceLock) : SurfaceLock := if l.count = 0 then l else ⟨l.count - 1⟩

def isLocked (l : SurfaceLock) : Bool := l.count != 0

end SurfaceLock

/-- Place of a lock in the table of locks. -/
abbrev LockId := Nat

/-- A surface to decode into. -/
structure WorkSurface where
  mid : MemId
  info : FrameInfo
  lock : LockId
  deriving DecidableEq, Repr

/-- A decoded picture of one view, complete once `sync` has been waited for. -/
structure DecodedSurface where
  mid : MemId
  info : FrameInfo
  frameMeta : FrameMeta
  sync : SyncPoint
  deriving DecidableEq, Repr

end Multiview
