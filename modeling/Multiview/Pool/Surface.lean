import Multiview.Engine.Resources

/-!
A pool of decode surfaces. A surface is free while the engine holds no lock on it and it is neither
queued nor being rendered. Surfaces stay in their pool for good; released ones are free again.
-/

namespace Multiview

structure Surface where
  mid : MemId
  info : FrameInfo
  frameMeta : FrameMeta := {}
  lock : LockId
  /-- Returned by the engine and waiting for its other view, or part of a picture. -/
  queued : Bool := false
  /-- Being displayed. -/
  render : Bool := false
  /-- Operation that the surface waits for. -/
  sync : Option SyncPoint := none
  deriving DecidableEq, Repr

/-- A surface as it was when the engine returned it, and its place in the pool. -/
structure SurfaceInfo where
  index : Nat
  mid : MemId
  info : FrameInfo
  frameMeta : FrameMeta
  deriving DecidableEq, Repr

/-- The frames behind a pool and the allocator they go back to. -/
structure PoolFrames where
  allocator : AllocatorId
  response : Response
  memory : MemoryKind
  deriving DecidableEq, Repr

structure Pool where
  surfaces : List Surface := []
  frames : Option PoolFrames := none
  /-- Whoever set the pool up still uses it. -/
  owned : Bool := true
  deriving DecidableEq, Repr

/-- Access to a frame: mapped into host memory or named on the device. -/
inductive ViewHandle where
  | mapped (view : FrameView)
  | native (handle : NativeHandle)
  deriving DecidableEq, Repr

namespace Surface

def isFree (r : Resources) (s : Surface) : Bool :=
  !r.isLocked s.lock && !s.queued && !s.render

/-- Returned by the engine with a decoded picture. -/
def queue (d : DecodedSurface) (s : Surface) : Surface :=
  { s with
    queued := true, render := false, sync := some d.sync, info := d.info, frameMeta := d.frameMeta }

def display (s : Surface) : Surface := { s with queued := false, render := true }

/-- Out of all use. The lock is left to the engine. -/
def release (s : Surface) : Surface := { s with queued := false, render := false, sync := none }

/-- Without the operation that it waited for. -/
def settle (s : Surface) : Surface := { s with sync := none }

end Surface

namespace Pool

/-- Where the frames of the pool live. -/
def memory (p : Pool) : MemoryKind := (p.frames.map (·.memory)).getD .system

def freeCount (r : Resources) (p : Pool) : Nat := p.surfaces.countP (·.isFree r)

/-- The first free surface, for the engine to decode into. -/
def freeSurface? (r : Resources) (p : Pool) : Option (Nat × WorkSurface) := do
  let index ← p.surfaces.findIdx? (·.isFree r)
  let s ← p.surfaces[index]?
  return (index, ⟨s.mid, s.info, s.lock⟩)

/-- Index of the surface that a frame backs. -/
def find? (mid : MemId) (p : Pool) : Option Nat := p.surfaces.findIdx? (·.mid == mid)

def modify (index : Nat) (f : Surface → Surface) (p : Pool) : Pool :=
  { p with surfaces := p.surfaces.modify index f }

/-- Notes that the engine returned a surface. -/
def markQueued (d : DecodedSurface) (p : Pool) : Option (SurfaceInfo × Pool) := do
  let index ← p.find? d.mid
  return (⟨index, d.mid, d.info, d.frameMeta⟩, p.modify index (·.queue d))

def markRender (index : Nat) (p : Pool) : Pool := p.modify index (·.display)

/-- Takes a surface out of all use. -/
def release (index : Nat) (p : Pool) : Pool := p.modify index (·.release)

/-- Detaches the operation that a surface waits for. -/
def takeSync (index : Nat) (p : Pool) : Option SyncPoint × Pool :=
  (p.surfaces[index]?.bind (·.sync), p.modify index (·.settle))

def isQueued (index : Nat) (p : Pool) : Bool := (p.surfaces[index]?.map (·.queued)).getD false

def isRender (index : Nat) (p : Pool) : Bool := (p.surfaces[index]?.map (·.render)).getD false

end Pool

end Multiview
