import Multiview.Memory.Mixed

/-!
What the engine shares with the pools of surfaces: the locks it holds surfaces with, and the
allocators whose frames it writes to. Both are tables that only grow.
-/

namespace Multiview

/-- Place of an allocator in the table of allocators. -/
abbrev AllocatorId := Nat

structure Resources where
  locks : List SurfaceLock := []
  allocators : List MixedAllocator := []

namespace Resources

def lock (id : LockId) (r : Resources) : Resources :=
  { r with locks := r.locks.modify id SurfaceLock.lock }

def unlock (id : LockId) (r : Resources) : Resources :=
  { r with locks := r.locks.modify id SurfaceLock.unlock }

def unlockAll (ids : List LockId) (r : Resources) : Resources :=
  ids.foldl (fun r id => r.unlock id) r

def isLocked (id : LockId) (r : Resources) : Bool := (r.locks.getD id {}).isLocked

/-- Adds `n` locks that nobody holds. -/
def addLocks (n : Nat) (r : Resources) : List LockId × Resources :=
  (List.range' r.locks.length n, { r with locks := r.locks ++ List.replicate n {} })

def addAllocator (a : MixedAllocator) (r : Resources) : AllocatorId × Resources :=
  (r.allocators.length, { r with allocators := r.allocators ++ [a] })

def setAllocator (id : AllocatorId) (a : MixedAllocator) (r : Resources) : Resources :=
  { r with allocators := r.allocators.set id a }

/-- Maps a frame, fills its luma plane and ends the mapping. A frame that cannot be mapped is left
alone. -/
def fillLuma (id : AllocatorId) (mid : MemId) (value : UInt8) (r : Resources) :
    Outcome Resources :=
  match r.allocators[id]? with
  | none => .ok r
  | some a =>
    match a.view mid with
    | .error _ => .ok r
    | .ok v => do
      let a ← a.fill mid v.offsets.1 (min v.offsets.2 v.buffer.size) value
      return r.setAllocator id a

end Resources

end Multiview
