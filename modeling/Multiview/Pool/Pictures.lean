import Multiview.Pool.Surface

/-!
All pools and the pictures made of their surfaces. A picture joins the base and extra view of one
frame order and is counted by its references; when the last one is dropped its surfaces go back to
the pool. A pool lives as long as its owner uses it or one of its pictures is alive; then its frames
are freed.
-/

namespace Multiview

abbrev PoolId := Nat

abbrev PictureId := Nat

structure Picture where
  base : SurfaceInfo
  extra : SurfaceInfo
  pool : PoolId
  references : Nat
  deriving DecidableEq, Repr

namespace Picture

def isAlive (p : Picture) : Bool := 0 < p.references

def frameOrder (p : Picture) : UInt32 := p.base.frameMeta.frameOrder

end Picture

/-- Pools and pictures by their number, with the memory behind them. -/
structure Pools where
  platform : Platform := {}
  resources : Resources := {}
  pools : List Pool := []
  pictures : List Picture := []

namespace Pools

/-- A new pool without surfaces. -/
def create (s : Pools) : PoolId × Pools := (s.pools.length, { s with pools := s.pools ++ [{}] })

/-- The pool with a given number; one that does not exist has no surfaces. -/
def pool (id : PoolId) (s : Pools) : Pool := s.pools.getD id {}

def modifyPool (id : PoolId) (f : Pool → Pool) (s : Pools) : Pools :=
  { s with pools := s.pools.modify id f }

/-- Adds one surface for each frame. -/
def addSurfaces (id : PoolId) (info : FrameInfo) (mids : List MemId) (s : Pools) : Pools :=
  let (locks, resources) := s.resources.addLocks mids.length
  let surfaces := List.zipWith (fun mid lock => { mid := mid, info := info, lock := lock }) mids locks
  { s with resources := resources }.modifyPool id fun p =>
    { p with surfaces := p.surfaces ++ surfaces }

/-- Hands frames over to a pool. A pool that has frames keeps them. -/
def setFrames (id : PoolId) (frames : PoolFrames) (s : Pools) : Pools :=
  s.modifyPool id fun p => { p with frames := p.frames.or (some frames) }

/-- Allocates frames with a new allocator and hands them over to a pool, with a surface of
description `info` for each. -/
def supply (id : PoolId) (info : FrameInfo) (memory : MemoryKind)
    (settings : Option TextureSettings) (request : Request) (s : Pools) :
    Outcome (Except AllocError (AllocatorId × Response) × Pools) := do
  let (answer, a, platform) ← (MixedAllocator.empty.init settings).allocate request s.platform
  let s := { s with platform := platform }
  match answer with
  | .error e => return (.error e, s)
  | .ok response =>
    let (allocator, resources) := s.resources.addAllocator a
    let s := { s with resources := resources }.addSurfaces id info response.mids
    return (.ok (allocator, response), s.setFrames id ⟨allocator, response, memory⟩)

def freeSurface? (id : PoolId) (s : Pools) : Option (Nat × WorkSurface) :=
  (s.pool id).freeSurface? s.resources

def freeCount (id : PoolId) (s : Pools) : Nat := (s.pool id).freeCount s.resources

def markQueued (id : PoolId) (d : DecodedSurface) (s : Pools) : Option (SurfaceInfo × Pools) := do
  let (info, p) ← (s.pool id).markQueued d
  return (info, s.modifyPool id fun _ => p)

def markRender (id : PoolId) (index : Nat) (s : Pools) : Pools :=
  s.modifyPool id (·.markRender index)

def release (id : PoolId) (index : Nat) (s : Pools) : Pools := s.modifyPool id (·.release index)

def takeSync (id : PoolId) (index : Nat) (s : Pools) : Option SyncPoint × Pools :=
  let (point, p) := (s.pool id).takeSync index
  (point, s.modifyPool id fun _ => p)

/-- Gives access to a frame of the pool. A mapping holds nothing that would have to be given back. -/
def mapView (id : PoolId) (mid : MemId) (s : Pools) : Option ViewHandle := do
  let frames ← (s.pool id).frames
  let a ← s.resources.allocators[frames.allocator]?
  match frames.memory with
  | .system => (a.view mid).toOption.map .mapped
  | .video => (a.handle mid).toOption.map .native

/-- The owner still uses the pool, or a picture of it is alive. -/
def isUsed (id : PoolId) (s : Pools) : Bool :=
  (s.pool id).owned || s.pictures.any fun p => p.isAlive && p.pool == id

/-- Frees the frames of a pool and closes their allocator. -/
def freeFrames (id : PoolId) (s : Pools) : Pools :=
  match (s.pool id).frames with
  | none => s
  | some frames =>
    let s := s.modifyPool id fun p => { p with frames := none }
    match s.resources.allocators[frames.allocator]? with
    | none => s
    | some a =>
      let (_, a, platform) := a.free frames.response s.platform
      let (_, a, platform) := a.close platform
      { s with platform := platform, resources := s.resources.setAllocator frames.allocator a }

/-- Frees the frames of a pool that is not used any more. -/
def settle (id : PoolId) (s : Pools) : Pools := if s.isUsed id then s else s.freeFrames id

/-- The owner lets go of a pool. -/
def disown (id : PoolId) (s : Pools) : Pools :=
  (s.modifyPool id fun p => { p with owned := false }).settle id

/-- Joins two queued surfaces in a picture with one reference. The views must be those of one stereo
picture. -/
def join (id : PoolId) (base extra : SurfaceInfo) (s : Pools) : Outcome (PictureId × Pools) :=
  if base.info.viewId = 0 ∧ extra.info.viewId ≠ 0 ∧
      base.frameMeta.frameOrder = extra.frameMeta.frameOrder then
    .ok (s.pictures.length, { s with pictures := s.pictures ++ [⟨base, extra, id, 1⟩] })
  else
    .error .mismatch

/-- Takes one more reference to a picture. -/
def share (id : PictureId) (s : Pools) : Pools :=
  { s with pictures := s.pictures.modify id fun p => { p with references := p.references + 1 } }

/-- Drops a reference to a picture. The last one gives its surfaces back to the pool. -/
def drop (id : PictureId) (s : Pools) : Pools :=
  match s.pictures[id]? with
  | none => s
  | some picture =>
    match picture.references with
    | 0 => s
    | n + 1 =>
      let s := { s with pictures := s.pictures.set id { picture with references := n } }
      if n = 0 then
        ((s.release picture.pool picture.base.index).release picture.pool
          picture.extra.index).settle picture.pool
      else
        s

def dropAll (ids : List PictureId) (s : Pools) : Pools := ids.foldl (fun s id => s.drop id) s

/-- Marks both surfaces of a picture as being displayed. -/
def markPicture (picture : Picture) (s : Pools) : Pools :=
  (s.markRender picture.pool picture.base.index).markRender picture.pool picture.extra.index

/-- Access to both views of a picture. -/
def mapPicture (picture : Picture) (s : Pools) : Option ViewHandle × Option ViewHandle :=
  (s.mapView picture.pool picture.base.mid, s.mapView picture.pool picture.extra.mid)

end Pools

end Multiview
