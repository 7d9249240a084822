import Std.Data.TreeMap
import Multiview.Memory.Allocator

/-!
Frames in host memory. Identifiers count up from `hostIdBase`, above all identifiers of textures,
and are never used again.
-/

namespace Multiview

structure HostFrame where
  layout : HostLayout
  buffer : HostBuffer
  deriving DecidableEq, Repr

/-- Frames by the value of their identifier. -/
structure HostFrames where
  frames : Std.TreeMap Nat HostFrame := {}
  /-- Frames allocated so far. -/
  issued : Nat := 0

/-- Smallest value of an identifier in host memory. -/
def hostIdBase : Nat := UInt64.size / 2

namespace HostFrames

def frameCount (s : HostFrames) : Nat := s.frames.size

def accepts (r : Request) : Bool :=
  r.memType.contains .fromDecode && r.memType.contains .systemMemory

/-- The identifier of the next frame. -/
def nextId (s : HostFrames) : MemId := ⟨hostIdBase + s.issued + 1⟩

def add (f : HostFrame) (s : HostFrames) : HostFrames :=
  ⟨s.frames.insert s.nextId.value f, s.issued + 1⟩

def release (mids : List MemId) (s : HostFrames) : HostFrames :=
  { s with frames := mids.foldl (fun m mid => m.erase mid.value) s.frames }

/-- Takes `n` frames, or none at all: when there is no block for one of them the earlier ones are
released again. Their identifiers are not taken back. `made` holds these, latest first. -/
def takeFrames (layout : HostLayout) (size : Nat) : Nat → List MemId → HostFrames → Platform →
    Except AllocError (List MemId) × HostFrames × Platform
  | 0, made, s, p => (.ok made.reverse, s, p)
  | n + 1, made, s, p =>
    match p.allocateBuffer size with
    | (.error e, p) => (.error e, s.release made.reverse, p)
    | (.ok buffer, p) => takeFrames layout size n (s.nextId :: made) (s.add ⟨layout, buffer⟩) p

def allocate (r : Request) (s : HostFrames) (p : Platform) :
    Outcome (Except AllocError (List MemId) × HostFrames × Platform) := do
  if r.info.fourcc ≠ .nv12 then
    return (.error .unsupported, s, p)
  let layout := HostLayout.ofInfo r.info
  let size ← below wordLimit layout.size
  return takeFrames layout size r.suggested.toNat [] s p

def view (mid : MemId) (s : HostFrames) : Except AllocError FrameView :=
  match s.frames[mid.value]? with
  | none => .error (.invalidHandle mid)
  | some f => .ok ⟨f.layout.pitch, (0, f.layout.chromaOffset), f.buffer⟩

/-- Filling a frame that does not exist changes nothing. -/
def fill (mid : MemId) (start stop : Nat) (value : UInt8) (s : HostFrames) :
    Outcome HostFrames :=
  match s.frames[mid.value]? with
  | none => .ok s
  | some f => do
    let buffer ← f.buffer.fill start stop value
    return { s with frames := s.frames.insert mid.value { f with buffer := buffer } }

end HostFrames

instance : FrameStore HostFrames where
  accepts := HostFrames.accepts
  allocate r s p := s.allocate r p
  release mids s p := (.ok (), s.release mids, p)
  view mid s := s.view mid
  endView _ _ := .ok ()
  handle _ _ := .error .unsupported
  fill mid start stop value s := s.fill mid start stop value
  close s p := (.ok (), s, p)

abbrev HostAllocator := Allocator HostFrames

end Multiview
