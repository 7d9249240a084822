import Multiview.Memory.Host
import Multiview.Memory.Texture

/-!
Frames in either kind of memory. Requests for video memory go to textures if there are any, all
others to host memory. The store remembers where each identifier came from, so that later calls
reach the allocator that issued it.
-/

namespace Multiview

structure MixedFrames where
  textures : Option TextureAllocator := none
  host : Option HostAllocator := none
  /-- Kind of memory of each identifier in use. -/
  origins : Std.TreeMap Nat MemoryKind := {}

namespace MixedFrames

/-- Sets up a new host allocator, and a new texture allocator if there are settings for one. -/
def init (settings : Option TextureSettings) (s : MixedFrames) : MixedFrames :=
  match settings with
  | none => { s with host := some ⟨{}, [], []⟩ }
  | some settings =>
    { s with
      textures := some ⟨{ settings := some settings }, [], []⟩
      host := some ⟨{}, [], []⟩ }

/-- Identifiers of unknown origin are taken for those of host memory. -/
def origin (mid : MemId) (s : MixedFrames) : MemoryKind := s.origins[mid.value]?.getD .system

def remember (mids : List MemId) (kind : MemoryKind) (s : MixedFrames) : MixedFrames :=
  { s with origins := mids.foldl (fun m mid => m.insert mid.value kind) s.origins }

def forget (mids : List MemId) (s : MixedFrames) : MixedFrames :=
  { s with origins := mids.foldl (fun m mid => m.erase mid.value) s.origins }

def allocate (r : Request) (s : MixedFrames) (p : Platform) :
    Outcome (Except AllocError (List MemId) × MixedFrames × Platform) := do
  match if r.memType.intersects .videoMemory then s.textures else none with
  | some textures =>
    let (answer, textures, p) ← textures.allocate r p
    let s := { s with textures := some textures }
    match answer with
    | .error e => return (.error e, s, p)
    | .ok response => return (.ok response.mids, s.remember response.mids .video, p)
  | none =>
    match s.host with
    | none => return (.error .notInitialized, s, p)
    | some host =>
      let (answer, host, p) ← host.allocate r p
      let s := { s with host := some host }
      match answer with
      | .error e => return (.error e, s, p)
      | .ok response => return (.ok response.mids, s.remember response.mids .system, p)

/-- The first identifier tells which allocator the frames go back to. -/
def release (mids : List MemId) (s : MixedFrames) (p : Platform) :
    Except AllocError Unit × MixedFrames × Platform :=
  match mids with
  | [] => (.error .unknownResponse, s, p)
  | first :: _ =>
    match s.origin first with
    | .video =>
      match s.textures with
      | none => (.error .notInitialized, s, p)
      | some textures =>
        match textures.free ⟨0, mids⟩ p with
        | (.error e, textures, p) => (.error e, { s with textures := some textures }, p)
        | (.ok _, textures, p) => (.ok (), { s with textures := some textures }.forget mids, p)
    | .system =>
      match s.host with
      | none => (.error .notInitialized, s, p)
      | some host =>
        match host.free ⟨0, mids⟩ p with
        | (.error e, host, p) => (.error e, { s with host := some host }, p)
        | (.ok _, host, p) => (.ok (), { s with host := some host }.forget mids, p)

/-- Asks the allocator that issued `mid`. -/
def ask {α : Type} (mid : MemId) (s : MixedFrames)
    (inTextures : TextureAllocator → Except AllocError α)
    (inHost : HostAllocator → Except AllocError α) : Except AllocError α :=
  match s.origin mid with
  | .video => match s.textures with
    | none => .error .notInitialized
    | some textures => inTextures textures
  | .system => match s.host with
    | none => .error .notInitialized
    | some host => inHost host

def fill (mid : MemId) (start stop : Nat) (value : UInt8) (s : MixedFrames) :
    Outcome MixedFrames :=
  match s.origin mid, s.host with
  | .system, some host => do
    let host ← host.fill mid start stop value
    return { s with host := some host }
  | _, _ => .ok s

def closeTextures (s : MixedFrames) (p : Platform) :
    Except AllocError Unit × MixedFrames × Platform :=
  match s.textures with
  | none => (.ok (), s, p)
  | some textures =>
    let (answer, textures, p) := textures.close p
    (answer, { s with textures := some textures }, p)

def closeHost (s : MixedFrames) (p : Platform) : Except AllocError Unit × MixedFrames × Platform :=
  match s.host with
  | none => (.ok (), s, p)
  | some host =>
    let (answer, host, p) := host.close p
    (answer, { s with host := some host }, p)

/-- Closes the texture allocator, then the host allocator unless the first one failed. -/
def close (s : MixedFrames) (p : Platform) : Except AllocError Unit × MixedFrames × Platform :=
  match s.closeTextures p with
  | (.error e, s, p) => (.error e, s, p)
  | (.ok _, s, p) =>
    match s.closeHost p with
    | (.error e, s, p) => (.error e, s, p)
    | (.ok _, s, p) => (.ok (), { s with origins := {} }, p)

end MixedFrames

instance : FrameStore MixedFrames where
  accepts r := r.memType.contains .fromDecode
  allocate r s p := s.allocate r p
  release mids s p := s.release mids p
  view mid s := s.ask mid (·.view mid) (·.view mid)
  endView mid s := s.ask mid (·.endView mid) (·.endView mid)
  handle mid s := s.ask mid (·.handle mid) (·.handle mid)
  fill mid start stop value s := s.fill mid start stop value
  close s p := s.close p

abbrev MixedAllocator := Allocator MixedFrames

/-- An allocator that has not been set up yet. -/
def MixedAllocator.empty : MixedAllocator := ⟨{}, [], []⟩

def MixedAllocator.init (settings : Option TextureSettings) (a : MixedAllocator) :
    MixedAllocator :=
  { a with store := a.store.init settings }

end Multiview
