import Multiview.Memory.Allocator

/-!
Frames in textures. Every allocation is a resource that owns one texture with a slice for each
frame, or one texture for each frame. Identifiers count up from 1, and entry `n` of the table of
owners is the resource of identifier `n + 1`; once no resource is allocated both start again.
-/

namespace Multiview

structure TextureSettings where
  /-- All frames of a request are slices of a single texture. -/
  singleTexture : Bool
  deriving DecidableEq, Repr

structure TextureResource where
  mids : List MemId
  textures : List TextureHandle
  allocated : Bool
  deriving DecidableEq, Repr

/-- Frames are dealt out to the textures in turn. -/
def TextureResource.handle (r : TextureResource) (mid : MemId) : Option NativeHandle := do
  let first ← r.mids.head?
  if mid.value < first.value then
    none
  let index := mid.value - first.value
  if r.mids.length ≤ index then
    none
  let texture ← r.textures[index % r.textures.length]?
  return ⟨texture, index / r.textures.length⟩

structure TextureFrames where
  settings : Option TextureSettings := none
  resources : List TextureResource := []
  owners : Array Nat := #[]

namespace TextureFrames

/-- Makes the store ready for use. -/
def init (settings : Option TextureSettings) (s : TextureFrames) :
    Except AllocError Unit × TextureFrames :=
  match settings with
  | none => (.error .notInitialized, s)
  | some settings => (.ok (), { s with settings := some settings })

def accepts (r : Request) : Bool :=
  r.memType.contains .fromDecode && r.memType.intersects .videoMemory

/-- Value of the latest identifier. -/
def lastId (s : TextureFrames) : Nat :=
  ((s.resources.getLast?.bind fun r => r.mids.getLast?).map (·.value)).getD 0

def describe (single : Bool) (r : Request) : TextureDesc where
  width := r.info.width
  height := r.info.height
  format := .nv12
  slices := if single then max r.suggested.toNat 1 else 1
  bindDecoder := r.memType.contains .decoderTarget
  bindRenderTarget := r.memType.contains .processorTarget

def allocate (r : Request) (s : TextureFrames) (p : Platform) :
    Except AllocError (List MemId) × TextureFrames × Platform :=
  match s.settings with
  | none => (.error .notInitialized, s, p)
  | some settings =>
    if r.info.fourcc ≠ .nv12 then
      (.error .unsupported, s, p)
    else
      let count := r.suggested.toNat
      let desc := describe settings.singleTexture r
      match p.createTextures desc (count / desc.slices) [] with
      | (none, p) => (.error .memory, s, p)
      | (some textures, p) =>
        let mids := (List.range' (s.lastId + 1) count).map MemId.mk
        (.ok mids, { s with
          resources := s.resources ++ [⟨mids, textures, true⟩]
          owners := s.owners ++ Array.replicate count s.resources.length }, p)

/-- The allocated resource that owns an identifier. Entries of the table are places of resources. -/
def owner? (s : TextureFrames) (mid : MemId) : Option (Nat × TextureResource) := do
  if mid.value = 0 then
    none
  let index ← s.owners[mid.value - 1]?
  let resource ← s.resources[index]?
  if resource.allocated then some (index, resource) else none

/-- Forgets all resources once none of them is allocated. -/
def tidy (s : TextureFrames) : TextureFrames :=
  if s.resources.any (·.allocated) then s else { s with resources := [], owners := #[] }

/-- The first identifier tells which resource is released. -/
def release (mids : List MemId) (s : TextureFrames) (p : Platform) :
    Except AllocError Unit × TextureFrames × Platform :=
  match mids with
  | [] => (.error .unknownResponse, s, p)
  | first :: _ =>
    match s.owner? first with
    | none => (.error (.invalidHandle first), s, p)
    | some (index, resource) =>
      let resources := s.resources.set index { resource with textures := [], allocated := false }
      (.ok (), tidy { s with resources := resources }, p.releaseTextures resource.textures)

def handle (mid : MemId) (s : TextureFrames) : Except AllocError NativeHandle :=
  match (s.owner? mid).bind fun (_, resource) => resource.handle mid with
  | none => .error (.invalidHandle mid)
  | some handle => .ok handle

/-- Releases the textures of every allocated resource. -/
def close (s : TextureFrames) (p : Platform) : TextureFrames × Platform :=
  let textures := (s.resources.filter (·.allocated)).flatMap (·.textures)
  ({ s with resources := [], owners := #[] }, p.releaseTextures textures)

end TextureFrames

instance : FrameStore TextureFrames where
  accepts := TextureFrames.accepts
  allocate r s p := .ok (s.allocate r p)
  release mids s p := s.release mids p
  view _ _ := .error .unsupported
  endView _ _ := .error .unsupported
  handle mid s := s.handle mid
  fill _ _ _ _ s := .ok s
  close s p :=
    let (s, p) := s.close p
    (.ok (), s, p)

abbrev TextureAllocator := Allocator TextureFrames

end Multiview
