import Multiview.Engine.Params
import Multiview.Engine.Status
import Multiview.Memory.Buffer

/-!
The graphics device that creates textures, the memory of the host, and the journal of the calls made
to the device and to the engine. How device and memory answer is left open: they may refuse at any
time.
-/

namespace Multiview

structure TextureHandle where
  value : Nat
  deriving DecidableEq, Repr

/-- Identity of a frame on the device: a texture and a slice of it. -/
structure NativeHandle where
  texture : TextureHandle
  slice : Nat
  deriving DecidableEq, Repr

/-- What a texture is created for. Its slices have room for one frame each. -/
structure TextureDesc where
  width : UInt32
  height : UInt32
  format : Fourcc
  slices : Nat
  bindDecoder : Bool
  bindRenderTarget : Bool
  deriving DecidableEq, Repr

inductive DeviceCall where
  | createTexture (desc : TextureDesc) (answer : Option TextureHandle)
  | releaseTexture (texture : TextureHandle)
  deriving DecidableEq, Repr

/-- A device and the textures alive on it, oldest first. -/
structure TextureDevice where
  /-- The answer to a request, given the textures alive, how many were created so far and how many
  requests there were before. -/
  answer : List TextureHandle → Nat → Nat → TextureDesc → Option TextureHandle
  live : List TextureHandle := []
  created : Nat := 0
  requests : Nat := 0

namespace TextureDevice

/-- A device that numbers its textures from 100 and keeps at most `capacity` of them. -/
def counting (capacity : Option Nat) : TextureDevice where
  answer live created _ _ :=
    if capacity.any (· ≤ live.length) then none else some ⟨100 + created⟩

/-- The answer to a request and the device afterwards. -/
def create (d : TextureDevice) (desc : TextureDesc) : Option TextureHandle × TextureDevice :=
  match d.answer d.live d.created d.requests desc with
  | none => (none, { d with requests := d.requests + 1 })
  | some texture =>
    (some texture, { d with
      live := d.live ++ [texture], created := d.created + 1, requests := d.requests + 1 })

def release (d : TextureDevice) (texture : TextureHandle) : TextureDevice :=
  { d with live := d.live.filter (· ≠ texture) }

end TextureDevice

/-- A call to the engine with its answer. -/
inductive EngineCall where
  | useAllocator (status : EngineStatus)
  | readHeader (input : Bytes) (status : EngineStatus) (sequence : SequenceDesc)
  | query (asked : MemoryKind) (asyncDepth : UInt16) (settled : MemoryKind) (status : EngineStatus)
  | requireFrames (memory : MemoryKind) (answer : Except EngineStatus Request)
  | init (params : VideoParams) (status : EngineStatus)
  /-- `input` is the stream before the call, or nothing when the engine is drained. -/
  | decode (input : Option Bitstream) (work : MemId) (status : EngineStatus) (offset : Option Nat)
      (output : Option DecodedSurface)
  | sync (point : SyncPoint) (waitMs : UInt32) (status : EngineStatus)
  | reset (viewCount : UInt16) (status : EngineStatus)
  | closeDecoder (status : EngineStatus)
  | close

inductive Event where
  | device (call : DeviceCall)
  | engine (call : EngineCall)

/-- The device, if there is one, the journal, latest event first, and the memory of the host. -/
structure Platform where
  device : Option TextureDevice := none
  journal : List Event := []
  memory : HostMemory := .ample

namespace Platform

def record (p : Platform) (e : Event) : Platform := { p with journal := e :: p.journal }

/-- Without a device no texture can be created. -/
def createTexture (p : Platform) (desc : TextureDesc) : Option TextureHandle × Platform :=
  match p.device with
  | none => (none, p)
  | some d =>
    let (answer, d) := d.create desc
    let p := { p with device := some d }
    (answer, p.record (.device (.createTexture desc answer)))

/-- The same platform after `n` more blocks of host memory were asked for. -/
def asked (n : Nat) (p : Platform) : Platform := { p with memory := p.memory.asked n }

/-- Asks for a block of host memory. -/
def allocateBuffer (size : Nat) (p : Platform) : Except AllocError HostBuffer × Platform :=
  (HostBuffer.allocate size p.memory, p.asked 1)

def releaseTexture (p : Platform) (texture : TextureHandle) : Platform :=
  let p := { p with device := p.device.map (TextureDevice.release · texture) }
  p.record (.device (.releaseTexture texture))

def releaseTextures (p : Platform) (textures : List TextureHandle) : Platform :=
  textures.foldl releaseTexture p

/-- Creates `n` textures, or none at all: when one cannot be created the earlier ones are released
again. `made` holds these, latest first. -/
def createTextures (desc : TextureDesc) :
    Nat → List TextureHandle → Platform → Option (List TextureHandle) × Platform
  | 0, made, p => (some made.reverse, p)
  | n + 1, made, p =>
    match p.createTexture desc with
    | (none, p) => (none, p.releaseTextures made.reverse)
    | (some texture, p) => createTextures desc n (texture :: made) p

end Platform

end Multiview
