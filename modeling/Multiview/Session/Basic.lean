import Multiview.Engine.Interface
import Multiview.Nal.Record
import Multiview.Pool.Pictures
import Multiview.Session.Error
import Multiview.Session.Pairing

/-!
A decoding session: the engine, the stream being decoded, the surfaces on their way from the engine
to the client, and the pools they belong to. All calls to the engine are made here and go into the
journal.
-/

namespace Multiview

/-- Where a session stands. -/
inductive Phase where
  /-- Not opened, or the last attempt to open failed. -/
  | idle
  /-- Waiting for a sequence header. -/
  | opened
  /-- The engine is set up and a pool allocated. -/
  | ready
  /-- A fatal error occurred; the session has to be opened again. -/
  | failed
  | closed
  deriving DecidableEq, Repr

def Phase.name : Phase → String
  | idle => "Uninitialized"
  | opened => "Opened"
  | ready => "DecodeReady"
  | failed => "Error"
  | closed => "Closed"

/-- Settings of a session. Those for times are left out, as time is: `busyTooLong` stands for what they
decide. So is the room that the buffer has at first, on which nothing depends. -/
structure SessionConfig where
  asyncDepth : UInt16 := 8
  /-- Resets before a busy device is given up. -/
  maxBusyResets : Nat := 1
  syncTimeoutMs : UInt32 := 1000
  maxSyncAttempts : Nat := 16
  /-- All textures of a pool are slices of one. -/
  singleTexture : Bool := true
  /-- Whether the device has been busy for too long when it answers so for the n-th time. -/
  busyTooLong : Nat → Bool := fun _ => true
  /-- Answers of a device that is busy for good which a call sits out without a reset. A call that gets
  more of them counts as endless. -/
  busyWaits : Nat := 0

/-- Flags set by the client. -/
structure Control where
  bits : UInt32
  deriving DecidableEq, Repr

namespace Control

/-- End of the stream: everything that is still queued is to come out. -/
def drain : Control := ⟨1⟩

def isDraining (c : Control) : Bool := c.bits &&& drain.bits == drain.bits

def union (a b : Control) : Control := ⟨a.bits ||| b.bits⟩

end Control

structure Session (σ : Type) where
  engine : σ
  config : SessionConfig := {}
  phase : Phase := .idle
  /-- The engine holds a decoder. It outlasts `ready` when the stream changes. -/
  engineReady : Bool := false
  params : VideoParams := {}
  /-- Width of the length fields, for streams that have them. -/
  lengthSize : Option LengthSize := none
  /-- Input with start codes that the engine has not taken yet. -/
  buffer : Bytes := []
  /-- The pool that surfaces are taken from. -/
  current : Option PoolId := none
  queues : ViewQueues := {}
  /-- Pictures waiting for the client, one reference each. -/
  pictures : List PictureId := []
  stereoMode : StereoMode := .baseLeft
  control : Control := ⟨0⟩
  /-- Pictures that the client keeps for itself. -/
  clientSurfaces : UInt16 := 0
  /-- Where the frames of the last pool live. -/
  memory : MemoryKind := .system
  pools : Pools := {}
  /-- Answers of a busy device so far. -/
  busyAnswers : Nat := 0

namespace Session

variable {σ : Type}

/-- Name of the decoder that a session runs. -/
def decoderName : String := "h264-mvc"

def pixelFormat (s : Session σ) : String := s.memory.pixelFormat

def record (call : EngineCall) (s : Session σ) : Session σ :=
  { s with pools := { s.pools with platform := s.pools.platform.record (.engine call) } }

def withResources (r : Resources) (s : Session σ) : Session σ :=
  { s with pools := { s.pools with resources := r } }

variable [DecodeEngine σ]

def isHardware (s : Session σ) : Bool := DecodeEngine.implementation s.engine == .hardware

def askUseAllocator (id : AllocatorId) (s : Session σ) : EngineStatus × Session σ :=
  let (status, engine) := DecodeEngine.useAllocator id s.engine
  (status, { s with engine := engine }.record (.useAllocator status))

/-- Lets the engine read the header of the accumulated input. -/
def askReadHeader (s : Session σ) : Outcome (EngineStatus × Session σ) := do
  let (status, params, engine) ← DecodeEngine.readHeader s.buffer s.params s.engine
  return (status, { s with engine := engine, params := params }.record
    (.readHeader s.buffer status params.sequence))

def askQuery (s : Session σ) : EngineStatus × Session σ :=
  let (status, params, engine) := DecodeEngine.query s.params s.engine
  (status, { s with engine := engine, params := params }.record
    (.query s.params.memory s.params.asyncDepth params.memory status))

def askRequireFrames (s : Session σ) : Except EngineStatus Request × Session σ :=
  let (answer, engine) := DecodeEngine.requireFrames s.params s.engine
  (answer, { s with engine := engine }.record (.requireFrames s.params.memory answer))

def askInit (s : Session σ) : EngineStatus × Session σ :=
  let (status, engine) := DecodeEngine.init s.params s.engine
  (status, { s with engine := engine }.record (.init s.params status))

def askDecode (input : Option Bitstream) (work : WorkSurface) (s : Session σ) :
    Outcome (EngineStatus × Option DecodedSurface × Option Bitstream × Session σ) := do
  let a ← DecodeEngine.decode input work s.engine s.pools.resources
  let s := { s with engine := a.engine }.withResources a.resources
  return (a.status, a.output, a.stream, s.record
    (.decode input work.mid a.status (a.stream.map (·.offset)) a.output))

def askSync (point : SyncPoint) (s : Session σ) : EngineStatus × Session σ :=
  let (status, engine, r) :=
    DecodeEngine.sync point s.config.syncTimeoutMs s.engine s.pools.resources
  (status, ({ s with engine := engine }.withResources r).record
    (.sync point s.config.syncTimeoutMs status))

def askReset (s : Session σ) : EngineStatus × Session σ :=
  let (status, engine, r) := DecodeEngine.reset s.params s.engine s.pools.resources
  (status, ({ s with engine := engine }.withResources r).record
    (.reset s.params.sequence.viewCount status))

def askCloseDecoder (s : Session σ) : EngineStatus × Session σ :=
  let (status, engine, r) := DecodeEngine.closeDecoder s.engine s.pools.resources
  (status, ({ s with engine := engine }.withResources r).record (.closeDecoder status))

/-- Resets the engine. A failure is of no consequence. -/
def resetEngine (s : Session σ) : Session σ := s.askReset.2

/-- Lets the engine put its decoder away, if it has one. A failure is of no consequence. -/
def closeEngineDecoder (s : Session σ) : Session σ :=
  if s.engineReady then { s.askCloseDecoder.2 with engineReady := false } else s

def askClose (s : Session σ) : Session σ :=
  { s with engine := DecodeEngine.close s.engine }.record .close

/-- Returns all surfaces of the view queues to the pool. -/
def releaseQueued (s : Session σ) : Session σ :=
  match s.current with
  | none => { s with queues := {} }
  | some pool =>
    let pools := s.queues.toList.foldl (fun p surface => p.release pool surface.index) s.pools
    { s with queues := {}, pools := pools }

def dropPictures (s : Session σ) : Session σ :=
  { s with pictures := [], pools := s.pools.dropAll s.pictures }

/-- Lets go of the current pool. Pictures that are still out keep it alive. -/
def releasePool (s : Session σ) : Session σ :=
  let s := s.dropPictures.releaseQueued
  match s.current with
  | none => s
  | some pool => { s with current := none, pools := s.pools.disown pool }

/-- Starts a new, empty pool. -/
def startPool (s : Session σ) : Session σ :=
  let (pool, pools) := s.pools.create
  { s with current := some pool, pools := pools }

/-- Takes everything down but the engine itself. -/
def tearDown (s : Session σ) : Session σ :=
  let s := s.closeEngineDecoder.releasePool
  { s with params := { s.params with sequence := {} }, lengthSize := none, buffer := [] }

/-- Ends the session for good. -/
def close (s : Session σ) : Session σ :=
  if s.phase = .closed then s else { s.tearDown.askClose with phase := .closed }

/-- Drops all pending input, queued surfaces and pictures, and resets the engine. -/
def flush (s : Session σ) : Session σ :=
  let s := { s with buffer := [] }
  let s := if s.phase = .ready then s.resetEngine else s
  s.dropPictures.releaseQueued

end Session

end Multiview
