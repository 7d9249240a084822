import Multiview.Session.Basic

/-!
Setting up the engine for a stream. The header of the input tells the parameters, the engine and the
session agree on the memory to decode into, and a pool of surfaces is allocated: as many as the engine
suggests, one for each operation in flight, two pairs to spare and, in video memory, two for each
picture that the client keeps.
-/

namespace Multiview

namespace Session

variable {σ : Type}

/-- Sum of two counts, at most the largest word. -/
def addCounts (a b : UInt16) : UInt16 := UInt16.ofNat (min (a.toNat + b.toNat) 65535)

/-- Number of frames to allocate. -/
def poolSize (suggested asyncDepth clientSurfaces : UInt16) (memory : MemoryKind) : UInt16 :=
  let shared := addCounts asyncDepth 4
  let shared := match memory with
    | .system => shared
    | .video => addCounts shared (addCounts clientSurfaces clientSurfaces)
  addCounts suggested shared

variable [DecodeEngine σ]

/-- Chooses the memory to decode into and asks the engine what frames it needs. Video memory is
given up for system memory when the engine does not fully support it. -/
def negotiate (s : Session σ) : Except DecodeError (Request × MemoryKind) × Session σ :=
  let wanted : MemoryKind :=
    if s.isHardware && s.pools.platform.device.isSome then .video else .system
  let s := { s with
    params := { s.params with memory := wanted, asyncDepth := s.config.asyncDepth } }
  let (status, s) := s.askQuery
  match status.check "query" with
  | .error e => (.error (.init e), s)
  | .ok _ =>
    let (settled, s) := if status = .partialAcceleration then
        (MemoryKind.system, { s with params := { s.params with memory := .system } })
      else
        (wanted, s)
    match s.askRequireFrames with
    | (.ok request, s) => (.ok (request, settled), s)
    | (.error refusal, s) =>
      if refusal = .unsupported ∧ settled = .video then
        let s := { s with params := { s.params with memory := .system } }
        let (status, s) := s.askQuery
        match status.check "query" with
        | .error e => (.error (.init e), s)
        | .ok _ =>
          match s.askRequireFrames with
          | (.ok request, s) => (.ok (request, .system), s)
          | (.error refusal, s) => (.error (.init ⟨"query_io_surf", refusal⟩), s)
      else
        (.error (.init ⟨"query_io_surf", refusal⟩), s)

/-- Allocates the frames of a request and hands them over to the pool and the engine. -/
def supplyFrames (pool : PoolId) (request : Request) (memory : MemoryKind) (s : Session σ) :
    Outcome (Except DecodeError Unit × Session σ) := do
  let settings : Option TextureSettings := match memory with
    | .system => none
    | .video => s.pools.platform.device.map fun _ => ⟨s.config.singleTexture⟩
  let request := { request with
    suggested := poolSize request.suggested s.params.asyncDepth s.clientSurfaces memory }
  let (answer, pools) ← s.pools.supply pool s.params.info memory settings request
  let s := { s with pools := pools }
  match answer with
  | .error e => return (.error (.allocation e), s)
  | .ok (allocator, _) =>
    let (status, s) := { s with memory := memory }.askUseAllocator allocator
    match status.check "set_frame_allocator" with
    | .error e => return (.error (.init e), s)
    | .ok _ => return (.ok (), s)

/-- Agrees with the engine on its frames and allocates them for a pool. A hardware engine must
suggest at least as many as may be in flight. -/
def allocateFrames (pool : PoolId) (s : Session σ) :
    Outcome (Except DecodeError Unit × Session σ) :=
  match s.negotiate with
  | (.error e, s) => .ok (.error e, s)
  | (.ok (request, memory), s) =>
    if s.isHardware ∧ request.suggested < s.params.asyncDepth then
      .ok (.error (.notEnoughSurfaces request.suggested s.params.asyncDepth), s)
    else
      s.supplyFrames pool request memory

/-- Reads the header of the input, a second time if the tables for it were too small. -/
def probeHeader (s : Session σ) : Outcome (EngineStatus × Session σ) := do
  let (status, s) ← s.askReadHeader
  if status = .notEnoughBuffer then
    let params := { s.params with sequence := s.params.sequence.allocate }
    askReadHeader { s with params := params }
  else
    return (status, s)

/-- Closes the decoder of the engine and replaces the pool, if they served an earlier stream. -/
def retire (s : Session σ) : Session σ :=
  let hasFrames := s.current.any fun pool => (s.pools.pool pool).frames.isSome
  if s.engineReady || hasFrames then s.closeEngineDecoder.releasePool.startPool else s

/-- Allocates frames and starts the engine with the parameters read from the header. -/
def startEngine (pool : PoolId) (s : Session σ) :
    Outcome (Except DecodeError Unit × Session σ) := do
  match ← s.allocateFrames pool with
  | (.error e, s) => return (.error e, s)
  | (.ok _, s) =>
    let (status, s) := s.askInit
    match status.check "init" with
    | .error e => return (.error (.init e), s)
    | .ok _ =>
      let s := { s with engineReady := true }
      if s.params.sequence.viewCount ≠ 2 then
        return (.error (.wrongViewCount s.params.sequence.viewCount), s)
      return (.ok (), { s with phase := .ready })

/-- Sets up the engine for the stream in the buffer. Answers `false` if the buffer, which is dropped
then, holds no complete header. -/
def setUp (s : Session σ) : Outcome (Except DecodeError Bool × Session σ) := do
  let s := s.retire
  match s.current with
  | none => return (.error .notOpened, s)
  | some pool =>
    let (status, s) ← s.probeHeader
    if status = .moreData then
      return (.ok false, { s with buffer := [] })
    match status.check "decode_header" with
    | .error e => return (.error (.header e), { s with buffer := [] })
    | .ok _ =>
      let (answer, s) ← s.startEngine pool
      return (answer.map fun _ => true, s)

end Session

end Multiview
