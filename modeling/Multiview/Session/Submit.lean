import Multiview.Session.Basic

/-!
Handing the buffer to the engine. Surfaces that come back are queued by view and paired once enough
of them wait; a busy device is reset a few times before it is given up.
-/

namespace Multiview

/-- What happened while the buffer was handed over. -/
structure Submission where
  /-- Last answer of the engine. -/
  status : EngineStatus := .moreData
  /-- The engine was drained instead of fed. -/
  flushing : Bool
  /-- The engine returned a surface. -/
  produced : Bool := false
  /-- No surface was free any more. -/
  starved : Bool := false
  /-- The stream changed, so that the input is of no use. -/
  discard : Bool := false
  /-- The device stayed busy after all resets. -/
  stuck : Bool := false
  resets : Nat := 0
  stream : Bitstream
  deriving DecidableEq, Repr

namespace Session

variable {σ : Type} [DecodeEngine σ]

/-- Waits for an operation, at most `attempts` times while it is still running. -/
def waitFor (point : SyncPoint) : Nat → Session σ → Session σ
  | 0, s => s
  | attempts + 1, s =>
    let (status, s) := s.askSync point
    if status = .inExecution then waitFor point attempts s else s

/-- Waits until the engine has finished writing a surface. -/
def syncSurface (pool : PoolId) (surface : SurfaceInfo) (s : Session σ) : Session σ :=
  let (point, pools) := s.pools.takeSync pool surface.index
  let s := { s with pools := pools }
  match point with
  | none => s
  | some point => s.waitFor point (max s.config.maxSyncAttempts 1)

/-- Carries out a step of the pairing: a pair becomes a picture, any other surface is released. -/
def perform (pool : PoolId) (step : PairingStep) (s : Session σ) : Outcome (Session σ) :=
  match step with
  | .drop surface => .ok { s with pools := s.pools.release pool surface.index }
  | .pair base extra => do
    let s := (s.syncSurface pool base).syncSurface pool extra
    let (picture, pools) ← s.pools.join pool base extra
    return { s with pools := pools, pictures := s.pictures ++ [picture] }

/-- Pairs surfaces while each view has at least `least` of them. -/
def pairQueued (least : Nat) (s : Session σ) : Outcome (Session σ) :=
  match s.current with
  | none => .ok s
  | some pool =>
    let (steps, queues) := s.queues.resolve least
    steps.foldlM (fun s step => s.perform pool step) { s with queues := queues }

/-- Queues a surface of the engine and pairs what waited long enough. -/
def handleOutput (surface : SurfaceInfo) (s : Session σ) : Outcome (Session σ) :=
  pairQueued (s.config.asyncDepth.toNat / 2 + 1) { s with queues := s.queues.push surface }

/-- Pairs everything that can be paired. What is left is dropped once the engine is empty. -/
def flushQueues (engineEmpty : Bool) (s : Session σ) : Outcome (Session σ) := do
  if s.phase ≠ .ready then
    return s
  let s ← s.pairQueued 1
  return if engineEmpty then s.releaseQueued else s

/-- Deals with an answer other than a busy device. The flag tells whether to go on. -/
def handleAnswer (pool : PoolId) (status : EngineStatus) (output : Option DecodedSurface)
    (s : Session σ) (p : Submission) : Outcome (Bool × Session σ × Submission) :=
  let p := { p with status := status }
  if status = .incompatibleParams then
    .ok (true, { s with phase := .opened }, { p with discard := true, flushing := true })
  else
    match output with
    | some d => do
      let p := { p with produced := true }
      match s.pools.markQueued pool d with
      | none => return (true, s, p)
      | some (surface, pools) =>
        let s ← { s with pools := pools }.handleOutput surface
        return (true, s, p)
    | none => .ok (status = .moreSurface || !status.isError, s, p)

/-- Deals with a busy device: once it has been busy for too long it is reset, or given up when all
resets are spent. The flag tells whether to go on. -/
def handleBusy (s : Session σ) (p : Submission) : Bool × Session σ × Submission :=
  let tooLong := s.config.busyTooLong s.busyAnswers
  let s := { s with busyAnswers := s.busyAnswers + 1 }
  if !tooLong then
    (true, s, p)
  else if s.config.maxBusyResets ≤ p.resets then
    (false, s, { p with stuck := true })
  else
    (true, s.resetEngine, { p with resets := p.resets + 1 })

/-- Hands stream data to the engine once, together with a free surface. The flag tells whether to go
on. -/
def turn (pool : PoolId) (s : Session σ) (p : Submission) :
    Outcome (Bool × Session σ × Submission) :=
  match s.pools.freeSurface? pool with
  | none => .ok (false, s, { p with starved := true })
  | some (_, work) => do
    let (status, output, stream, s) ←
      s.askDecode (if p.flushing then none else some p.stream) work
    let p := { p with stream := stream.getD p.stream }
    if status = .deviceBusy then return s.handleBusy p
    else s.handleAnswer pool status output p

/-- Hands stream data to the engine until it asks for more or fails, or no surface is free. -/
def submitWithin (pool : PoolId) : Nat → Session σ → Submission → Outcome (Session σ × Submission)
  | 0, _, _ => .error .endless
  | fuel + 1, s, p => do
    let (goOn, s, p) ← turn pool s p
    if goOn then submitWithin pool fuel s p else return (s, p)

/-- Turns that a submission of some bytes can take. Each uses up an answer that the engine can give
without progress, a reset, a wait for a busy device, or a byte of the stream. -/
def turnLimit (bytes : Nat) (s : Session σ) : Nat :=
  DecodeEngine.patience s.engine + s.config.maxBusyResets + s.config.busyWaits + bytes + 2

/-- Hands a stream to the engine, or drains the engine. -/
def submit (stream : Bitstream) (flushing : Bool) (s : Session σ) :
    Outcome (Except DecodeError Submission × Session σ) := do
  match s.current with
  | none => return (.error .notOpened, s)
  | some pool =>
    let (s, p) ← submitWithin pool (s.turnLimit stream.data.length) s
      { flushing := flushing, stream := stream }
    return (.ok p, s)

end Session

end Multiview
