import Multiview.Engine.Simulated

/-!
A simulated engine whose answers can be replaced from a script. Every call takes the next entry of
its list; without one the engine's own answer stands. The calls reach the engine all the same, except
for a scripted answer to `decode`, which takes the place of the whole call.
-/

namespace Multiview

/-- A surface to answer with, where missing parts are those of the work surface. -/
structure OutputScript where
  mid : Option MemId := none
  info : FrameInfo.Patch := {}
  frameMeta : FrameMeta := {}
  sync : SyncPoint
  deriving DecidableEq, Repr

structure DecodeScript where
  status : EngineStatus
  /-- Bytes to take from the stream. -/
  consume : Option Nat := none
  /-- Lock the work surface. -/
  lock : Bool := false
  output : Option OutputScript := none
  deriving DecidableEq, Repr

/-- The parts of a request that are to be replaced. -/
structure Request.Patch where
  allocId : Option UInt32 := none
  memType : Option MemType := none
  suggested : Option UInt16 := none
  info : FrameInfo.Patch := {}
  deriving DecidableEq, Repr

def Request.patch (r : Request) (p : Request.Patch) : Request :=
  { r with
    allocId := p.allocId.getD r.allocId
    memType := p.memType.getD r.memType
    suggested := p.suggested.getD r.suggested
    info := r.info.patch p.info }

inductive RequireScript where
  | refuse (status : EngineStatus)
  | change (patch : Request.Patch)
  deriving DecidableEq, Repr

/-- Entries for each kind of call, in the order of the calls. -/
structure Script where
  useAllocator : List (Option EngineStatus) := []
  readHeader : List (Option EngineStatus) := []
  query : List (Option EngineStatus) := []
  requireFrames : List (Option RequireScript) := []
  init : List (Option EngineStatus) := []
  decode : List (Option DecodeScript) := []
  sync : List (Option EngineStatus) := []
  reset : List (Option EngineStatus) := []
  closeDecoder : List (Option EngineStatus) := []
  deriving DecidableEq, Repr

structure ScriptedEngine where
  engine : SimulatedEngine := {}
  script : Script := {}
  /-- Changes the frame description of every header that is read. -/
  infoPatch : FrameInfo.Patch := {}
  deriving DecidableEq, Repr

namespace ScriptedEngine

/-- The entry at the front, if it holds anything. -/
def entry {α : Type} (entries : List (Option α)) : Option α := entries.head?.join

def readHeader (input : Bytes) (params : VideoParams) (s : ScriptedEngine) :
    Outcome (EngineStatus × VideoParams × ScriptedEngine) := do
  let (status, params, engine) ← s.engine.readHeader input params
  let params :=
    if status = .ok then { params with info := params.info.patch s.infoPatch } else params
  let script := { s.script with readHeader := s.script.readHeader.tail }
  return ((entry s.script.readHeader).getD status, params,
    { s with engine := engine, script := script })

def requireFrames (params : VideoParams) (s : ScriptedEngine) :
    Except EngineStatus Request × ScriptedEngine :=
  let (answer, engine) := s.engine.requireFrames params
  let script := { s.script with requireFrames := s.script.requireFrames.tail }
  let answer := match entry s.script.requireFrames with
    | none => answer
    | some (.refuse status) => .error status
    | some (.change patch) => answer.map (·.patch patch)
  (answer, { s with engine := engine, script := script })

/-- A scripted answer to stream data. -/
def follow (d : DecodeScript) (input : Option Bitstream) (work : WorkSurface) (s : ScriptedEngine)
    (r : Resources) : Outcome (DecodeAnswer ScriptedEngine) := do
  let input ← match input, d.consume with
    | some stream, some n => some <$> stream.consume n
    | _, _ => pure input
  let output := d.output.map fun o => {
    mid := o.mid.getD work.mid
    info := work.info.patch o.info
    frameMeta := o.frameMeta
    sync := o.sync }
  return ⟨d.status, output, input, s, if d.lock then r.lock work.lock else r⟩

def decode (input : Option Bitstream) (work : WorkSurface) (s : ScriptedEngine) (r : Resources) :
    Outcome (DecodeAnswer ScriptedEngine) :=
  let script := { s.script with decode := s.script.decode.tail }
  match entry s.script.decode with
  | some d => follow d input work { s with script := script } r
  | none => do
    let a ← s.engine.decode input work r
    return ⟨a.status, a.output, a.stream, { s with engine := a.engine, script := script },
      a.resources⟩

end ScriptedEngine

open ScriptedEngine in
instance : DecodeEngine ScriptedEngine where
  implementation s := s.engine.traits.implementation
  useAllocator id s :=
    let (status, engine) := DecodeEngine.useAllocator id s.engine
    let script := { s.script with useAllocator := s.script.useAllocator.tail }
    ((entry s.script.useAllocator).getD status, { s with engine := engine, script := script })
  readHeader := ScriptedEngine.readHeader
  query params s :=
    let (status, params, engine) := s.engine.query params
    let script := { s.script with query := s.script.query.tail }
    ((entry s.script.query).getD status, params, { s with engine := engine, script := script })
  requireFrames := ScriptedEngine.requireFrames
  init params s :=
    let (status, engine) := s.engine.init params
    let script := { s.script with init := s.script.init.tail }
    ((entry s.script.init).getD status, { s with engine := engine, script := script })
  decode := ScriptedEngine.decode
  sync point _ s r :=
    let (status, engine, r) := s.engine.sync point r
    let script := { s.script with sync := s.script.sync.tail }
    ((entry s.script.sync).getD status, { s with engine := engine, script := script }, r)
  reset params s r :=
    let (status, engine, r) := s.engine.reset params r
    let script := { s.script with reset := s.script.reset.tail }
    ((entry s.script.reset).getD status, { s with engine := engine, script := script }, r)
  closeDecoder s r :=
    let (status, engine, r) := s.engine.closeDecoder r
    let script := { s.script with closeDecoder := s.script.closeDecoder.tail }
    ((entry s.script.closeDecoder).getD status, { s with engine := engine, script := script }, r)
  close s := { s with engine := DecodeEngine.close s.engine }
  patience s := s.engine.patience + s.script.decode.length

instance : Preparable ScriptedEngine where
  prepare p s := { s with engine := s.engine.prepare p }

end Multiview
