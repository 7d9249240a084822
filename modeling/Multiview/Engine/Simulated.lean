import Multiview.Engine.Interface
import Multiview.Nal.Unit

/-!
An engine that decodes nothing. It knows the units of a stream by their types, gives one surface for
each slice, in view 0 or 1, and fills the luma plane of its frame with a value that tells view and
frame order. Busy periods, single answers and slow operations can be prepared.
-/

namespace Multiview

/-- Fixed traits of a simulated engine. -/
structure SimulatedTraits where
  implementation : Implementation := .hardware
  display : Resolution := ⟨1920, 1080⟩
  suggested : UInt16 := 10
  /-- Video memory is only partly supported. -/
  partialAcceleration : Bool := false
  deriving DecidableEq, Repr

/-- Size of the frames: the display size in whole macroblocks. -/
def SimulatedTraits.codedResolution (t : SimulatedTraits) : Outcome Resolution := t.display.round 16

/-- For how many submissions the device is still busy. -/
inductive Busy where
  | calls (n : Nat)
  | always
  deriving DecidableEq, Repr

structure SimulatedEngine where
  traits : SimulatedTraits := {}
  busy : Busy := .calls 0
  /-- Answers to the next submissions. -/
  injected : List EngineStatus := []
  /-- Waits that are still answered as running. -/
  polls : Nat := 0
  headerProbes : Nat := 0
  inits : Nat := 0
  resets : Nat := 0
  submissions : Nat := 0
  syncs : Nat := 0
  decoderCloses : Nat := 0
  closed : Bool := false
  params : Option VideoParams := none
  allocator : Option AllocatorId := none
  nextSync : Nat := 0
  nextOrder : UInt32 := 0
  lastBaseOrder : UInt32 := 0
  inFlight : List (SyncPoint × LockId) := []
  deriving DecidableEq, Repr

/-- What can be prepared for calls to come. -/
inductive Preparation where
  | busy (period : Busy)
  /-- One more answer to a submission. -/
  | inject (status : EngineStatus)
  /-- The next `n` waits are answered as running. -/
  | slow (n : Nat)
  deriving DecidableEq, Repr

/-- Engines that can be prepared. -/
class Preparable (σ : Type) where
  prepare : Preparation → σ → σ

/-- Luma value of a frame: seven bits of frame order, and the top bit for other views than 0. -/
def lumaPattern (viewId : UInt16) (frameOrder : UInt32) : UInt8 :=
  (frameOrder.toUInt8 &&& 0x7f) ||| (if viewId = 0 then 0 else 0x80)

namespace SimulatedEngine

/-- Version of the interface, major and minor. -/
def version : Nat × Nat := (1, 19)

/-- The description of a sequence with `n` views, for tables that have room for it. -/
def describeViews (n : Nat) (d : SequenceDesc) : SequenceDesc :=
  { d with
    views := (List.range n).map (fun i => { viewId := UInt16.ofNat i }) ++ d.views.drop n
    viewIds := (List.range n).map UInt16.ofNat ++ d.viewIds.drop n
    points := ⟨0, 41, (List.range n).map UInt16.ofNat⟩ :: d.points.drop 1 }

/-- Finds out the number of views from the parameter sets present: two with a subset parameter set,
otherwise one. -/
def readHeader (input : Bytes) (params : VideoParams) (s : SimulatedEngine) :
    Outcome (EngineStatus × VideoParams × SimulatedEngine) := do
  let s := { s with headerProbes := s.headerProbes + 1 }
  let types := (startCodeUnits input).map (·.header.type)
  if !(types.contains .sps || types.contains .subsetSps) || !types.contains .pps then
    return (.moreData, params, s)
  let count : UInt16 := if types.contains .subsetSps then 2 else 1
  let sequence := { params.sequence with viewCount := count, viewIdCount := count, pointCount := 1 }
  if !sequence.hasRoom then
    return (.notEnoughBuffer, { params with sequence := sequence }, s)
  let coded ← s.traits.codedResolution
  let info : FrameInfo := {
    fourcc := .nv12
    width := coded.width, height := coded.height
    cropWidth := s.traits.display.width, cropHeight := s.traits.display.height
    aspectWidth := 1, aspectHeight := 1
    rateNumerator := 24000, rateDenominator := 1001 }
  return (.ok, { params with info := info, sequence := describeViews count.toNat sequence }, s)

def query (params : VideoParams) (s : SimulatedEngine) :
    EngineStatus × VideoParams × SimulatedEngine :=
  if s.traits.partialAcceleration && params.memory == .video then
    (.partialAcceleration, { params with memory := .system }, s)
  else
    (.ok, params, s)

def requireFrames (params : VideoParams) (s : SimulatedEngine) :
    Except EngineStatus Request × SimulatedEngine :=
  let memory := match params.memory with
    | .system => MemType.systemMemory
    | .video => MemType.decoderTarget
  (.ok {
    allocId := 0
    info := params.info
    memType := memory.union (.union .externalFrame .fromDecode)
    minimum := s.traits.suggested
    suggested := s.traits.suggested }, s)

def init (params : VideoParams) (s : SimulatedEngine) : EngineStatus × SimulatedEngine :=
  if params.sequence.viewCount = 0 then
    (.fatal, s)
  else
    (.ok, { s with inits := s.inits + 1, params := some params })

/-- Completes all operations in flight and gives their surfaces back. -/
def completeAll (s : SimulatedEngine) (r : Resources) : SimulatedEngine × Resources :=
  ({ s with inFlight := [] }, r.unlockAll (s.inFlight.map (·.2)))

/-- View and frame order of the next slice. A slice of another view belongs to the last base
picture. -/
def nextPicture (u : NalUnit) (s : SimulatedEngine) :
    Outcome (UInt16 × UInt32 × SimulatedEngine) := do
  if u.header.type.isBaseSlice then
    let next ← below UInt32.size (s.nextOrder.toNat + 1)
    return (0, s.nextOrder,
      { s with nextOrder := UInt32.ofNat next, lastBaseOrder := s.nextOrder })
  else
    return (1, s.lastBaseOrder, s)

/-- Starts to decode the slice `u` of the stream into a surface. -/
def decodeSlice (params : VideoParams) (u : NalUnit) (stream : Bitstream) (work : WorkSurface)
    (s : SimulatedEngine) (r : Resources) : Outcome (DecodeAnswer SimulatedEngine) := do
  let stream ← stream.consume u.stop
  let (viewId, order, s) ← s.nextPicture u
  let point : SyncPoint := ⟨s.nextSync + 1⟩
  let s := { s with nextSync := s.nextSync + 1, inFlight := s.inFlight ++ [(point, work.lock)] }
  let r := r.lock work.lock
  let r ← match s.allocator with
    | none => pure r
    | some id => r.fillLuma id work.mid (lumaPattern viewId order)
  let flags := if stream.timestamp.isSome then FrameMeta.fromStream else 0
  return {
    status := .ok
    output := some {
      mid := work.mid
      info := { params.info with viewId := viewId }
      frameMeta := ⟨order, stream.timestamp, flags⟩
      sync := point }
    stream := some stream
    engine := s
    resources := r }

/-- Takes the next slice of the stream. Prepared answers come first. -/
def decode (input : Option Bitstream) (work : WorkSurface) (s : SimulatedEngine) (r : Resources) :
    Outcome (DecodeAnswer SimulatedEngine) :=
  match s.busy, s.injected with
  | .always, _ => .ok ⟨.deviceBusy, none, input, s, r⟩
  | .calls (n + 1), _ => .ok ⟨.deviceBusy, none, input, { s with busy := .calls n }, r⟩
  | .calls 0, status :: rest => .ok ⟨status, none, input, { s with injected := rest }, r⟩
  | .calls 0, [] =>
    let (s, r) := { s with submissions := s.submissions + 1 }.completeAll r
    match s.params, input with
    | none, _ => .ok ⟨.fatal, none, input, s, r⟩
    | some _, none => .ok ⟨.moreData, none, none, s, r⟩
    | some params, some stream =>
      match (startCodeUnits stream.remaining).find? (·.isSlice) with
      | none => do
        let stream ← stream.consume stream.remaining.length
        return ⟨.moreData, none, some stream, s, r⟩
      | some u => s.decodeSlice params u stream work r

/-- A completed operation gives its surface back. -/
def sync (point : SyncPoint) (s : SimulatedEngine) (r : Resources) :
    EngineStatus × SimulatedEngine × Resources :=
  let s := { s with syncs := s.syncs + 1 }
  match s.polls with
  | n + 1 => (.inExecution, { s with polls := n }, r)
  | 0 =>
    match s.inFlight.find? (·.1 == point) with
    | none => (.ok, s, r)
    | some (_, lock) =>
      (.ok, { s with inFlight := s.inFlight.eraseP (·.1 == point) }, r.unlock lock)

def reset (params : VideoParams) (s : SimulatedEngine) (r : Resources) :
    EngineStatus × SimulatedEngine × Resources :=
  let (s, r) := { s with resets := s.resets + 1 }.completeAll r
  (.ok, { s with params := some params }, r)

def closeDecoder (s : SimulatedEngine) (r : Resources) :
    EngineStatus × SimulatedEngine × Resources :=
  let (s, r) := { s with decoderCloses := s.decoderCloses + 1 }.completeAll r
  (.ok, { s with params := none, allocator := none }, r)

def prepare : Preparation → SimulatedEngine → SimulatedEngine
  | .busy period, s => { s with busy := period }
  | .inject status, s => { s with injected := s.injected ++ [status] }
  | .slow n, s => { s with polls := n }

def patience (s : SimulatedEngine) : Nat :=
  s.injected.length + match s.busy with
    | .calls n => n
    | .always => 0

end SimulatedEngine

instance : DecodeEngine SimulatedEngine where
  implementation s := s.traits.implementation
  useAllocator id s := (.ok, { s with allocator := some id })
  readHeader := SimulatedEngine.readHeader
  query := SimulatedEngine.query
  requireFrames := SimulatedEngine.requireFrames
  init := SimulatedEngine.init
  decode := SimulatedEngine.decode
  sync point _ s r := s.sync point r
  reset := SimulatedEngine.reset
  closeDecoder := SimulatedEngine.closeDecoder
  close s := { s with closed := true }
  patience := SimulatedEngine.patience

instance : Preparable SimulatedEngine := ⟨SimulatedEngine.prepare⟩

end Multiview
