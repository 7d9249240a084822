import Multiview.Session.Input
import Multiview.Session.Setup
import Multiview.Session.Submit

/-!
Decoding a piece of input and opening a stream.
-/

namespace Multiview

/-- What a call to decode tells the client. -/
structure DecodeStatus where
  error : Bool := false
  /-- More input can be taken. -/
  needInput : Bool := false
  /-- A picture waits for the client. -/
  pictureReady : Bool := false
  /-- A stuck device was given up and the client should flush. -/
  flushed : Bool := false
  deriving DecidableEq, Repr

namespace DecodeStatus

def bits (d : DecodeStatus) : Nat :=
  d.error.toNat + 2 * d.needInput.toNat + 4 * d.pictureReady.toNat + 16 * d.flushed.toNat

end DecodeStatus

namespace Session

variable {σ : Type} [DecodeEngine σ]

/-- The input that is left after a submission. Input of a stream that changed is dropped, and so is
input that makes no progress. -/
def leftover (buffer : Bytes) (p : Submission) : Outcome Bytes :=
  if p.discard then
    .ok []
  else if p.stream.offset = 0 ∧ !p.produced ∧ !p.flushing ∧ !p.starved then
    .ok []
  else
    dropExactly p.stream.offset buffer

/-- The status of a call that handed its input to the engine. -/
def statusAfter (p : Submission) (s : Session σ) : DecodeStatus :=
  let ready := !s.pictures.isEmpty
  let draining := s.control.isDraining
  let needInput :=
    (p.status == .moreData && !draining) || (draining && !ready) || (p.starved && !ready)
  { needInput := needInput, pictureReady := ready }

/-- The status that a submission ended with. It is no error that the engine asks for more. -/
def verdict (status : EngineStatus) : Except EngineError EngineStatus :=
  if status = .moreData ∨ status = .moreSurface then .ok status
  else status.check "decode_frame_async"

@[simp] theorem verdict_ok : verdict .ok = .ok .ok := rfl

@[simp] theorem verdict_moreData : verdict .moreData = .ok .moreData := rfl

theorem verdict_of_isError {status : EngineStatus} (hdata : status ≠ .moreData)
    (hsurface : status ≠ .moreSurface) (h : status.isError = true) :
    verdict status = .error ⟨"decode_frame_async", status⟩ := by
  unfold verdict
  rw [if_neg (not_or.mpr ⟨hdata, hsurface⟩), EngineStatus.check_of_isError h]

/-- Settles the input and the queues after a submission. -/
def conclude (buffer : Bytes) (p : Submission) (s : Session σ) :
    Outcome (Except DecodeError DecodeStatus × Session σ) := do
  if p.stuck then
    return (.ok { flushed := true }, { s with buffer := buffer })
  let rest ← leftover buffer p
  let s := { s with buffer := rest }
  match verdict p.status with
  | .error e => return (.error (.decode e), s)
  | .ok _ =>
    let s ←
      if s.control.isDraining then s.flushQueues (p.flushing && p.status == .moreData) else pure s
    return (.ok (s.statusAfter p), s)

/-- Unless the device was given up or the engine failed, what is left of the input stays in the buffer,
and the queues are flushed if the client wants all that is queued. -/
theorem conclude_eq {buffer rest : Bytes} {p : Submission} {status : EngineStatus} (s : Session σ)
    (hstuck : p.stuck = false) (hrest : leftover buffer p = .ok rest)
    (hverdict : verdict p.status = .ok status) :
    s.conclude buffer p = (do
      let t ← if s.control.isDraining then
          flushQueues (p.flushing && p.status == .moreData) { s with buffer := rest }
        else pure { s with buffer := rest }
      return (.ok (t.statusAfter p), t)) := by
  unfold conclude
  rw [hstuck, hrest]
  simp only [Bool.false_eq_true, ↓reduceIte, bind, Except.bind, hverdict]

/-- Hands the buffer to the engine. -/
def decodeBuffer (flushing : Bool) (dts pts : Option UInt64) (s : Session σ) :
    Outcome (Except DecodeError DecodeStatus × Session σ) := do
  let buffer := s.buffer
  match ← { s with buffer := [] }.submit ⟨buffer, 0, pts, dts⟩ flushing with
  | (.error e, s) => return (.error e, s)
  | (.ok p, s) => s.conclude buffer p

/-- Sets the engine up unless it is ready or only to be drained. Answers whether it is ready. -/
def arrange (flushing : Bool) (s : Session σ) : Outcome (Except DecodeError Bool × Session σ) :=
  if s.phase = .ready then
    .ok (.ok true, s)
  else if flushing then
    .ok (.ok false, s)
  else
    s.setUp

/-- Decodes input that is in the buffer already, setting up the engine first if necessary. -/
def advance (flushing : Bool) (dts pts : Option UInt64) (s : Session σ) :
    Outcome (Except DecodeError DecodeStatus × Session σ) := do
  match ← s.arrange flushing with
  | (.error e, s) => return (.error e, s)
  | (.ok false, s) => return (.ok { needInput := true }, s)
  | (.ok true, s) => s.decodeBuffer flushing dts pts

/-- Takes input over into the buffer, if there is any. -/
def accept (data : Option Bytes) (s : Session σ) : Outcome (Except DecodeError (Session σ)) :=
  match s.phase with
  | .idle | .closed => .ok (.error .notOpened)
  | .failed => .ok (.error .stopped)
  | .opened | .ready =>
    match data with
    | none => .ok (.ok s)
    | some data => s.appendInput data

/-- Decodes `data`, or drains the engine if there is none. -/
def tryDecode (data : Option Bytes) (dts pts : Option UInt64) (s : Session σ) :
    Outcome (Except DecodeError DecodeStatus × Session σ) := do
  match ← s.accept data with
  | .error e => return (.error e, s)
  | .ok s => s.advance data.isNone dts pts

/-- Decodes `data`, or drains the engine if there is none. A fatal error ends decoding until the
session is opened again. -/
def decode (data : Option Bytes) (dts pts : Option UInt64) (s : Session σ) :
    Outcome (DecodeStatus × Session σ) := do
  match ← s.tryDecode data dts pts with
  | (.ok status, s) => return (status, s)
  | (.error e, s) => return ({ error := true }, if e.isFatal then { s with phase := .failed } else s)

def setControl (control : Control) (s : Session σ) : Session σ := { s with control := control }

/-- Decodes with the drain flag set, which stays set. -/
def drain (s : Session σ) : Outcome (DecodeStatus × Session σ) :=
  { s with control := s.control.union .drain }.decode none none none

/-- The parameter sets that a stream carries outside its samples: in the record of its second view,
or nowhere. -/
def headerOf (hints : StreamHints) : Except ConfigError (Option SequenceHeader) := do
  if hints.tag = .mvc1 then
    let record ← Config.secondViewRecord hints.extradata
    let header ← Config.sequenceHeader record
    return some header
  else
    return none

/-- Decodes what came with the stream, so that the engine is set up right away. -/
def bootstrap (data : Bytes) (s : Session σ) : Outcome (Except OpenError Unit × Session σ) := do
  match ← s.tryDecode (some data) none none with
  | (.ok _, s) => return (.ok (), s)
  | (.error e, s) => return (.error (.sequenceHeader e), s)

/-- Feeds the sequence header of a stream whose samples have length fields. -/
def feedHeader (header : SequenceHeader) (s : Session σ) :
    Outcome (Except OpenError Unit × Session σ) := do
  match ← { s with lengthSize := some .two }.bootstrap header.data with
  | (.error e, s) => return (.error e, s)
  | (.ok _, s) =>
    match LengthSize.ofNat? header.lengthSize with
    | .error e => return (.error (.record e), s)
    | .ok size => return (.ok (), { s with lengthSize := s.lengthSize.map fun _ => size })

/-- Starts over for a new stream. -/
def restart (options : Options) (s : Session σ) : Session σ :=
  { s.tearDown with
    params := { info := { fourcc := .nv12 } }
    clientSurfaces := options.surfaces?.getD 0
    phase := .opened }.startPool

/-- Opens a stream. What is wrong with its description is found out before the session is touched. -/
def tryOpen (hints : StreamHints) (options : Options) (s : Session σ) :
    Outcome (Except OpenError Unit × Session σ) := do
  if s.phase = .closed then
    return (.error .closed, s)
  if hints.codec ≠ .h264 ∧ hints.codec ≠ .h264Mvc then
    return (.error (.codec hints.codec), s)
  if hints.tag ≠ .mvc1 ∧ hints.tag ≠ .amvc then
    return (.error (.tag hints.tag), s)
  match headerOf hints with
  | .error e => return (.error (.config e), s)
  | .ok (some header) => (s.restart options).feedHeader header
  | .ok none =>
    if hints.extradata.isEmpty then
      return (.ok (), s.restart options)
    else
      (s.restart options).bootstrap hints.extradata

/-- Opens a stream. The hints come back with the stereo mode that is used, which is `mono` after a
failure; a failure leaves the session idle. -/
def «open» (hints : StreamHints) (options : Options) (s : Session σ) :
    Outcome (Except OpenError Unit × StreamHints × Session σ) := do
  match ← s.tryOpen hints options with
  | (.ok _, s) =>
    let mode := StereoMode.ofHint hints.stereoMode
    return (.ok (), { hints with stereoMode := mode.text }, { s with stereoMode := mode })
  | (.error e, s) =>
    let s := if s.phase = .closed then s else { s.tearDown with phase := .idle }
    return (.error e, { hints with stereoMode := "mono" }, s)

end Session

end Multiview
