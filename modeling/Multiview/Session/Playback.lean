import Multiview.Session.Client

/-!
Playing a stream from start to end: every packet is decoded, pictures are taken and cleared as soon
as they are ready, and at the end the session is drained.
-/

namespace Multiview

inductive PlaybackError where
  | packet (number : Nat)
  | draining
  deriving DecidableEq, Repr

def PlaybackError.message : PlaybackError → String
  | packet number => s!"decoding of packet {number} failed"
  | draining => "draining failed"

/-- How playback went, and the pictures it showed. -/
structure Playback (σ : Type) where
  result : Except PlaybackError Unit := .ok ()
  shown : List StereoPicture := []
  session : Session σ

namespace Playback

variable {σ : Type} [DecodeEngine σ]

/-- Takes all pictures that are ready, and tells whether there were any. -/
def showReady (p : Playback σ) : Bool × Playback σ :=
  let (shown, s) := p.session.playAllReady
  (!shown.isEmpty, { p with shown := p.shown ++ shown, session := s })

/-- Decodes a packet. Its data goes in with the first call; further ones, at most `attempts` in all,
only let pictures out. -/
def playPacket (number : Nat) : Nat → Bytes → Playback σ → Outcome (Playback σ)
  | 0, _, p => .ok p
  | attempts + 1, data, p => do
    let (status, s) ← p.session.decode (some data) none (some (UInt64.ofNat number))
    let p := { p with session := s }
    if status.error then
      return { p with result := .error (.packet number) }
    else if status.flushed then
      return { p with session := s.flush }
    else
      let (_, p) := p.showReady
      if status.needInput || !status.pictureReady then return p
      else playPacket number attempts [] p

/-- Decodes packets until one fails. The first is number `number`. -/
def playPackets : Nat → List Bytes → Playback σ → Outcome (Playback σ)
  | _, [], p => .ok p
  | number, packet :: rest, p => do
    let p ← p.playPacket number 16 packet
    match p.result with
    | .error _ => return p
    | .ok _ => playPackets (number + 1) rest p

/-- Drains until no more pictures come out. -/
def drainWithin : Nat → Playback σ → Outcome (Playback σ)
  | 0, _ => .error .endless
  | fuel + 1, p => do
    let (status, s) ← p.session.drain
    let p := { p with session := s }
    if status.error then
      return { p with result := .error .draining }
    else
      let (any, p) := p.showReady
      if any then drainWithin fuel p else return p

/-- Drains the session. Every turn but the last shows a picture, and pictures come from surfaces that
are queued or that the engine still returns. -/
def drainAll (p : Playback σ) : Outcome (Playback σ) :=
  let s := p.session
  drainWithin (DecodeEngine.patience s.engine + s.queues.length + s.pictures.length + 2) p

end Playback

/-- Plays packets once from start to end. The control flags are cleared after success. -/
def Session.play {σ : Type} [DecodeEngine σ] (packets : List Bytes) (s : Session σ) :
    Outcome (Playback σ) := do
  let p ← Playback.playPackets 0 packets { session := s }
  match p.result with
  | .error _ => return p
  | .ok _ =>
    let p ← p.drainAll
    match p.result with
    | .error _ => return p
    | .ok _ => return { p with session := p.session.setControl ⟨0⟩ }

end Multiview
