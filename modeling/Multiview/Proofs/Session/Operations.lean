import Multiview.Proofs.Session.Feeding
import Multiview.Proofs.Session.Preparing

/-!
Every operation of a session is a course of steps: the engine is prepared, then fed, then perhaps taken
down. In none of them surfaces of different pictures are combined.
-/

namespace Multiview

open Outcome Relation

namespace Session

variable {s t : Session SimulatedEngine}

/-- A session whose engine is set up runs on its current pool. -/
theorem InStep.running (h : InStep s) (he : s.engineReady = true) : ∃ pool, Running pool s := by
  obtain ⟨pool, _, hc, _⟩ := h.equipped he
  exact ⟨pool, h, he, hc⟩

theorem accept_sound (data : Option Bytes) (s : Session SimulatedEngine) :
    Sound (s.accept data) fun r => ∀ t, r = .ok t → ∃ b, t = { s with buffer := b } := by
  have hrefused : ∀ e : DecodeError, ∀ t : Session SimulatedEngine,
      (.error e : Except DecodeError (Session SimulatedEngine)) = .ok t →
        ∃ b, t = { s with buffer := b } := by
    intro e t ht
    cases ht
  cases data with
  | none =>
    have hkept : ∀ t : Session SimulatedEngine,
        (.ok s : Except DecodeError (Session SimulatedEngine)) = .ok t →
          ∃ b, t = { s with buffer := b } := by
      intro t ht
      cases ht
      exact ⟨s.buffer, rfl⟩
    unfold accept
    split
    · exact .ok (hrefused _)
    · exact .ok (hrefused _)
    · exact .ok (hrefused _)
    · exact .ok hkept
    · exact .ok hkept
  | some data =>
    have hinput := appendInput_sound data s
    unfold accept
    split
    · exact .ok (hrefused _)
    · exact .ok (hrefused _)
    · exact .ok (hrefused _)
    · exact hinput
    · exact hinput

/-- The engine is prepared first, so that a ready session can feed it. -/
theorem arrange_sound (flushing : Bool) (hs : InStep s) :
    Sound (s.arrange flushing) fun x =>
      Preparing s x.2 ∧ (x.1 = .ok true → x.2.phase = .ready) := by
  unfold arrange
  split
  · rename_i hp
    exact .ok ⟨.refl, fun _ => hp⟩
  · rename_i hp
    split
    · exact .ok ⟨.refl, fun h => by cases h⟩
    · exact setUp_sound hs hp

theorem advance_sound (flushing : Bool) (dts pts : Option UInt64) (hs : InStep s) :
    Sound (s.advance flushing dts pts) fun x => Course s x.2 := by
  unfold advance
  refine (arrange_sound flushing hs).bind ?_
  rintro ⟨answer, t⟩ ⟨ht, hready⟩
  cases answer with
  | error e => exact .pure ht.course
  | ok goOn =>
    cases goOn with
    | false => exact .pure ht.course
    | true =>
      have hin := ht.inStep hs
      obtain ⟨pool, hrun⟩ := hin.running (hin.ready (hready rfl))
      exact (decodeBuffer_sound flushing dts pts hrun).mono fun x hx => ⟨t, ht, hx.feeding⟩

theorem tryDecode_sound (data : Option Bytes) (dts pts : Option UInt64) (hs : InStep s) :
    Sound (s.tryDecode data dts pts) fun x => Course s x.2 := by
  unfold tryDecode
  refine (accept_sound data s).bind fun answer ha => ?_
  cases answer with
  | error e => exact .pure (Moves.course .refl)
  | ok t =>
    obtain ⟨b, rfl⟩ := ha t rfl
    have hedit := (aside_edit hs.ready b).moves
    exact (advance_sound _ dts pts (hedit.inStep hs)).mono fun x hx => .prepared hedit.preparing hx

/-- How a call ends: a fatal error ends decoding for good. -/
def answered (x : Except DecodeError DecodeStatus × Session SimulatedEngine) :
    DecodeStatus × Session SimulatedEngine :=
  match x with
  | (.ok status, s) => (status, s)
  | (.error e, s) => ({ error := true }, if e.isFatal then { s with phase := .failed } else s)

theorem decode_eq (data : Option Bytes) (dts pts : Option UInt64) (s : Session SimulatedEngine) :
    s.decode data dts pts = (do
      let x ← s.tryDecode data dts pts
      return answered x) := by
  unfold decode
  cases s.tryDecode data dts pts with
  | error fault => rfl
  | ok x =>
    obtain ⟨answer, t⟩ := x
    cases answer <;> rfl

/-- What an attempt to decode brings about, and a failure does not undo, holds after the call. -/
theorem answered_keeps {q : Session SimulatedEngine → Prop}
    {x : Except DecodeError DecodeStatus × Session SimulatedEngine} (h : q x.2)
    (hfailed : ∀ s, q s → q { s with phase := .failed }) : q (answered x).2 := by
  obtain ⟨answer, t⟩ := x
  cases answer with
  | ok status => exact h
  | error e =>
    unfold answered
    dsimp only
    split
    · exact hfailed t h
    · exact h

theorem decode_sound (data : Option Bytes) (dts pts : Option UInt64) (hs : InStep s) :
    Sound (s.decode data dts pts) fun x => Course s x.2 := by
  rw [decode_eq]
  refine (tryDecode_sound data dts pts hs).bind fun x hx => .pure ?_
  exact answered_keeps hx fun t ht => ht.feed (moves_fail t).feeding

theorem aside_setControl (hs : InStep s) (control : Control) : Aside s (s.setControl control) :=
  .edit hs.ready

theorem drain_sound (hs : InStep s) : Sound s.drain fun x => Course s x.2 := by
  have hcontrol := (aside_setControl hs (s.control.union .drain)).moves
  exact (decode_sound none none none (hcontrol.inStep hs)).mono fun x hx =>
    .prepared hcontrol.preparing hx

theorem bootstrap_sound (data : Bytes) (hs : InStep s) :
    Sound (s.bootstrap data) fun x => Course s x.2 := by
  unfold bootstrap
  refine (tryDecode_sound (some data) none none hs).bind ?_
  rintro ⟨answer, t⟩ ht
  cases answer with
  | ok status => exact .pure ht
  | error e => exact .pure ht

theorem aside_lengthSize (hs : InStep s) (size : Option LengthSize) :
    Aside s { s with lengthSize := size } :=
  .edit hs.ready

theorem feedHeader_sound (header : SequenceHeader) (hs : InStep s) :
    Sound (s.feedHeader header) fun x => Course s x.2 := by
  have hsize := (aside_lengthSize hs (some .two)).moves
  unfold feedHeader
  refine (bootstrap_sound header.data (hsize.inStep hs)).bind ?_
  rintro ⟨answer, t⟩ ht
  have hst : Course s t := .prepared hsize.preparing ht
  cases answer with
  | error e => exact .pure hst
  | ok u =>
    dsimp only
    split
    · exact .pure hst
    · rename_i size _
      have hnew := (aside_lengthSize (hst.inStep hs) (t.lengthSize.map fun _ => size)).moves
      exact .pure (hst.feed hnew.feeding)

/-- A session that is opened for a new stream has nothing left of the old one. -/
def Restarted (s t : Session SimulatedEngine) : Prop :=
  ∃ u, Moves s u ∧ u.queues = {} ∧ Course u t

theorem Restarted.course (h : Restarted s t) : Course s t := by
  obtain ⟨u, hu, _, ht⟩ := h
  exact .prepared (Moves.preparing hu) ht

theorem Restarted.moves {u : Session SimulatedEngine} (h : Restarted s t) (h' : Moves t u) :
    Restarted s u := by
  obtain ⟨v, hv, hq, ht⟩ := h
  exact ⟨v, hv, hq, ht.feed (Moves.feeding h')⟩

theorem tryOpen_sound (hints : StreamHints) (options : Options) (hs : InStep s) :
    Sound (s.tryOpen hints options) fun x => Course s x.2 ∧ (x.1 = .ok () → Restarted s x.2) := by
  have hrestart := moves_restart options hs
  have hin := hrestart.inStep hs
  have hopened : ∀ {x : Except OpenError Unit × Session SimulatedEngine},
      Course (s.restart options) x.2 → Course s x.2 ∧ (x.1 = .ok () → Restarted s x.2) := by
    intro x hx
    have hx : Restarted s x.2 := ⟨_, hrestart, queues_restart options s, hx⟩
    exact ⟨hx.course, fun _ => hx⟩
  have hrefused : ∀ e : OpenError, Sound (pure (.error e, s))
      fun x : Except OpenError Unit × Session SimulatedEngine =>
        Course s x.2 ∧ (x.1 = .ok () → Restarted s x.2) :=
    fun e => .pure ⟨Moves.course .refl, fun h => by cases h⟩
  unfold tryOpen
  split
  · exact hrefused _
  · split
    · exact hrefused _
    · split
      · exact hrefused _
      · split
        · exact hrefused _
        · exact (feedHeader_sound _ hin).mono fun x hx => hopened hx
        · split
          · exact .pure (hopened (Moves.course .refl))
          · exact (bootstrap_sound _ hin).mono fun x hx => hopened hx

theorem open_sound (hints : StreamHints) (options : Options) (hs : InStep s) :
    Sound (s.open hints options) fun x =>
      Course s x.2.2 ∧ (x.1 = .ok () → Restarted s x.2.2) := by
  unfold «open»
  refine (tryOpen_sound hints options hs).bind ?_
  rintro ⟨answer, t⟩ ⟨ht, hnew⟩
  have hin := ht.inStep hs
  cases answer with
  | ok u =>
    have hmode : Aside t { t with stereoMode := StereoMode.ofHint hints.stereoMode } :=
      .edit hin.ready
    have hopened := (hnew rfl).moves hmode.moves
    exact .pure ⟨hopened.course, fun _ => hopened⟩
  | error e =>
    dsimp only
    split
    · exact .pure ⟨ht, fun h => by cases h⟩
    · exact .pure ⟨ht.feed (moves_toIdle hin).feeding, fun h => by cases h⟩

end Session

end Multiview
