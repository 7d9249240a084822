import Multiview.Proofs.Engine.Framings
import Multiview.Proofs.Memory.Sizes
import Multiview.Proofs.Session.Tending

/-!
Answers that bring a submission forward. An engine that is busy for a while only gives one of its
prepared answers, takes the next slice off the stream, or stops. As long as there are frame orders left
it does so without a fault, and for pictures of moderate size it can also tell their frames.
-/

namespace Multiview

open Outcome

/-- Both dimensions are moderate. -/
def FrameInfo.Moderate (info : FrameInfo) : Prop :=
  info.width.toNat ≤ 16384 ∧ info.height.toNat ≤ 16384

/-- The size of such a frame in host memory is a word. -/
theorem FrameInfo.Moderate.fits {r : Request} (h : r.info.Moderate) : r.Fits :=
  Request.fits_of_le (.inl (Nat.le_trans h.1 (by decide)))

namespace SimulatedEngine

/-- The device is not busy for good, and pictures are shown in moderate size. -/
structure Moderate (e : SimulatedEngine) : Prop where
  busy : e.busy ≠ .always
  width : e.traits.display.width.toNat ≤ 16384
  height : e.traits.display.height.toNat ≤ 16384

/-- The same traits, the same answers prepared, and the same frame orders left. -/
structure Primed (e e' : SimulatedEngine) : Prop where
  traits : e'.traits = e.traits
  busy : e'.busy = e.busy
  injected : e'.injected = e.injected
  nextOrder : e'.nextOrder = e.nextOrder

section Primed

variable {e e' e'' : SimulatedEngine}

theorem Primed.refl (e : SimulatedEngine) : Primed e e := ⟨rfl, rfl, rfl, rfl⟩

theorem Primed.trans (h : Primed e e') (h' : Primed e' e'') : Primed e e'' :=
  ⟨h'.traits.trans h.traits, h'.busy.trans h.busy, h'.injected.trans h.injected,
    h'.nextOrder.trans h.nextOrder⟩

theorem Primed.patience (h : Primed e e') : e'.patience = e.patience := by
  rw [SimulatedEngine.patience, SimulatedEngine.patience, h.busy, h.injected]

theorem Primed.moderate (h : Primed e e') (he : Moderate e) : Moderate e' where
  busy := h.busy ▸ he.busy
  width := h.traits ▸ he.width
  height := h.traits ▸ he.height

end Primed

/-! ## Frames -/

variable {e : SimulatedEngine}

/-- There is room to round a moderate size up to whole macroblocks, and it stays moderate. -/
theorem codedResolution_returns (h : Moderate e) :
    Returns e.traits.codedResolution fun r => r.width.toNat ≤ 16384 ∧ r.height.toNat ≤ 16384 := by
  have hwidth := h.width
  have hheight := h.height
  have hroom : e.traits.display.HasRoom 16 := ⟨by omega, by omega⟩
  unfold SimulatedTraits.codedResolution
  refine (Resolution.round_of_room (by decide) hroom).mono fun r hr => ⟨?_, ?_⟩
  · exact hr.width.2 ⟨by decide, hwidth⟩
  · exact hr.height.2 ⟨by decide, hheight⟩

/-- A header that is found tells frames of moderate size. -/
theorem readHeader_returns (h : Moderate e) (input : Bytes) (params : VideoParams) :
    Returns (readHeader input params e) fun x => Moderate x.2.2 ∧
      (x.1.isError = false → x.2.1.info.Moderate) := by
  have hprobed : Moderate { e with headerProbes := e.headerProbes + 1 } :=
    ⟨h.busy, h.width, h.height⟩
  unfold readHeader
  dsimp only
  split
  · exact .pure ⟨hprobed, nofun⟩
  · generalize ({ params.sequence with
      viewCount := _, viewIdCount := _, pointCount := 1 } : SequenceDesc) = sequence
    split
    · exact .pure ⟨hprobed, nofun⟩
    · exact (codedResolution_returns hprobed).bind fun coded hcoded =>
        .pure ⟨hprobed, fun _ => hcoded⟩

/-! ## Decoding -/

/-- What an engine does with a stream, or without one when it is drained: it has fewer answers prepared
or fewer bytes left, or it stops. A frame order is taken for bytes only. -/
structure Forward (stream : Bitstream) (e : SimulatedEngine) (a : DecodeAnswer SimulatedEngine)
    (left : Bitstream) : Prop where
  moderate : Moderate a.engine
  consumed : ∃ offset, offset ≤ stream.data.length ∧ left = { stream with offset := offset }
  progress : a.engine.patience + (left.data.length - left.offset) <
      e.patience + (stream.data.length - stream.offset) ∨ Stops a.status a.output
  orders : a.engine.nextOrder.toNat + (left.data.length - left.offset) ≤
    e.nextOrder.toNat + (stream.data.length - stream.offset)

/-- Only surfaces take frame orders, and each takes one at most. -/
theorem decode_orders (input : Option Bitstream) (work : WorkSurface) (e : SimulatedEngine)
    (r : Resources) : Yields (e.decode input work r) fun a =>
      (a.output = none → a.engine.nextOrder = e.nextOrder) ∧
        a.engine.nextOrder.toNat ≤ e.nextOrder.toNat + 1 := by
  refine (decode_sound input work e r).yields.mono ?_
  rintro a (hidled | ⟨-, d, hsliced⟩)
  · exact ⟨fun _ => hidled.nextOrder, by rw [hidled.nextOrder]; omega⟩
  · refine ⟨fun hout => ?_, ?_⟩
    · rw [hsliced.output] at hout
      cases hout
    · rcases hsliced.order with ⟨-, -, hnext, -⟩ | ⟨-, -, hnext, -⟩
      · exact Nat.le_of_eq hnext
      · rw [hnext]
        exact Nat.le_succ _

/-- An engine that decodes what it is handed is not busy. -/
theorem Attentive.moderate {e' : SimulatedEngine} (h : Attentive e') (he : Moderate e)
    (ht : e'.traits = e.traits) : Moderate e' where
  busy := by
    rw [h.busy]
    exact nofun
  width := ht ▸ he.width
  height := ht ▸ he.height

theorem decode_stream_returns (he : Attentive e) (hm : Moderate e) {stream : Bitstream}
    (hle : stream.offset ≤ stream.data.length) (hlt : stream.data.length < wordLimit)
    (hn : ∀ u us, sliceUnits stream.remaining = u :: us → u.isBaseSlice = true →
      e.nextOrder.toNat + 1 < UInt32.size) (work : WorkSurface) (r : Resources) :
    Returns (e.decode (some stream) work r) fun a => Forward stream e a (a.stream.getD stream) := by
  cases hu : sliceUnits stream.remaining with
  | nil =>
    refine (((decode_dry he hu hle hlt work r).and (decode_traits _ work e r)).and
      (decode_orders _ work e r)).mono ?_
    rintro a ⟨⟨⟨hstatus, hout, hstream, hatt⟩, htraits⟩, hnext, -⟩
    rw [hstream]
    refine ⟨hatt.moderate hm htraits, ⟨_, Nat.le_refl _, rfl⟩, Or.inr ⟨hout, Or.inl hstatus⟩, ?_⟩
    rw [hnext hout]
    dsimp only [Option.getD_some]
    omega
  | cons u us =>
    refine (((decode_slice he hu hle hlt (hn u us hu) work r).and (decode_traits _ work e r)).and
      (decode_orders _ work e r)).mono ?_
    rintro a ⟨⟨⟨hatt, hstream, -⟩, htraits⟩, -, hnext⟩
    obtain ⟨hpos, hstop, -⟩ := sliceUnits_drop hu
    rw [Bitstream.remaining, List.length_drop] at hstop
    have hpatience : a.engine.patience = e.patience := by
      rw [patience, patience, hatt.busy, hatt.injected, he.busy, he.injected]
    rw [hstream]
    refine ⟨hatt.moderate hm htraits, ⟨_, by omega, rfl⟩, Or.inl ?_, ?_⟩
    · dsimp only [Option.getD_some]
      omega
    · dsimp only [Option.getD_some]
      omega

theorem decode_drain_returns (hb : e.busy = .calls 0) (hi : e.injected = []) (hm : Moderate e)
    {stream : Bitstream} (hle : stream.offset ≤ stream.data.length) (work : WorkSurface)
    (r : Resources) :
    Returns (e.decode none work r) fun a => Forward stream e a (a.stream.getD stream) := by
  refine (((decode_drained hb hi work r).and (decode_traits _ work e r)).and
    (decode_orders _ work e r)).mono ?_
  rintro a ⟨⟨⟨hstream, hbusy, hstops⟩, htraits⟩, hnext, -⟩
  rw [hstream]
  refine ⟨⟨?_, htraits ▸ hm.width, htraits ▸ hm.height⟩, ⟨_, hle, rfl⟩, Or.inr hstops, ?_⟩
  · rw [hbusy]
    decide
  · rw [hnext hstops.1]
    exact Nat.le_refl _

/-- Whatever was prepared, the engine goes forward. -/
theorem decode_returns (hm : Moderate e) {stream : Bitstream}
    (hle : stream.offset ≤ stream.data.length) (hlt : stream.data.length < wordLimit)
    (flushing : Bool) (hn : flushing = false → ∀ u us, sliceUnits stream.remaining = u :: us →
      u.isBaseSlice = true → e.nextOrder.toNat + 1 < UInt32.size) (work : WorkSurface)
    (r : Resources) :
    Returns (e.decode (if flushing then none else some stream) work r) fun a =>
      Forward stream e a (a.stream.getD stream) := by
  rcases decode_prepared hm.busy with ⟨hb, hi⟩ | ⟨status, e', hbusy, hpatience, hdecode⟩
  · cases flushing with
    | true => exact decode_drain_returns hb hi hm hle work r
    | false =>
      rw [if_neg Bool.false_ne_true]
      cases hp : e.params with
      | some params =>
        exact decode_stream_returns ⟨hb, hi, by rw [hp]; rfl⟩ hm hle hlt (hn rfl) work r
      | none =>
        rw [decode_unheld hb hi hp]
        exact .ok ⟨⟨hm.busy, hm.width, hm.height⟩, ⟨_, hle, rfl⟩, Or.inr ⟨rfl, Or.inr rfl⟩,
          Nat.le_refl _⟩
  · have htraits := decode_traits (if flushing then none else some stream) work e r
    have horders := decode_orders (if flushing then none else some stream) work e r
    rw [hdecode] at htraits horders ⊢
    have hsame : (if flushing then none else some stream).getD stream = stream := by
      cases flushing <;> rfl
    have ht : e'.traits = e.traits := htraits _ rfl
    have hnext : e'.nextOrder = e.nextOrder := (horders _ rfl).1 rfl
    refine .ok ⟨⟨hbusy, ht ▸ hm.width, ht ▸ hm.height⟩, ⟨_, hle, hsame⟩, Or.inl ?_, ?_⟩
    · rw [hsame]
      exact Nat.add_lt_add_right hpatience _
    · rw [hsame]
      exact Nat.le_of_eq (congrArg (·.toNat + _) hnext)

end SimulatedEngine

end Multiview
