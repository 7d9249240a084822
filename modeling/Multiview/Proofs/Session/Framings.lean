import Multiview.Proofs.Config.Written
import Multiview.Proofs.Session.Refusal
import Multiview.Proofs.Session.Twins

/-!
The two framings decode alike. A stream whose units follow their lengths and the same stream with start
codes, opened with their parameter sets in either form, give the same answers and the same pictures call
by call, whatever else the client does.
-/

namespace Multiview

open Outcome

namespace Session

variable {l l' : Option LengthSize} {m : Nat} {s t : Session SimulatedEngine}

theorem Twins.active (h : Twins l l' m s t) : Active t ↔ Active s := by
  unfold Active
  rw [h.phase]

/-! ## Setting up -/

theorem askReadHeader_twins (h : Twins l l' m s t) :
    Agree (Beside l l' m) s.askReadHeader t.askReadHeader := by
  obtain ⟨us, vs, hr, hs, ht, -, -⟩ := h.buffers
  have hparams : t.params = s.params := by
    cases h
    rfl
  have hread : SimulatedEngine.readHeader t.buffer t.params t.engine =
      SimulatedEngine.readHeader s.buffer s.params s.engine := by
    rw [hs, ht, h.engine, hparams]
    exact SimulatedEngine.readHeader_congr hr.types s.params s.engine
  unfold askReadHeader
  change Agree _ (SimulatedEngine.readHeader s.buffer s.params s.engine >>= _)
    (SimulatedEngine.readHeader t.buffer t.params t.engine >>= _)
  rw [hread]
  refine (SimulatedEngine.readHeader_engine s.buffer s.params s.engine).agree.bind ?_
  rintro ⟨status, params, e⟩ _ ⟨rfl, he⟩
  have hcalm : e.busy ≠ .always := by
    rw [show e = { s.engine with headerProbes := s.engine.headerProbes + 1 } from he]
    exact h.calm
  refine .pure ⟨rfl, Twins.record ?_ _ _⟩
  exact (h.withEngine hcalm).blind (f := fun s => { s with params := params }) fun _ _ => rfl

theorem probeHeader_twins (h : Twins l l' m s t) :
    Agree (Beside l l' m) s.probeHeader t.probeHeader := by
  unfold probeHeader
  refine (askReadHeader_twins h).bind ?_
  rintro ⟨_, s'⟩ ⟨status, t'⟩ ⟨rfl, htwins⟩
  dsimp only at htwins ⊢
  split
  · exact askReadHeader_twins (htwins.blind (f := fun s =>
      { s with params := { s.params with sequence := s.params.sequence.allocate } }) fun _ _ => rfl)
  · exact .pure ⟨rfl, htwins⟩

theorem setUp_twins (h : Twins l l' m s t) : Agree (Beside l l' m) s.setUp t.setUp := by
  have hretired := h.blind retire_under
  unfold setUp
  dsimp only
  rw [hretired.current]
  cases s.retire.current with
  | none => exact .pure ⟨rfl, hretired⟩
  | some pool =>
    refine (probeHeader_twins hretired).bind ?_
    rintro ⟨_, s'⟩ ⟨status, t'⟩ ⟨rfl, htwins⟩
    dsimp only at htwins ⊢
    by_cases hmore : status = .moreData
    · rw [if_pos hmore, if_pos hmore]
      exact .pure ⟨rfl, htwins.withBuffer (matched_nil m)⟩
    · rw [if_neg hmore, if_neg hmore]
      cases status.check "decode_header" with
      | error e => exact .pure ⟨rfl, htwins.withBuffer (matched_nil m)⟩
      | ok _ =>
        refine (htwins.answers fun g s => startEngine_under g s pool).bind ?_
        rintro ⟨_, s''⟩ ⟨answer, t''⟩ ⟨rfl, hstarted⟩
        exact .pure ⟨rfl, hstarted⟩

theorem arrange_twins (h : Twins l l' m s t) (flushing : Bool) :
    Agree (Beside l l' m) (s.arrange flushing) (t.arrange flushing) := by
  unfold arrange
  rw [h.phase]
  split
  · exact .ok ⟨rfl, h⟩
  · split
    · exact .ok ⟨rfl, h⟩
    · exact setUp_twins h

theorem advance_twins (hm : m < wordLimit) (h : Twins l l' m s t) (flushing : Bool)
    (dts pts : Option UInt64) :
    Agree (Beside l l' m) (s.advance flushing dts pts) (t.advance flushing dts pts) := by
  unfold advance
  refine (arrange_twins h flushing).bind ?_
  rintro ⟨_, s'⟩ ⟨answer, t'⟩ ⟨rfl, htwins⟩
  cases answer with
  | error e => exact .pure ⟨rfl, htwins⟩
  | ok goOn =>
    cases goOn with
    | false => exact .pure ⟨rfl, htwins⟩
    | true => exact decodeBuffer_twins hm htwins flushing dts pts

/-! ## Input -/

section Input

variable {size : LengthSize} {units : List FramedUnit}

/-- Both buffers take the units of a sample. -/
theorem accept_twins (h : Twins (some size) none m s t) (ha : Active s)
    (hu : ∀ u ∈ units, u.Plain ∧ u.data.length < 256 ^ size.bytes) :
    ∃ s' t', s.accept (some (writeRecords size.bytes (units.map (·.data)))) = .ok (.ok s') ∧
      t.accept (some (writeUnits units)) = .ok (.ok t') ∧
      Twins (some size) none (m + (writeUnits units).length + 1) s' t' := by
  have ha' : Active t := h.active.mpr ha
  obtain ⟨us, vs, hr, hs, ht, hle, hle'⟩ := h.buffers
  have hconverted := Reframed.converted fun u hmem => (hu u hmem).1
  have hboth := hr.append hconverted
  have hfits : ∀ p ∈ units.map (·.data), p.length < 256 ^ size.bytes := by
    intro p hp
    obtain ⟨u, hmem, rfl⟩ := List.mem_map.mp hp
    exact (hu u hmem).2
  have hlen := length_converted_le units
  rw [hs] at hle
  rw [ht] at hle'
  have hmatched : Matched (m + (writeUnits units).length + 1)
      (writeUnits (us ++ convertedUnits (units.map (·.data)))) (writeUnits (vs ++ units)) := by
    refine ⟨_, _, hboth, rfl, rfl, ?_, ?_⟩
    · rw [writeUnits_append, List.length_append]
      omega
    · rw [writeUnits_append, List.length_append]
      omega
  refine ⟨_, _, ?_, ?_, h.withBuffer hmatched⟩
  · rw [accept_active ha]
    simp only [appendInput, h.lengthSize, hs, toStartCodes_written hfits]
    rw [← writeUnits_append, blankEndOfSequence_plain hboth.plain]
    rfl
  · rw [accept_active ha']
    simp only [appendInput, h.lengthSize', ht]
    rw [← writeUnits_append, blankEndOfSequence_plain hboth.plain']
    rfl

theorem tryDecode_sample (h : Twins (some size) none m s t) (ha : Active s)
    (hu : ∀ u ∈ units, u.Plain ∧ u.data.length < 256 ^ size.bytes)
    (hm : m + (writeUnits units).length + 1 < wordLimit) (dts pts : Option UInt64) :
    Agree (Beside (some size) none (m + (writeUnits units).length + 1))
      (s.tryDecode (some (writeRecords size.bytes (units.map (·.data)))) dts pts)
      (t.tryDecode (some (writeUnits units)) dts pts) := by
  obtain ⟨s', t', hs, ht, htwins⟩ := accept_twins h ha hu
  unfold tryDecode
  rw [hs, ht]
  exact advance_twins hm htwins false dts pts

/-- Whether a failure is fatal does not depend on the framing. -/
theorem decode_twins {d d' : Option Bytes} {dts pts : Option UInt64}
    (h : Agree (Beside l l' m) (s.tryDecode d dts pts) (t.tryDecode d' dts pts)) :
    Agree (Beside l l' m) (s.decode d dts pts) (t.decode d' dts pts) := by
  unfold decode
  refine h.bind ?_
  rintro ⟨_, s'⟩ ⟨answer, t'⟩ ⟨rfl, htwins⟩
  cases answer with
  | ok status => exact .pure ⟨rfl, htwins⟩
  | error e =>
    dsimp only at htwins ⊢
    split
    · exact .pure ⟨rfl, htwins.blind (f := fun s => { s with phase := .failed }) fun _ _ => rfl⟩
    · exact .pure ⟨rfl, htwins⟩

/-- Draining ends alike, whether there is a stream or not. -/
theorem decode_none (hm : m < wordLimit) (h : Twins l l' m s t) (dts pts : Option UInt64) :
    Agree (Beside l l' m) (s.decode none dts pts) (t.decode none dts pts) := by
  by_cases ha : Active s
  · refine decode_twins ?_
    unfold tryDecode
    rw [accept_active ha, accept_active (h.active.mpr ha)]
    exact advance_twins hm h true dts pts
  · rw [decode_refused ha, decode_refused fun ha' => ha (h.active.mp ha')]
    exact .ok ⟨rfl, h⟩

end Input

/-! ## Taking down and opening -/

theorem tearDown_twins (h : Twins l l' m s t) : Twins none none m' s.tearDown t.tearDown := by
  have hreleased := (h.blind closeEngineDecoder_under).blind releasePool_under
  have hparams := hreleased.blind
    (f := fun s => { s with params := { s.params with sequence := {} } }) fun _ _ => rfl
  exact hparams.withInput none none (matched_nil m')

theorem restart_twins (h : Twins l l' m s t) (options : Options) :
    Twins none none m' (s.restart options) (t.restart options) := by
  have hdown : Twins none none m' s.tearDown t.tearDown := tearDown_twins h
  have hnew := hdown.blind (f := fun s => { s with
    params := { info := { fourcc := .nv12 } }
    clientSurfaces := options.surfaces?.getD 0
    phase := .opened }) fun _ _ => rfl
  exact hnew.blind startPool_under

theorem close_twins (h : Twins l l' m s t) :
    ∃ k k', Twins k k' m s.close t.close := by
  unfold close
  rw [h.phase]
  by_cases hp : s.phase = .closed
  · rw [if_pos hp, if_pos hp]
    exact ⟨l, l', h⟩
  · rw [if_neg hp, if_neg hp]
    exact ⟨none, none, (tearDown_twins h).blind
      (f := fun s => { s.askClose with phase := .closed }) fun _ _ => rfl⟩

theorem flush_twins (h : Twins l l' m s t) : Twins l l' m s.flush t.flush := by
  have hreset := (h.withBuffer (matched_nil m)).blind
    (f := fun s => if s.phase = .ready then s.resetEngine else s) fun g s => by
      rw [resetEngine_under, show (s.under g).phase = s.phase from rfl]
      split <;> rfl
  exact (hreset.blind dropPictures_under).blind releaseQueued_under

theorem bootstrap_twins {d d' : Bytes}
    (h : Agree (Beside l l' m) (s.tryDecode (some d) none none) (t.tryDecode (some d') none none)) :
    Agree (Beside l l' m) (s.bootstrap d) (t.bootstrap d') := by
  unfold bootstrap
  refine h.bind ?_
  rintro ⟨_, s'⟩ ⟨answer, t'⟩ ⟨rfl, htwins⟩
  cases answer with
  | error e => exact .pure ⟨rfl, htwins⟩
  | ok status => exact .pure ⟨rfl, htwins⟩

section Opening

variable {size : LengthSize} {sets : List FramedUnit}

/-- Where a call to open leaves both sessions: if it succeeded, the samples of the first have length
fields from then on. -/
def OpenedAlike (size : LengthSize) (m : Nat)
    (x y : Except OpenError Unit × Session SimulatedEngine) : Prop :=
  y.1 = x.1 ∧ ∃ l l', Twins l l' m x.2 y.2 ∧ (x.1 = .ok () → l = some size ∧ l' = none)

/-- The parameter sets go in with length fields of two bytes, or with start codes. -/
theorem feedHeader_twins (h : Twins none none m s t) (ha : Active s) {header : SequenceHeader}
    (hsets : header.sps ++ header.pps = sets.map (·.data))
    (hsize : LengthSize.ofNat? header.lengthSize = .ok size)
    (hu : ∀ u ∈ sets, u.Plain ∧ u.data.length < 65536)
    (hm : m + (writeUnits sets).length + 1 < wordLimit) :
    Agree (OpenedAlike size (m + (writeUnits sets).length + 1)) (s.feedHeader header)
      (t.bootstrap (writeUnits sets)) := by
  have hdata : header.data = writeRecords LengthSize.two.bytes (sets.map (·.data)) := by
    rw [← hsets]
    rfl
  unfold feedHeader
  rw [hdata, ← bind_pure (t.bootstrap (writeUnits sets))]
  refine (bootstrap_twins (tryDecode_sample (h.withLengths (some .two)) ha hu hm none none)).bind ?_
  rintro ⟨_, s'⟩ ⟨answer, t'⟩ ⟨rfl, htwins⟩
  cases answer with
  | error e => exact .pure ⟨rfl, _, _, htwins, nofun⟩
  | ok u =>
    dsimp only at htwins ⊢
    rw [hsize, htwins.lengthSize]
    exact .pure ⟨rfl, some size, none, htwins.withLengths (some size), fun _ => ⟨rfl, rfl⟩⟩

/-- Opening fails for the same reasons, or the parameter sets go in. -/
theorem tryOpen_twins (h : Twins l l' m s t) {hints : StreamHints} {extradata : Bytes}
    {header : SequenceHeader}
    (hheader : headerOf { hints with tag := .mvc1, extradata := extradata } = .ok (some header))
    (hsets : header.sps ++ header.pps = sets.map (·.data))
    (hsize : LengthSize.ofNat? header.lengthSize = .ok size) (hne : sets ≠ [])
    (hu : ∀ u ∈ sets, u.Plain ∧ u.data.length < 65536)
    (hm : m + (writeUnits sets).length + 1 < wordLimit) (options : Options) :
    Agree (OpenedAlike size (m + (writeUnits sets).length + 1))
      (s.tryOpen { hints with tag := .mvc1, extradata := extradata } options)
      (t.tryOpen { hints with tag := .amvc, extradata := writeUnits sets } options) := by
  have hsame : ∀ e : OpenError, OpenedAlike size (m + (writeUnits sets).length + 1)
      (.error e, s) (.error e, t) := fun e =>
    ⟨rfl, l, l', h.mono (Nat.le_add_right m ((writeUnits sets).length + 1)), nofun⟩
  have hnone : headerOf { hints with tag := .amvc, extradata := writeUnits sets } = .ok none := rfl
  have hsome : (writeUnits sets).isEmpty = false := by
    have hlen := length_le_writeUnits sets
    cases hw : writeUnits sets with
    | nil =>
      rw [hw] at hlen
      exact absurd (List.length_eq_zero_iff.mp (Nat.le_zero.mp hlen)) hne
    | cons b bs => rfl
  unfold tryOpen
  rw [h.phase]
  by_cases hp : s.phase = .closed
  · rw [if_pos hp, if_pos hp]
    exact .pure (hsame _)
  · rw [if_neg hp, if_neg hp]
    by_cases hc : hints.codec ≠ .h264 ∧ hints.codec ≠ .h264Mvc
    · simp only [hc, ne_eq, not_false_eq_true, and_self, ↓reduceIte]
      exact .pure (hsame _)
    · simp only [hc, hheader, hnone, hsome, ↓reduceIte]
      exact feedHeader_twins (restart_twins h options) (Or.inl rfl) hsets hsize hu hm

/-- A session that was opened takes samples; one that was not takes no input at all. -/
theorem open_twins (h : Twins l l' m s t) {hints : StreamHints} {extradata : Bytes}
    {header : SequenceHeader}
    (hheader : headerOf { hints with tag := .mvc1, extradata := extradata } = .ok (some header))
    (hsets : header.sps ++ header.pps = sets.map (·.data))
    (hsize : LengthSize.ofNat? header.lengthSize = .ok size) (hne : sets ≠ [])
    (hu : ∀ u ∈ sets, u.Plain ∧ u.data.length < 65536)
    (hm : m + (writeUnits sets).length + 1 < wordLimit) (options : Options) :
    Agree (fun x y => y.1 = x.1 ∧
        y.2.1 = { x.2.1 with tag := .amvc, extradata := writeUnits sets } ∧
        ∃ l l', Twins l l' (m + (writeUnits sets).length + 1) x.2.2 y.2.2 ∧
          (Active x.2.2 → l = some size ∧ l' = none))
      (s.open { hints with tag := .mvc1, extradata := extradata } options)
      (t.open { hints with tag := .amvc, extradata := writeUnits sets } options) := by
  unfold «open»
  refine (tryOpen_twins h hheader hsets hsize hne hu hm options).bind ?_
  rintro ⟨_, s'⟩ ⟨answer, t'⟩ ⟨rfl, k, k', htwins, hopened⟩
  dsimp only at htwins hopened ⊢
  cases answer with
  | ok u =>
    refine .pure ⟨rfl, rfl, k, k', ?_, fun _ => hopened rfl⟩
    exact htwins.blind
      (f := fun s => { s with stereoMode := StereoMode.ofHint hints.stereoMode }) fun _ _ => rfl
  | error e =>
    have hphase := htwins.phase
    dsimp only
    by_cases hp : s'.phase = .closed
    · rw [if_pos hp, if_pos (hphase.trans hp)]
      refine .pure ⟨rfl, rfl, k, k', htwins, fun ha => ?_⟩
      exact absurd ha (not_active_of_resting (Or.inr hp))
    · rw [if_neg hp, if_neg (hphase ▸ hp)]
      refine .pure ⟨rfl, rfl, none, none, ?_, fun ha => ?_⟩
      · exact (tearDown_twins htwins).blind (f := fun s => { s with phase := .idle }) fun _ _ => rfl
      · exact absurd ha (not_active_of_resting (Or.inl rfl))

end Opening

end Session

end Multiview
