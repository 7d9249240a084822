import Multiview.Proofs.Config.Extracted
import Multiview.Proofs.Session.Talking

/-!
Opening a stream whose parameter sets are in a configuration record. What is read out of the record is
fed to the engine as records with lengths of two bytes, and these can always be converted, so that no
stream is refused because its own parameter sets could not be. This holds for any engine.
-/

namespace Multiview

open Outcome

namespace Session

variable {σ : Type}

/-- The answer is not that records could not be converted. -/
def Converts {α : Type} (answer : Except DecodeError α) : Prop := ∀ e, answer ≠ .error (.record e)

/-- Input that can be converted is taken over. -/
theorem accept_converts {data : Bytes} {s : Session σ}
    (h : ∀ size, s.lengthSize = some size → ∃ out, toStartCodes size data = .ok out) :
    Yields (s.accept (some data)) fun x => Converts x := by
  have happend : Yields (s.appendInput data) fun x => Converts x := by
    unfold appendInput
    split
    · exact Yields.bind (p := fun _ => True) (fun _ _ => trivial) fun _ _ => .pure nofun
    · rename_i size hsize
      obtain ⟨out, hout⟩ := h size hsize
      rw [hout]
      exact Yields.bind (p := fun _ => True) (fun _ _ => trivial) fun _ _ => .pure nofun
  unfold accept
  split
  · exact .ok nofun
  · exact .ok nofun
  · exact .ok nofun
  · exact happend
  · exact happend

variable [DecodeEngine σ]

/-! ## Errors of the engine and of the device -/

theorem supplyFrames_converts (pool : PoolId) (request : Request) (memory : MemoryKind)
    (s : Session σ) : Yields (s.supplyFrames pool request memory) fun x => Converts x.1 := by
  unfold supplyFrames
  dsimp only
  refine Yields.bind (p := fun _ => True) (fun _ _ => trivial) ?_
  rintro ⟨answer, pools⟩ -
  cases answer with
  | error e => exact .pure nofun
  | ok frames =>
    dsimp only
    split
    · exact .pure nofun
    · exact .pure nofun

theorem allocateFrames_converts (pool : PoolId) (s : Session σ) :
    Yields (s.allocateFrames pool) fun x => Converts x.1 := by
  have hrefused := negotiate_refusal s
  unfold allocateFrames
  split
  · rename_i e t heq
    rw [heq] at hrefused
    obtain ⟨refusal, rfl⟩ := hrefused e rfl
    exact .ok nofun
  · split
    · exact .ok nofun
    · exact supplyFrames_converts _ _ _ _

theorem startEngine_converts (pool : PoolId) (s : Session σ) :
    Yields (s.startEngine pool) fun x => Converts x.1 := by
  unfold startEngine
  refine (allocateFrames_converts pool s).bind ?_
  rintro ⟨answer, t⟩ ht
  cases answer with
  | error e => exact .pure fun e' he => ht e' (congrArg _ (Except.error.inj he))
  | ok u =>
    dsimp only
    split
    · exact .pure nofun
    · split
      · exact .pure nofun
      · exact .pure nofun

theorem setUp_converts (s : Session σ) : Yields s.setUp fun x => Converts x.1 := by
  unfold setUp
  dsimp only
  split
  · exact .pure nofun
  · rename_i pool _
    refine Yields.bind (p := fun _ => True) (fun _ _ => trivial) ?_
    rintro ⟨status, t⟩ -
    dsimp only
    split
    · exact .pure nofun
    · split
      · exact .pure nofun
      · refine (startEngine_converts pool t).bind ?_
        rintro ⟨answer, u⟩ hu
        cases answer with
        | error e => exact .pure fun e' he => hu e' (congrArg _ (Except.error.inj he))
        | ok v => exact .pure nofun

theorem decodeBuffer_converts (flushing : Bool) (dts pts : Option UInt64) (s : Session σ) :
    Yields (s.decodeBuffer flushing dts pts) fun x => Converts x.1 := by
  unfold decodeBuffer submit
  dsimp only
  split
  · exact .pure nofun
  · simp only [bind_assoc]
    refine Yields.bind (p := fun _ => True) (fun _ _ => trivial) ?_
    rintro ⟨t, p⟩ -
    simp only [pure_bind]
    unfold conclude
    split
    · exact .pure nofun
    · refine Yields.bind (p := fun _ => True) (fun _ _ => trivial) fun rest _ => ?_
      dsimp only
      split
      · exact .pure nofun
      · split
        · exact Yields.bind (p := fun _ => True) (fun _ _ => trivial) fun _ _ => .pure nofun
        · exact .pure nofun

theorem advance_converts (flushing : Bool) (dts pts : Option UInt64) (s : Session σ) :
    Yields (s.advance flushing dts pts) fun x => Converts x.1 := by
  have harrange : Yields (s.arrange flushing) fun x => Converts x.1 := by
    unfold arrange
    split
    · exact .ok nofun
    · split
      · exact .ok nofun
      · exact setUp_converts s
  unfold advance
  refine harrange.bind ?_
  rintro ⟨answer, t⟩ ht
  cases answer with
  | error e => exact .pure fun e' he => ht e' (congrArg _ (Except.error.inj he))
  | ok ready =>
    cases ready with
    | false => exact .pure nofun
    | true => exact decodeBuffer_converts flushing dts pts t

/-! ## The sequence header -/

/-- Opening did not fail because records could not be converted, neither those of the header nor what is
set up behind them. -/
def HeaderConverts (answer : Except OpenError Unit) : Prop :=
  ∀ e, answer ≠ .error (.record e) ∧ answer ≠ .error (.sequenceHeader (.record e))

theorem bootstrap_converts {data : Bytes} {s : Session σ}
    (h : ∀ size, s.lengthSize = some size → ∃ out, toStartCodes size data = .ok out) :
    Yields (s.bootstrap data) fun x => HeaderConverts x.1 := by
  have hdecode : Yields (s.tryDecode (some data) none none) fun x => Converts x.1 := by
    unfold tryDecode
    refine (accept_converts h).bind fun answer ha => ?_
    cases answer with
    | error e => exact .pure fun e' he => ha e' (congrArg _ (Except.error.inj he))
    | ok t => exact advance_converts _ _ _ t
  unfold bootstrap
  refine hdecode.bind ?_
  rintro ⟨answer, t⟩ ht
  cases answer with
  | ok status => exact .pure fun e => ⟨nofun, nofun⟩
  | error e =>
    refine .pure fun e' => ⟨nofun, fun he => ht e' ?_⟩
    cases he
    rfl

/-- The header that a record holds is converted, and the width of its length fields is one that there
is. -/
theorem feedHeader_converts {r : Bytes} {header : SequenceHeader}
    (h : Config.Extracted r header) (s : Session σ) :
    Yields (s.feedHeader header) fun x => HeaderConverts x.1 := by
  have hsize : ∀ size, some LengthSize.two = some size →
      ∃ out, toStartCodes size header.data = .ok out := by
    rintro _ ⟨⟩
    exact ⟨_, h.converted⟩
  unfold feedHeader
  refine (bootstrap_converts (s := { s with lengthSize := some .two }) hsize).bind ?_
  rintro ⟨answer, t⟩ ht
  cases answer with
  | error e => exact .pure ht
  | ok u =>
    have hwidth : LengthSize.ofNat? header.lengthSize =
        .ok ⟨header.lengthSize, h.one_le, h.le_four⟩ := dif_pos ⟨h.one_le, h.le_four⟩
    dsimp only
    rw [hwidth]
    exact .pure fun e => ⟨nofun, nofun⟩

theorem headerOf_extracted {hints : StreamHints} {header : SequenceHeader}
    (h : headerOf hints = .ok (some header)) : ∃ r, Config.Extracted r header := by
  unfold headerOf at h
  split at h
  · cases hrecord : Config.secondViewRecord hints.extradata with
    | error e =>
      rw [hrecord] at h
      cases h
    | ok r =>
      rw [hrecord] at h
      cases hheader : Config.sequenceHeader r with
      | error e =>
        simp only [bind, Except.bind, hheader] at h
        cases h
      | ok header' =>
        simp only [bind, Except.bind, hheader] at h
        cases h
        exact ⟨r, Config.sequenceHeader_extracted hheader⟩
  · cases h

theorem lengthSize_restart (options : Options) (s : Session σ) :
    (s.restart options).lengthSize = none := rfl

theorem open_converts (hints : StreamHints) (options : Options) (s : Session σ) :
    Yields (s.open hints options) fun x => HeaderConverts x.1 := by
  have htry : Yields (s.tryOpen hints options) fun x => HeaderConverts x.1 := by
    unfold tryOpen
    split
    · exact .pure fun e => ⟨nofun, nofun⟩
    · split
      · exact .pure fun e => ⟨nofun, nofun⟩
      · split
        · exact .pure fun e => ⟨nofun, nofun⟩
        · split
          · exact .pure fun e => ⟨nofun, nofun⟩
          · rename_i header hheader
            obtain ⟨r, hr⟩ := headerOf_extracted hheader
            exact feedHeader_converts hr _
          · split
            · exact .pure fun e => ⟨nofun, nofun⟩
            · refine bootstrap_converts fun size hsize => ?_
              rw [lengthSize_restart] at hsize
              cases hsize
  unfold «open»
  refine htry.bind ?_
  rintro ⟨answer, t⟩ ht
  cases answer with
  | ok u => exact .pure fun e => ⟨nofun, nofun⟩
  | error e => exact .pure ht

end Session

/-- Parameter sets that are read out of a record can be converted, and what is not read is refused, with
no slice outside of the record. So no session fails to open because of its parameter sets, whatever the
tag of the stream and its extradata. -/
theorem parameterSets_convert (r : Bytes) :
    (∀ h, Config.sequenceHeader r = .ok h → Config.Extracted r h) ∧
      ((∀ h, Config.sequenceHeader r ≠ .ok h) →
        ∃ e, Config.sequenceHeader r = .error e ∧ Config.RecordRefusal e) ∧
      Config.copyHeader r = .ok ((Config.sequenceHeader r).map Config.copied) ∧
      ∀ {σ : Type} [DecodeEngine σ] (s : Session σ) (hints : StreamHints) (options : Options),
        Yields (s.open hints options) fun x => ∀ e,
          x.1 ≠ .error (.record e) ∧ x.1 ≠ .error (.sequenceHeader (.record e)) := by
  refine ⟨fun h => Config.sequenceHeader_extracted, fun hnone => ?_, ?_, fun s hints options => ?_⟩
  · cases hread : Config.sequenceHeader r with
    | ok h => exact absurd hread (hnone h)
    | error e => exact ⟨e, rfl, Config.sequenceHeader_refusal hread⟩
  · obtain ⟨x, hx, rfl⟩ := Config.copyHeader_returns r
    exact hx
  · exact s.open_converts hints options

/-- A stream with one SPS and one PPS in its extradata. -/
def configuredHints : StreamHints where
  tag := .mvc1
  extradata := [1] ++ Config.writeAtom (Config.manySets 1).bytes

theorem configured_convert :
    Config.Extracted (Config.manySets 1).bytes ⟨2, [[0x6f, 0x76]], [[0x68]]⟩ ∧
      (∃ e, Config.sequenceHeader [1, 0x76, 0, 0x28, 0xfd, 0xe1, 0] = .error e ∧
        Config.RecordRefusal e) ∧
      ∃ x, Session.open configuredHints [] ({ engine := {} } : Session SimulatedEngine) = .ok x ∧
        x.1 = .ok () ∧ ∀ e, x.1 ≠ .error (.sequenceHeader (.record e)) := by
  have hread : Config.sequenceHeader (Config.manySets 1).bytes =
      .ok ⟨2, [[0x6f, 0x76]], [[0x68]]⟩ := by decide +kernel
  have hrefused : Config.sequenceHeader [1, 0x76, 0, 0x28, 0xfd, 0xe1, 0] =
      .error .truncatedRecord := by decide +kernel
  have hopened : (Session.open configuredHints []
      ({ engine := {} } : Session SimulatedEngine)).toOption.map (·.1) = some (.ok ()) := by
    decide +kernel
  refine ⟨(parameterSets_convert _).1 _ hread, (parameterSets_convert _).2.1 fun h hh => ?_, ?_⟩
  · rw [hrefused] at hh
    cases hh
  · have hconvert := (parameterSets_convert []).2.2.2
      ({ engine := {} } : Session SimulatedEngine) configuredHints []
    cases hopen : Session.open configuredHints [] ({ engine := {} } : Session SimulatedEngine) with
    | error fault =>
      rw [hopen] at hopened
      cases hopened
    | ok x =>
      rw [hopen] at hopened
      exact ⟨x, rfl, Option.some.inj hopened, fun e => (hconvert x hopen e).2⟩

end Multiview
