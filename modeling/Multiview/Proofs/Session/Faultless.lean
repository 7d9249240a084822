import Multiview.Proofs.Engine.Progress
import Multiview.Proofs.Memory.Division
import Multiview.Proofs.Session.Blanking
import Multiview.Proofs.Session.Delivery
import Multiview.Proofs.Session.Twins

/-!
No operation ends in a fault. Every loop of a submission uses up an answer that was prepared, a byte of
the stream, or ends; input that is consumed is in the buffer; and frames of moderate size can always be
asked for. What it takes is an engine that is not busy for good, buffers that can be addressed, and frame
orders for all slices of the base view.
-/

namespace Multiview

open Outcome SimulatedEngine

/-! ## Input -/

theorem blankEndOfSequence_returns (buffer : Bytes) :
    Returns (blankEndOfSequence buffer) fun _ => True :=
  (blankEndOfSequence_blanks buffer).mono fun _ _ => trivial

namespace Session

variable {s t u : Session SimulatedEngine} {pool : PoolId}

theorem accept_returns (data : Option Bytes) (s : Session SimulatedEngine) :
    Returns (s.accept data) fun _ => True := by
  have happend : ∀ data, Returns (s.appendInput data) fun _ => True := by
    intro data
    unfold appendInput
    split
    · exact (blankEndOfSequence_returns _).bind fun _ _ => .pure trivial
    · split
      · exact .pure trivial
      · exact (blankEndOfSequence_returns _).bind fun _ _ => .pure trivial
  unfold accept
  cases data with
  | none => split <;> exact .ok trivial
  | some data =>
    split
    · exact .ok trivial
    · exact .ok trivial
    · exact .ok trivial
    · exact happend data
    · exact happend data

/-! ## Setting up -/

theorem askReadHeader_returns (h : s.engine.Moderate) :
    Returns s.askReadHeader fun x => x.2.engine.Moderate ∧
      (x.1.isError = false → x.2.params.info.Moderate) :=
  (readHeader_returns h s.buffer s.params).bind fun _ hx => .pure hx

theorem probeHeader_returns (h : s.engine.Moderate) :
    Returns s.probeHeader fun x => x.2.engine.Moderate ∧
      (x.1.isError = false → x.2.params.info.Moderate) := by
  unfold probeHeader
  refine (askReadHeader_returns h).bind ?_
  rintro ⟨status, t⟩ ⟨ht, hinfo⟩
  dsimp only at ht hinfo ⊢
  split
  · exact askReadHeader_returns ht
  · exact .pure ⟨ht, hinfo⟩

/-- Frames of moderate size are allocated, or refused. -/
theorem supply_returns {request : Request} (h : request.info.Moderate) (pool : PoolId)
    (info : FrameInfo) (memory : MemoryKind) (settings : Option TextureSettings) (pools : Pools) :
    Returns (pools.supply pool info memory settings request) fun _ => True := by
  unfold Pools.supply
  refine (Allocator.allocate_returns ((MixedFrames.backing []).answers _ _ h.fits)).bind ?_
  rintro ⟨answer, a, platform⟩ -
  cases answer with
  | error e => exact .pure trivial
  | ok response => exact .pure trivial

theorem supplyFrames_moderate (h : s.engine.Moderate) {request : Request}
    (hr : request.info.Moderate) (pool : PoolId) (memory : MemoryKind) :
    Returns (s.supplyFrames pool request memory) fun x => x.2.engine.Moderate := by
  have hsized : Request.info { request with
      suggested := poolSize request.suggested s.params.asyncDepth s.clientSurfaces memory }
      |>.Moderate := hr
  unfold supplyFrames
  dsimp only
  refine (supply_returns hsized _ _ _ _ _).bind ?_
  rintro ⟨answer, pools⟩ -
  cases answer with
  | error e => exact .pure h
  | ok response =>
    have hasked : Primed s.engine (askUseAllocator response.1
        { s with pools := pools, memory := memory }).2.engine := ⟨rfl, rfl, rfl, rfl⟩
    dsimp only
    split
    · exact .pure (hasked.moderate h)
    · exact .pure (hasked.moderate h)

theorem allocateFrames_moderate (h : s.engine.Moderate) (hi : s.params.info.Moderate)
    (pool : PoolId) : Returns (s.allocateFrames pool) fun x => x.2.engine.Moderate := by
  obtain ⟨t, memory, -, hneg, hengine, -, -⟩ := negotiate_settles s
  unfold allocateFrames
  rw [hneg]
  dsimp only
  split
  · exact .ok (hengine ▸ h)
  · exact supplyFrames_moderate (hengine ▸ h) hi pool memory

theorem primed_askInit (s : Session SimulatedEngine) : Primed s.engine s.askInit.2.engine := by
  change Primed s.engine (SimulatedEngine.init s.params s.engine).2
  unfold SimulatedEngine.init
  split
  · exact .refl _
  · exact ⟨rfl, rfl, rfl, rfl⟩

theorem startEngine_moderate (h : s.engine.Moderate) (hi : s.params.info.Moderate)
    (pool : PoolId) : Returns (s.startEngine pool) fun x => x.2.engine.Moderate := by
  unfold startEngine
  refine (allocateFrames_moderate h hi pool).bind ?_
  rintro ⟨answer, t⟩ ht
  cases answer with
  | error e => exact .pure ht
  | ok u =>
    have hinit := (primed_askInit t).moderate ht
    dsimp only
    split
    · exact .pure hinit
    · split
      · exact .pure hinit
      · exact .pure hinit

/-! ## Taking down -/

theorem primed_closeEngineDecoder (s : Session SimulatedEngine) :
    Primed s.engine s.closeEngineDecoder.engine := by
  unfold closeEngineDecoder
  split
  · exact ⟨rfl, rfl, rfl, rfl⟩
  · exact .refl _

theorem primed_releasePool (s : Session SimulatedEngine) :
    Primed s.engine s.releasePool.engine := by
  rw [releasePool_rest]
  exact .refl _

theorem primed_tearDown (s : Session SimulatedEngine) : Primed s.engine s.tearDown.engine :=
  (primed_closeEngineDecoder s).trans (primed_releasePool _)

theorem primed_restart (options : Options) (s : Session SimulatedEngine) :
    Primed s.engine (s.restart options).engine := primed_tearDown s

theorem primed_close (s : Session SimulatedEngine) : Primed s.engine s.close.engine := by
  unfold close
  split
  · exact .refl _
  · exact (primed_tearDown s).trans ⟨rfl, rfl, rfl, rfl⟩

theorem primed_flush (s : Session SimulatedEngine) : Primed s.engine s.flush.engine := by
  have hreset : Primed s.engine { s with buffer := [] }.resetEngine.engine := ⟨rfl, rfl, rfl, rfl⟩
  unfold flush
  dsimp only
  rw [releaseQueued_rest]
  split
  · exact hreset
  · exact .refl _

theorem primed_retire (s : Session SimulatedEngine) : Primed s.engine s.retire.engine := by
  unfold retire
  dsimp only
  split
  · exact (primed_closeEngineDecoder s).trans (primed_releasePool _)
  · exact .refl _

theorem setUp_moderate (h : s.engine.Moderate) :
    Returns s.setUp fun x => x.2.engine.Moderate := by
  have hretired := (primed_retire s).moderate h
  unfold setUp
  dsimp only
  generalize s.retire = t at hretired ⊢
  split
  · exact .pure hretired
  · rename_i pool _
    refine (probeHeader_returns hretired).bind ?_
    rintro ⟨status, u⟩ ⟨hu, hinfo⟩
    dsimp only at hu hinfo ⊢
    split
    · exact .pure hu
    · split
      · exact .pure hu
      · rename_i herror
        refine (startEngine_moderate hu (hinfo (EngineStatus.isError_of_check herror)) pool).bind ?_
        exact fun x hx => .pure hx

theorem arrange_moderate (h : s.engine.Moderate) (flushing : Bool) :
    Returns (s.arrange flushing) fun x => x.2.engine.Moderate := by
  unfold arrange
  split
  · exact .ok h
  · split
    · exact .ok h
    · exact setUp_moderate h

/-! ## Turns -/

theorem Tidied.primed (h : Tidied s t) : Primed s.engine t.engine := by
  obtain ⟨_, _, _, he⟩ := h.engine
  rw [he]
  exact ⟨rfl, rfl, rfl, rfl⟩

theorem handleBusy_primed (s : Session SimulatedEngine) (p : Submission) :
    Primed s.engine (s.handleBusy p).2.1.engine ∧ (s.handleBusy p).2.2.stream = p.stream := by
  unfold handleBusy
  dsimp only
  split
  · exact ⟨.refl _, rfl⟩
  · split
    · exact ⟨.refl _, rfl⟩
    · exact ⟨⟨rfl, rfl, rfl, rfl⟩, rfl⟩

theorem handleAnswer_primed (status : EngineStatus) (output : Option DecodedSurface)
    (s : Session SimulatedEngine) (p : Submission) :
    Yields (s.handleAnswer pool status output p) fun x =>
      Primed s.engine x.2.1.engine ∧ x.2.2.stream = p.stream := by
  refine (handleAnswer_tidied status output s p).mono ?_
  rintro ⟨_, _, _⟩ ⟨ht | rfl, _, _, _, rfl⟩
  · exact ⟨ht.primed, rfl⟩
  · exact ⟨.refl _, rfl⟩

/-- What a submission can use up yet: answers that were prepared, and bytes of the stream. -/
def outstanding (s : Session SimulatedEngine) (p : Submission) : Nat :=
  s.engine.patience + (p.stream.data.length - p.stream.offset)

/-- A turn that goes on uses something up. -/
structure Proceeds (s : Session SimulatedEngine) (p : Submission)
    (x : Bool × Session SimulatedEngine × Submission) : Prop where
  moderate : x.2.1.engine.Moderate
  consumed : ∃ offset, offset ≤ p.stream.data.length ∧
    x.2.2.stream = { p.stream with offset := offset }
  progress : x.1 = true → x.2.1.outstanding x.2.2 < s.outstanding p
  orders : x.2.1.engine.nextOrder.toNat + (x.2.2.stream.data.length - x.2.2.stream.offset) ≤
    s.engine.nextOrder.toNat + (p.stream.data.length - p.stream.offset)

theorem turn_proceeds (hs : Running pool s) (hm : s.engine.Moderate) {p : Submission}
    (hle : p.stream.offset ≤ p.stream.data.length) (hlt : p.stream.data.length < wordLimit)
    (hn : p.flushing = false → ∀ u us, sliceUnits p.stream.remaining = u :: us →
      u.isBaseSlice = true → s.engine.nextOrder.toNat + 1 < UInt32.size) :
    Returns (turn pool s p) (Proceeds s p) := by
  unfold turn
  split
  · exact .ok ⟨hm, ⟨_, hle, rfl⟩, nofun, Nat.le_refl _⟩
  · rename_i index work hfree
    obtain ⟨a, ha, hmoderate, ⟨offset, hoffset, hleft⟩, hprogress, horders⟩ :=
      decode_returns hm hle hlt p.flushing hn work s.pools.resources
    generalize hinput : (if p.flushing then none else some p.stream) = input at ha ⊢
    generalize hq : ({ p with stream := a.stream.getD p.stream } : Submission) = q
    have hask : s.askDecode input work =
        .ok (a.status, a.output, a.stream, s.submitted input work a) := askDecode_eq ha
    have hstream : q.stream = { p.stream with offset := offset } := by
      rw [← hq]
      exact hleft
    -- Neither queues nor resets change what the engine has prepared.
    have hafter : ∀ (t : Session SimulatedEngine) (r : Submission) (goOn : Bool),
        Primed a.engine t.engine → r.stream = q.stream →
        (Stops a.status a.output → goOn = false) → Proceeds s p (goOn, t, r) := by
      intro t r goOn ht hr hstops
      refine ⟨ht.moderate hmoderate, ⟨offset, hoffset, hr.trans hstream⟩, fun hgo => ?_, ?_⟩
      · have hless := hprogress.resolve_right fun h => by
          rw [hstops h] at hgo
          cases hgo
        unfold outstanding
        dsimp only
        rw [ht.patience, hr, ← hq]
        exact hless
      · dsimp only
        rw [ht.nextOrder, hr, ← hq]
        exact horders
    rw [hask]
    simp only [bind, Except.bind, hq]
    split
    · rename_i hbusy
      obtain ⟨hprimed, hsame⟩ := handleBusy_primed (s.submitted input work a) q
      refine .ok (hafter _ _ _ hprimed hsame ?_)
      rintro ⟨-, hstatus | hstatus⟩
      · rw [hbusy] at hstatus
        cases hstatus
      · rw [hbusy] at hstatus
        cases hstatus
    · have hreturns : Returns (handleAnswer pool a.status a.output (s.submitted input work a) q)
          fun _ => True := by
        rcases (SimulatedEngine.decode_sound input work _ _).result ha with hidled | ⟨-, d, hsliced⟩
        · have hrun : Running pool (s.submitted input work a) :=
            Fed.running ⟨.single (Or.inl (.submit _ hs.engineReady hs.current hfree hidled)),
              hs.engineReady, hs.current⟩ hs
          rw [hidled.output]
          exact (handleAnswer_idled hrun _ _).mono fun _ _ => trivial
        · exact (handleAnswer_sliced hs input hfree hsliced q).mono fun _ _ => trivial
      have hends : Yields (handleAnswer pool a.status a.output (s.submitted input work a) q)
          fun x => Stops a.status a.output → x.1 = false := fun x hx hstops =>
        handleAnswer_stops hstops q _ x hx
      refine ((hreturns.and (handleAnswer_primed _ _ _ q)).and hends).mono ?_
      rintro ⟨goOn, t, r⟩ ⟨⟨-, hprimed, hsame⟩, hstops⟩
      exact hafter t r goOn hprimed hsame hstops

/-- What holds of every turn of a call: its stream can be addressed, and the next slice of the base view
gets a frame order. -/
structure Feasible (visited : PoolId → Session SimulatedEngine → Submission → Prop) : Prop where
  next : ∀ {pool s p t q}, visited pool s p → turn pool s p = .ok (true, t, q) → visited pool t q
  addressable : ∀ {pool s p}, visited pool s p → p.stream.data.length < wordLimit
  orders : ∀ {pool s p}, visited pool s p → p.flushing = false →
    ∀ u us, sliceUnits p.stream.remaining = u :: us → u.isBaseSlice = true →
      s.engine.nextOrder.toNat + 1 < UInt32.size

section Calls

variable {visited : PoolId → Session SimulatedEngine → Submission → Prop}

/-- The turns of a submission come to an end. -/
theorem submitWithin_moderate (hv : Feasible visited) (fuel : Nat) (hs : Running pool s)
    (hm : s.engine.Moderate) {p : Submission} (hle : p.stream.offset ≤ p.stream.data.length)
    (hp : visited pool s p) (hfuel : s.outstanding p < fuel) :
    Returns (submitWithin pool fuel s p) fun x => Fed pool s x.1 ∧ x.1.engine.Moderate ∧
      ∃ offset, offset ≤ p.stream.data.length ∧ x.2.stream = { p.stream with offset := offset } := by
  induction fuel generalizing s p with
  | zero => cases hfuel
  | succ fuel ih =>
    unfold submitWithin
    obtain ⟨⟨goOn, t, q⟩, hturn, ⟨hmoderate, ⟨offset, hoffset, hstream⟩, hless, -⟩, hfed⟩ :=
      (turn_proceeds hs hm hle (hv.addressable hp) (hv.orders hp)).and (turn_sound hs p).yields
    dsimp only at hmoderate hstream hless hfed
    rw [hturn]
    cases goOn with
    | false => exact .ok ⟨hfed, hmoderate, offset, hoffset, hstream⟩
    | true =>
      have hle' : q.stream.offset ≤ q.stream.data.length := by
        rw [hstream]
        exact hoffset
      have hfuel' : t.outstanding q < fuel := by
        have hsmaller := hless rfl
        omega
      refine (ih (hfed.running hs) hmoderate hle' (hv.next hp hturn) hfuel').mono ?_
      rintro x ⟨hx, hmod, offset', hoffset', hstream'⟩
      rw [hstream] at hoffset' hstream'
      exact ⟨hfed.trans hx, hmod, offset', hoffset', hstream'⟩

theorem leftover_returns {buffer : Bytes} {p : Submission} (h : p.stream.offset ≤ buffer.length) :
    Returns (leftover buffer p) fun _ => True := by
  unfold leftover
  split
  · exact .ok trivial
  · split
    · exact .ok trivial
    · rw [dropExactly_of_le h]
      exact .ok trivial

theorem conclude_moderate (hs : Running pool s) (hm : s.engine.Moderate) {buffer : Bytes}
    {p : Submission} (h : p.stream.offset ≤ buffer.length) :
    Returns (s.conclude buffer p) fun x => x.2.engine.Moderate := by
  unfold conclude
  split
  · exact .pure hm
  · refine (leftover_returns h).bind fun rest _ => ?_
    have hrun : Running pool { s with buffer := rest } :=
      ((aside_edit hs.inStep.ready rest).fed hs).running hs
    dsimp only
    split
    · exact .pure hm
    · split
      · refine ((flushQueues_returns _ hrun).and (tidied_flushQueues _ _)).bind ?_
        rintro t ⟨-, htidied⟩
        exact .pure (htidied.primed.moderate hm)
      · exact .pure hm

theorem decodeBuffer_moderate (hv : Feasible visited) (hs : Running pool s)
    (hm : s.engine.Moderate) {flushing : Bool} {dts pts : Option UInt64}
    (hfirst : visited pool { s with buffer := [] }
      { flushing := flushing, stream := ⟨s.buffer, 0, pts, dts⟩ }) :
    Returns (s.decodeBuffer flushing dts pts) fun x => x.2.engine.Moderate := by
  have hrun : Running pool { s with buffer := [] } :=
    ((aside_edit hs.inStep.ready []).fed hs).running hs
  rw [decodeBuffer_eq hs.current]
  refine (submitWithin_moderate hv _ hrun hm (Nat.zero_le _) hfirst ?_).bind ?_
  · have hlimit := le_turnLimit s s.buffer.length
    unfold outstanding
    dsimp only
    omega
  · rintro ⟨t, p⟩ ⟨ht, hmoderate, offset, hoffset, hstream⟩
    dsimp only at ht hmoderate hoffset hstream
    refine conclude_moderate (ht.running hrun) hmoderate ?_
    rw [hstream]
    exact hoffset

/-- The first turn of a call is among the turns. -/
def Begins (visited : PoolId → Session SimulatedEngine → Submission → Prop) (data : Option Bytes)
    (s : Session SimulatedEngine) : Prop :=
  ∀ dts pts t u pool, s.accept data = .ok (.ok t) → t.arrange data.isNone = .ok (.ok true, u) →
    u.current = some pool → visited pool { u with buffer := [] }
      { flushing := data.isNone, stream := ⟨u.buffer, 0, pts, dts⟩ }

variable {data : Option Bytes} {dts pts : Option UInt64}

theorem tryDecode_moderate (hv : Feasible visited) (hin : InStep s) (hm : s.engine.Moderate)
    (hb : Begins visited data s) :
    Returns (s.tryDecode data dts pts) fun x => x.2.engine.Moderate := by
  unfold tryDecode
  obtain ⟨answer, haccept, -⟩ := accept_returns data s
  have hshape := (accept_sound data s).result haccept
  rw [haccept]
  cases answer with
  | error e => exact .pure hm
  | ok t =>
    obtain ⟨b, rfl⟩ := hshape t rfl
    generalize ht : ({ s with buffer := b } : Session SimulatedEngine) = t at haccept
    have htin : InStep t := ht ▸ (aside_edit hin.ready b).moves.inStep hin
    have htm : t.engine.Moderate := by
      rw [← ht]
      exact hm
    change Returns (t.advance data.isNone dts pts) _
    unfold advance
    obtain ⟨⟨answer, u⟩, harrange, humod, hprep, hready⟩ :=
      (arrange_moderate htm data.isNone).and (arrange_sound data.isNone htin).yields
    rw [harrange]
    cases answer with
    | error e => exact .pure humod
    | ok goOn =>
      cases goOn with
      | false => exact .pure humod
      | true =>
        have huin : InStep u := hprep.inStep htin
        obtain ⟨pool, hrun⟩ := huin.running (huin.ready (hready rfl))
        exact decodeBuffer_moderate hv hrun humod
          (hb dts pts t u pool haccept harrange hrun.current)

theorem decode_moderate (hv : Feasible visited) (hin : InStep s) (hm : s.engine.Moderate)
    (hb : Begins visited data s) :
    Returns (s.decode data dts pts) fun x => x.2.engine.Moderate := by
  rw [decode_eq]
  exact (tryDecode_moderate hv hin hm hb).bind fun x hx =>
    .pure (answered_keeps (q := fun s => s.engine.Moderate) hx fun _ h => h)

theorem bootstrap_moderate (hv : Feasible visited) (hin : InStep s) (hm : s.engine.Moderate)
    {data : Bytes} (hb : Begins visited (some data) s) :
    Returns (s.bootstrap data) fun x => x.2.engine.Moderate := by
  unfold bootstrap
  refine (tryDecode_moderate hv hin hm hb).bind ?_
  rintro ⟨answer, t⟩ ht
  cases answer with
  | ok status => exact .pure ht
  | error e => exact .pure ht

/-- Opening decodes the header that came with the stream, or the extradata. -/
theorem tryOpen_moderate (hv : Feasible visited) (hin : InStep s) (hm : s.engine.Moderate)
    {hints : StreamHints} {options : Options}
    (hheader : ∀ header, headerOf hints = .ok (some header) →
      Begins visited (some header.data) { s.restart options with lengthSize := some .two })
    (hextra : headerOf hints = .ok none →
      Begins visited (some hints.extradata) (s.restart options)) :
    Returns (s.tryOpen hints options) fun x => x.2.engine.Moderate := by
  have hrestarted := (primed_restart options s).moderate hm
  have hrin := Moves.inStep (moves_restart options hin) hin
  unfold tryOpen
  split
  · exact .pure hm
  · split
    · exact .pure hm
    · split
      · exact .pure hm
      · split
        · exact .pure hm
        · rename_i header hh
          have hsized := (aside_lengthSize hrin (some .two)).moves.inStep hrin
          unfold feedHeader
          refine (bootstrap_moderate hv hsized hrestarted (hheader header hh)).bind ?_
          rintro ⟨answer, t⟩ ht
          cases answer with
          | error e => exact .pure ht
          | ok u =>
            dsimp only
            split
            · exact .pure ht
            · exact .pure ht
        · rename_i hn
          split
          · exact .pure hrestarted
          · exact bootstrap_moderate hv hrin hrestarted (hextra hn)

theorem open_moderate (hv : Feasible visited) (hin : InStep s) (hm : s.engine.Moderate)
    {hints : StreamHints} {options : Options}
    (hheader : ∀ header, headerOf hints = .ok (some header) →
      Begins visited (some header.data) { s.restart options with lengthSize := some .two })
    (hextra : headerOf hints = .ok none →
      Begins visited (some hints.extradata) (s.restart options)) :
    Returns (s.open hints options) fun x => x.2.2.engine.Moderate := by
  unfold «open»
  refine (tryOpen_moderate hv hin hm hheader hextra).bind ?_
  rintro ⟨answer, t⟩ ht
  cases answer with
  | ok u => exact .pure ht
  | error e =>
    dsimp only
    split
    · exact .pure ht
    · exact .pure ((primed_tearDown t).moderate ht)

end Calls

end Session

/-! ## Operations of a client -/

namespace Custody

/-- What a client does with pictures is no concern of the engine. -/
theorem Step.engine {c c' : Custody} (h : Step c c') : c'.session.engine = c.session.engine := by
  cases h <;> rfl

theorem Steps.engine {c c' : Custody} (h : Steps c c') : c'.session.engine = c.session.engine := by
  induction h with
  | refl => rfl
  | tail _ hstep ih => exact hstep.engine.trans ih

end Custody

namespace Client

open Session

variable {c : Client SimulatedEngine} {op : Operation}

/-- The engine comes upon a slice of the base view for which no frame order is left: with it there would
be 2³² of them in all. -/
def Exhausted (s : Session SimulatedEngine) (p : Submission) : Prop :=
  p.flushing = false ∧ ∃ u us, sliceUnits p.stream.remaining = u :: us ∧ u.isBaseSlice = true ∧
    UInt32.size ≤ s.journal.countP Event.returnsBase + 1

/-- The device is not made busy for good, and at every turn of the operation the stream can be addressed
and the engine has not been handed too many slices of the base view. -/
structure Bearable (c : Client SimulatedEngine) (op : Operation) : Prop where
  patient : ∀ period, op = .prepare (.busy period) → period ≠ .always
  addressable : ∀ pool s p, c.Turns op pool s p → p.stream.data.length < wordLimit
  orders : ∀ pool s p, c.Turns op pool s p → ¬ Exhausted s p

theorem Turns.numbered {pool : PoolId} {s : Session SimulatedEngine} {p : Submission}
    (h : c.Turns op pool s p) (hc : Session.Accounted c.references c.session)
    (hn : c.session.Numbered) : s.Numbered := by
  induction h with
  | @first s t u data dts pts hd ht hu hcur =>
    have hs := hd.accounted hc
    have hsn : s.Numbered := by
      have hrestart : ∀ options, (c.session.restart options).Numbered := fun options =>
        (Moves.course (moves_restart options hc.inStep)).numbered hn
      cases hd with
      | decode dts pts => exact hn
      | drain => exact hn
      | header options h => exact hrestart options
      | extradata options h => exact hrestart options
    obtain ⟨b, rfl⟩ := (accept_sound data s).result ht t rfl
    have hin := (aside_edit hs.inStep.ready b).moves.inStep hs.inStep
    exact ((arrange_sound data.isNone hin).result hu).1.course.numbered hsn
  | next h ht ih =>
    have hrun := (h.accounted hc).2
    exact ((turn_sound hrun _).result ht).feeding.course.numbered ih

theorem Reachable.feasible (h : c.Reachable) (hb : c.Bearable op) : Feasible (c.Turns op) where
  next := Turns.next
  addressable := fun hp => hb.addressable _ _ _ hp
  orders := by
    intro pool s p hp hflushing u us hu hbase
    have hnumbered := hp.numbered h.accounted h.numbered
    by_contra hmany
    refine hb.orders pool s p hp ⟨hflushing, u, us, hu, hbase, ?_⟩
    rw [← hnumbered]
    exact Nat.le_of_not_lt hmany

theorem Decodes.begins {s : Session SimulatedEngine} {data : Option Bytes}
    (h : c.Decodes op s data) : Begins (c.Turns op) data s :=
  fun dts pts _ _ _ ha hu hc => .first dts pts h ha hu hc

/-- Every operation that can be borne comes to its answer. -/
theorem Reachable.perform_moderate (h : c.Reachable) (hm : c.session.engine.Moderate)
    (hb : c.Bearable op) : Returns (c.perform op) fun x => x.2.session.engine.Moderate := by
  have hin := h.accounted.inStep
  have hv := h.feasible hb
  have hclient : ∀ {x : Answer × Client SimulatedEngine} {taken taken' : List PictureId},
      Custody.Steps (c.custody taken) (x.2.custody taken') →
        Returns (pure x) fun x : Answer × Client SimulatedEngine => x.2.session.engine.Moderate :=
    fun hsteps => .pure (by
      have hsame := hsteps.engine
      exact hsame ▸ hm)
  cases op with
  | «open» hints options =>
    refine (open_moderate hv hin hm (fun header hh => Decodes.begins (.header options hh))
      fun hn => Decodes.begins (.extradata options hn)).bind ?_
    exact fun x hx => .pure hx
  | decode data dts pts =>
    exact (decode_moderate hv hin hm (Decodes.begins (.decode data dts pts))).bind
      fun x hx => .pure hx
  | drain =>
    have hcontrol : InStep (c.session.setControl (c.session.control.union .drain)) :=
      (aside_setControl hin _).moves.inStep hin
    exact Returns.bind (decode_moderate hv hcontrol hm (Decodes.begins .drain)) fun x hx => .pure hx
  | flush => exact .pure ((primed_flush c.session).moderate hm)
  | close => exact .pure ((primed_close c.session).moderate hm)
  | control flags => exact .pure hm
  | prepare p =>
    cases p with
    | busy period => exact .pure ⟨hb.patient period rfl, hm.width, hm.height⟩
    | inject status => exact .pure ⟨hm.busy, hm.width, hm.height⟩
    | slow n => exact .pure ⟨hm.busy, hm.width, hm.height⟩
  | take n => exact hclient (take_steps n [] c)
  | play => exact hclient (Session.playReady_steps _ c.session c.references [])
  | clear place => exact hclient (clear_steps place [] c)
  | drop place => exact hclient (drop_steps place [] c)
  | share place => exact hclient (share_steps place [] c)
  | mark place => exact hclient (mark_steps place [] c)
  | view place => exact .pure hm
  | dropShared place => exact hclient (dropShared_steps place [] c)

end Client

end Multiview
