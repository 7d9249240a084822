import Multiview.Proofs.Session.Talking

/-!
A session knows what mode its engine is in. Every call fits the calls before it, the engine holds
parameters exactly while the session takes it to be running, and what a phase promises is there. All
operations of a session keep this, whatever the device and the engine answer.
-/

namespace Multiview

open Outcome

namespace Pools

theorem grew_dropAll (ids : List PictureId) (s : Pools) :
    Platform.Grew s.platform (s.dropAll ids).platform := by
  unfold dropAll
  induction ids generalizing s with
  | nil => exact .refl _
  | cons id ids ih => exact (grew_drop id s).trans (ih (s.drop id))

end Pools

namespace Session

variable {s t : Session SimulatedEngine} {pool : PoolId}

theorem platform_releaseQueued (s : Session SimulatedEngine) :
    s.releaseQueued.pools.platform = s.pools.platform := by
  cases hc : s.current with
  | none => simp only [releaseQueued, hc]
  | some pool =>
    obtain ⟨pools, hp, _⟩ := steady_foldl_release pool s.queues.toList s.pools
    rw [releaseQueued_of_current hc, hp]

theorem grew_releasePool (s : Session SimulatedEngine) :
    Platform.Grew s.pools.platform s.releasePool.pools.platform := by
  have hdrop : Platform.Grew s.pools.platform s.dropPictures.releaseQueued.pools.platform := by
    rw [platform_releaseQueued]
    exact Pools.grew_dropAll s.pictures s.pools
  unfold releasePool
  dsimp only
  split
  · exact hdrop
  · exact hdrop.trans (Pools.grew_settle _ _)

/-- The mode that the engine should be in. -/
def mode (s : Session SimulatedEngine) : Mode :=
  if s.phase = .closed then .closed else if s.engineReady then .running else .idle

theorem mode_running (hp : s.phase ≠ .closed) (he : s.engineReady = true) : s.mode = .running := by
  simp [mode, hp, he]

theorem mode_idle (hp : s.phase ≠ .closed) (he : s.engineReady = false) : s.mode = .idle := by
  simp [mode, hp, he]

/-- The engine was called in order, and is in the mode that the session takes it to be in. -/
structure Attuned (s : Session SimulatedEngine) : Prop where
  reached : Mode.reached s.journal = some s.mode
  held : s.engine.params.isSome = s.engineReady
  stopped : s.phase = .closed → s.engineReady = false

namespace Attuned

theorem open_of_ready (h : Attuned s) (he : s.engineReady = true) : s.phase ≠ .closed := by
  intro hp
  rw [h.stopped hp] at he
  cases he

theorem serving (h : Attuned s) (he : s.engineReady = true) : Serving s := ⟨he, h.held.trans he⟩

/-- Feeding a running engine leaves it running. -/
theorem served (h : Attuned s) (he : s.engineReady = true) (ht : Served s t) : Attuned t := by
  have hopen := h.open_of_ready he
  have hready : t.engineReady = true := ht.engineReady.trans he
  have hopen' : t.phase ≠ .closed := by
    rcases ht.phase with hp | hp
    · rw [hp]
      exact hopen
    · rw [hp]
      exact nofun
  obtain ⟨calls, hj, hstays⟩ := ht.journal
  refine ⟨?_, ?_, fun hp => absurd hp hopen'⟩
  · rw [hj, mode_running hopen' hready]
    exact hstays.reached (mode_running hopen he ▸ h.reached)
  · rw [ht.held, h.held, ht.engineReady]

/-- Talking to an idle engine leaves it idle. -/
theorem talked (h : Attuned s) (hp : s.phase ≠ .closed) (he : s.engineReady = false)
    (ht : Talked s t) : Attuned t := by
  have hready : t.engineReady = false := by
    rw [ht.rest]
    exact he
  have hopen : t.phase ≠ .closed := by
    rw [ht.rest]
    exact hp
  obtain ⟨calls, hj, hstays⟩ := ht.journal
  refine ⟨?_, ?_, fun h => absurd h hopen⟩
  · rw [hj, mode_idle hopen hready]
    exact hstays.reached (mode_idle hp he ▸ h.reached)
  · rw [ht.keeps.params, h.held, he, hready]

/-- The engine is not called. -/
theorem quiet (h : Attuned s) (hg : Platform.Grew s.pools.platform t.pools.platform)
    (he : t.engineReady = s.engineReady) (hp : t.phase = .closed ↔ s.phase = .closed)
    (hh : t.engine.params.isSome = s.engine.params.isSome) : Attuned t := by
  obtain ⟨calls, hj⟩ := hg
  have hj : t.journal = calls.map Event.device ++ s.journal := hj
  have hmode : t.mode = s.mode := by
    unfold mode
    simp only [hp, he]
  refine ⟨?_, ?_, fun hc => he.trans (h.stopped (hp.mp hc))⟩
  · rw [hj, hmode]
    exact (Mode.Stays.device s.mode calls).reached h.reached
  · rw [hh, h.held, he]

theorem closeEngineDecoder (h : Attuned s) : Attuned s.closeEngineDecoder := by
  unfold Session.closeEngineDecoder
  split
  · rename_i he
    have hopen := h.open_of_ready he
    have hreached : Mode.reached s.journal = some .running := mode_running hopen he ▸ h.reached
    have hmode : Session.mode { s.askCloseDecoder.2 with engineReady := false } = .idle :=
      mode_idle hopen rfl
    refine ⟨?_, rfl, fun _ => rfl⟩
    refine Eq.trans ?_ (congrArg some hmode.symm)
    change (Mode.reached s.journal).bind _ = _
    rw [hreached]
    rfl
  · exact h

theorem releasePool (h : Attuned s) : Attuned s.releasePool := by
  refine h.quiet (grew_releasePool s) (engineReady_releasePool s) ?_ ?_
  · rw [releasePool_rest]
  · rw [releasePool_rest]

end Attuned

/-- Nothing is left of a stream. -/
structure Vacant (s : Session SimulatedEngine) : Prop where
  engineReady : s.engineReady = false
  current : s.current = none
  queues : s.queues = {}
  pictures : s.pictures = []
  buffer : s.buffer = []

/-- A stream can be decoded. -/
def Active (s : Session SimulatedEngine) : Prop := s.phase = .opened ∨ s.phase = .ready

theorem not_active {p : Prop} (ho : s.phase ≠ .opened) (hr : s.phase ≠ .ready) : s.Active → p := by
  rintro (h | h)
  · exact absurd h ho
  · exact absurd h hr

theorem not_resting {p : Prop} (hi : s.phase ≠ .idle) (hc : s.phase ≠ .closed) :
    s.phase = .idle ∨ s.phase = .closed → p := by
  rintro (h | h)
  · exact absurd h hi
  · exact absurd h hc

/-- Between operations: what each phase promises, with an engine that agrees. -/
structure Settled (s : Session SimulatedEngine) : Prop where
  attuned : Attuned s
  /-- An engine without decoder has no frames to write to. -/
  bare : s.engineReady = false → s.engine.allocator = none
  ready : s.phase = .ready → s.engineReady = true ∧ s.params.sequence.viewCount = 2
  active : s.Active → s.current.isSome = true
  resting : s.phase = .idle ∨ s.phase = .closed → Vacant s

/-! ## Taking down -/

theorem allocator_closeEngineDecoder (hb : s.engineReady = false → s.engine.allocator = none) :
    s.closeEngineDecoder.engine.allocator = none := by
  unfold closeEngineDecoder
  split
  · rfl
  · rename_i he
    exact hb (Bool.eq_false_iff.mpr he)

theorem phase_closeEngineDecoder (s : Session SimulatedEngine) :
    s.closeEngineDecoder.phase = s.phase := by
  unfold closeEngineDecoder
  split <;> rfl

/-- Whatever the phase was, afterwards the engine is idle. -/
theorem Attuned.tearDown (h : Attuned s) : Attuned s.tearDown :=
  h.closeEngineDecoder.releasePool.quiet (.refl _) rfl Iff.rfl rfl

theorem phase_tearDown (s : Session SimulatedEngine) : s.tearDown.phase = s.phase := by
  unfold tearDown
  dsimp only
  rw [releasePool_rest]
  exact phase_closeEngineDecoder s

theorem vacant_tearDown (s : Session SimulatedEngine) : Vacant s.tearDown := by
  unfold tearDown
  dsimp only
  rw [releasePool_rest]
  exact ⟨engineReady_closeEngineDecoder s, rfl, rfl, rfl, rfl⟩

theorem allocator_tearDown (hb : s.engineReady = false → s.engine.allocator = none) :
    s.tearDown.engine.allocator = none := by
  unfold tearDown
  dsimp only
  rw [releasePool_rest]
  exact allocator_closeEngineDecoder hb

theorem Settled.toIdle (h : Settled s) (hp : s.phase ≠ .closed) :
    Settled { s.tearDown with phase := .idle } := by
  have hvacant := vacant_tearDown s
  refine ⟨?_, fun _ => allocator_tearDown h.bare, nofun, not_active nofun nofun, fun _ => ?_⟩
  · refine h.attuned.tearDown.quiet (.refl _) rfl ⟨nofun, fun hc => ?_⟩ rfl
    rw [phase_tearDown] at hc
    exact absurd hc hp
  · exact ⟨hvacant.engineReady, hvacant.current, hvacant.queues, hvacant.pictures, hvacant.buffer⟩

theorem Settled.restart (h : Settled s) (hp : s.phase ≠ .closed) (options : Options) :
    Settled (s.restart options) := by
  refine ⟨?_, fun _ => allocator_tearDown h.bare, nofun, fun _ => rfl, not_resting nofun nofun⟩
  refine h.attuned.tearDown.quiet (.refl _) rfl ⟨nofun, fun hc => ?_⟩ rfl
  rw [phase_tearDown] at hc
  exact absurd hc hp

theorem Settled.close (h : Settled s) : Settled s.close := by
  unfold Session.close
  split
  · exact h
  · rename_i hp
    have hvacant := vacant_tearDown s
    have hopen : s.tearDown.phase ≠ .closed := (phase_tearDown s).symm ▸ hp
    have hidle : Mode.reached s.tearDown.journal = some .idle :=
      mode_idle hopen hvacant.engineReady ▸ h.attuned.tearDown.reached
    refine ⟨⟨?_, h.attuned.tearDown.held, fun _ => hvacant.engineReady⟩,
      fun _ => allocator_tearDown h.bare, nofun, not_active nofun nofun, fun _ => ?_⟩
    · change (Mode.reached s.tearDown.journal).bind _ = _
      rw [hidle]
      rfl
    · exact ⟨hvacant.engineReady, hvacant.current, hvacant.queues, hvacant.pictures, hvacant.buffer⟩

/-- What a session notes for itself, and calls to the device. -/
theorem Settled.quiet (h : Settled s) (hg : Platform.Grew s.pools.platform t.pools.platform)
    (he : t.engineReady = s.engineReady) (hp : t.phase = s.phase)
    (hh : t.engine.params.isSome = s.engine.params.isSome)
    (ha : t.engine.allocator = s.engine.allocator) (hv : t.params.sequence = s.params.sequence)
    (hc : t.current = s.current) (hr : Vacant s → Vacant t) : Settled t where
  attuned := h.attuned.quiet hg he (by rw [hp]) hh
  bare := fun hn => ha.trans (h.bare (he ▸ hn))
  ready := fun hr => by
    obtain ⟨hready, hviews⟩ := h.ready (hp ▸ hr)
    exact ⟨he.trans hready, hv ▸ hviews⟩
  active := fun ha => by
    unfold Active at ha
    rw [hp] at ha
    exact hc ▸ h.active ha
  resting := fun hrest => hr (h.resting (hp ▸ hrest))

/-- Feeding a running engine. -/
theorem Settled.served (h : Settled s) (he : s.engineReady = true) (hc : s.current.isSome = true)
    (ht : Served s t) : Settled t where
  attuned := h.attuned.served he ht
  bare := fun hn => by
    rw [ht.engineReady, he] at hn
    cases hn
  ready := fun hr => by
    have hp : s.phase = .ready := by
      rcases ht.phase with hp | hp
      · exact hp.symm.trans hr
      · rw [hp] at hr
        cases hr
    rw [ht.params, ht.engineReady]
    exact h.ready hp
  active := fun _ => ht.current ▸ hc
  resting := fun hrest => by
    have hp : s.phase = .idle ∨ s.phase = .closed := by
      rcases ht.phase with hp | hp
      · exact hp ▸ hrest
      · rw [hp] at hrest
        rcases hrest with hrest | hrest
        · cases hrest
        · cases hrest
    have hready := (h.resting hp).engineReady
    rw [he] at hready
    cases hready

theorem Settled.fail (h : Settled s) (hp : s.phase ≠ .closed) :
    Settled { s with phase := .failed } where
  attuned := h.attuned.quiet (.refl _) rfl ⟨nofun, fun hc => absurd hc hp⟩ rfl
  bare := h.bare
  ready := nofun
  active := not_active nofun nofun
  resting := not_resting nofun nofun

theorem Settled.flush (h : Settled s) : Settled s.flush := by
  have hbuffer : Settled { s with buffer := [] } :=
    h.quiet (.refl _) rfl rfl rfl rfl rfl rfl fun hv =>
      ⟨hv.engineReady, hv.current, hv.queues, hv.pictures, rfl⟩
  have hdropped : ∀ u : Session SimulatedEngine, Settled u → u.buffer = [] →
      Settled u.dropPictures.releaseQueued := by
    intro u hu hb
    rw [releaseQueued_rest]
    refine hu.quiet ?_ rfl rfl rfl rfl rfl rfl fun hv => ?_
    · rw [platform_releaseQueued]
      exact Pools.grew_dropAll u.pictures u.pools
    · exact ⟨hv.engineReady, hv.current, rfl, rfl, hb⟩
  unfold Session.flush
  dsimp only
  split
  · rename_i hp
    have he : s.engineReady = true := (h.ready hp).1
    have hreset := served_resetEngine (hbuffer.attuned.serving he)
    exact hdropped _ (hbuffer.served he (h.active (Or.inr hp)) hreset) rfl
  · exact hdropped _ hbuffer rfl

/-! ## Setting up -/

theorem Settled.talked (h : Settled s) (hp : s.phase = .opened) (he : s.engineReady = false)
    (ht : Talked s t) : Settled t ∧ t.phase = .opened ∧ t.engineReady = false ∧
      t.current = s.current := by
  have hphase : t.phase = .opened := by
    rw [ht.rest]
    exact hp
  have hready : t.engineReady = false := by
    rw [ht.rest]
    exact he
  have hcur : t.current = s.current := by
    rw [ht.rest]
  have hopen : s.phase ≠ .closed := by
    rw [hp]
    exact nofun
  refine ⟨⟨h.attuned.talked hopen he ht, fun _ => ht.keeps.allocator.trans (h.bare he), ?_, ?_, ?_⟩,
    hphase, hready, hcur⟩
  · intro hr
    rw [hphase] at hr
    cases hr
  · intro _
    rw [hcur]
    exact h.active (Or.inl hp)
  · rw [hphase]
    exact fun hr => hr.elim nofun nofun

theorem Settled.retire (h : Settled s) (hp : s.phase = .opened) :
    Settled s.retire ∧ s.retire.phase = .opened ∧ s.retire.engineReady = false := by
  unfold Session.retire
  dsimp only
  generalize (s.current.any fun pool => (s.pools.pool pool).frames.isSome) = hasFrames
  split
  · have hphase : s.closeEngineDecoder.releasePool.startPool.phase = .opened := by
      change s.closeEngineDecoder.releasePool.phase = .opened
      rw [releasePool_rest]
      exact (phase_closeEngineDecoder s).trans hp
    have hready : s.closeEngineDecoder.releasePool.startPool.engineReady = false :=
      (engineReady_releasePool _).trans (engineReady_closeEngineDecoder s)
    have hallocator : s.closeEngineDecoder.releasePool.startPool.engine.allocator = none := by
      change s.closeEngineDecoder.releasePool.engine.allocator = none
      rw [releasePool_rest]
      exact allocator_closeEngineDecoder h.bare
    refine ⟨⟨?_, fun _ => hallocator, ?_, fun _ => rfl, ?_⟩, hphase, hready⟩
    · exact h.attuned.closeEngineDecoder.releasePool.quiet (.refl _) rfl Iff.rfl rfl
    · rw [hphase]
      exact nofun
    · rw [hphase]
      exact fun hr => hr.elim nofun nofun
  · rename_i hnone
    rw [Bool.or_eq_true, not_or] at hnone
    exact ⟨h, hp, Bool.eq_false_iff.mpr hnone.1⟩

/-- An engine that has read a header can be started. -/
theorem askInit_eq (h : s.params.sequence.viewCount ≠ 0) :
    s.askInit = (.ok, record (.init s.params .ok)
      { s with engine := { s.engine with inits := s.engine.inits + 1, params := some s.params } }) := by
  have hinit : DecodeEngine.init s.params s.engine =
      (.ok, { s.engine with inits := s.engine.inits + 1, params := some s.params }) := if_neg h
  unfold askInit
  rw [hinit]

theorem grew_supply (id : PoolId) (info : FrameInfo) (memory : MemoryKind)
    (settings : Option TextureSettings) (request : Request) (p : Pools) :
    Yields (p.supply id info memory settings request) fun x =>
      Platform.Grew p.platform x.2.platform := by
  refine (Pools.supply_sound id info memory settings request p).yields.mono ?_
  rintro ⟨answer, p'⟩ h
  cases answer with
  | error e =>
    obtain ⟨platform, hg, rfl, _⟩ := h
    exact hg
  | ok answer =>
    obtain ⟨a, platform, hg, _, rfl, _⟩ := h
    exact hg

/-- An idle engine that has frames and a header is started. -/
theorem Attuned.start (h : Attuned s) (hp : s.phase = .opened) (he : s.engineReady = false)
    (hv : s.params.sequence.viewCount ≠ 0) (allocator : AllocatorId) {phase : Phase}
    (hphase : phase ≠ .closed) :
    (askInit (askUseAllocator allocator s).2).1 = .ok ∧
      Attuned { (askInit (askUseAllocator allocator s).2).2 with
        engineReady := true, phase := phase } := by
  have hopen : s.phase ≠ .closed := by
    rw [hp]
    exact nofun
  have hreached : Mode.reached s.journal = some .idle := mode_idle hopen he ▸ h.reached
  have hinit := askInit_eq (s := (askUseAllocator allocator s).2) hv
  rw [hinit]
  refine ⟨rfl, ⟨?_, rfl, fun hc => absurd hc hphase⟩⟩
  refine Eq.trans ?_ (congrArg some (mode_running hphase rfl).symm)
  change ((Mode.reached s.journal).bind _).bind _ = _
  rw [hreached]
  rfl

/-- After a start the engine is running, even if the stream has too many views or too few. -/
theorem startEngine_settled (hs : Settled s) (hp : s.phase = .opened) (he : s.engineReady = false)
    (hc : s.current = some pool) (hv : s.params.sequence.viewCount ≠ 0) :
    Yields (s.startEngine pool) fun x => Settled x.2 ∧ Active x.2 ∧ x.1 ≠ .error .notOpened ∧
      (x.1 = .ok () → x.2.phase = .ready) := by
  unfold startEngine
  refine (allocateFrames_cases pool s).bind ?_
  rintro x ⟨t, ht, hviews, hcases⟩
  obtain ⟨ht, hp, he, hcur⟩ := hs.talked hp he ht
  rw [← hviews] at hv
  rw [← hcur] at hc
  rcases hcases with ⟨e, hne, rfl⟩ | ⟨request, memory, hsupply⟩
  · refine .pure ⟨ht, Or.inl hp, fun h => ?_, nofun⟩
    cases h
    exact hne rfl
  · obtain ⟨settings, request', answer, pools, hpools, e, hcases⟩ :=
      supplyFrames_cases pool request memory t x hsupply
    have hgrew := grew_supply pool t.params.info memory settings request' t.pools _ hpools
    obtain ⟨rfl, rfl⟩ | ⟨allocator, response, rfl, rfl⟩ := hcases
    · refine .pure ⟨ht.quiet hgrew rfl rfl rfl rfl rfl rfl fun hv => ?_, Or.inl hp, nofun, nofun⟩
      exact ⟨hv.engineReady, hv.current, hv.queues, hv.pictures, hv.buffer⟩
    · have hsupplied : Attuned { t with pools := pools, memory := memory } :=
        ht.attuned.quiet hgrew rfl Iff.rfl rfl
      have hneither : Phase.opened ≠ .closed ∧ Phase.ready ≠ .closed := ⟨nofun, nofun⟩
      obtain ⟨hok, hopened⟩ := hsupplied.start hp he hv allocator hneither.1
      have hready := (hsupplied.start hp he hv allocator hneither.2).2
      have hviews : (askInit (askUseAllocator allocator
          { t with pools := pools, memory := memory }).2).2.params.sequence = t.params.sequence := rfl
      have hphase : (askInit (askUseAllocator allocator
          { t with pools := pools, memory := memory }).2).2.phase = .opened := hp
      have hcur : (askInit (askUseAllocator allocator
          { t with pools := pools, memory := memory }).2).2.current = some pool := hc
      dsimp only
      generalize askInit (askUseAllocator allocator { t with pools := pools, memory := memory }).2 =
        started at hok hopened hready hviews hphase hcur ⊢
      rw [hok, EngineStatus.check_ok]
      dsimp only
      by_cases hcount : started.2.params.sequence.viewCount = 2
      · rw [if_neg (not_not_intro hcount)]
        refine .pure ⟨⟨hready, nofun, fun _ => ⟨rfl, hcount⟩, fun _ => ?_, not_resting nofun nofun⟩,
          Or.inr rfl, nofun, fun _ => rfl⟩
        exact Option.isSome_iff_exists.mpr ⟨pool, hcur⟩
      · rw [if_pos hcount]
        rw [← hphase] at hopened
        refine .pure ⟨⟨hopened, nofun, ?_, fun _ => ?_, ?_⟩, Or.inl hphase, nofun, nofun⟩
        · rw [hphase]
          exact nofun
        · exact Option.isSome_iff_exists.mpr ⟨pool, hcur⟩
        · rw [hphase]
          exact fun hr => hr.elim nofun nofun

theorem setUp_settled (hs : Settled s) (hp : s.phase = .opened) :
    Yields s.setUp fun x => Settled x.2 ∧ Active x.2 ∧ x.1 ≠ .error .notOpened ∧
      (x.1 = .ok true → x.2.phase = .ready) := by
  obtain ⟨hs, hp, he⟩ := hs.retire hp
  unfold setUp
  dsimp only
  generalize s.retire = t at hs hp he ⊢
  obtain ⟨pool, hc⟩ := Option.isSome_iff_exists.mp (hs.active (Or.inl hp))
  rw [hc]
  refine (talked_probeHeader t).bind ?_
  rintro ⟨status, u⟩ ⟨ht, hv⟩
  obtain ⟨hs, hp, he, hcur⟩ := hs.talked hp he ht
  dsimp only at hs hp he hcur hv ⊢
  have hempty : Settled { u with buffer := [] } :=
    hs.quiet (.refl _) rfl rfl rfl rfl rfl rfl fun hr =>
      ⟨hr.engineReady, hr.current, hr.queues, hr.pictures, rfl⟩
  split
  · exact .pure ⟨hempty, Or.inl hp, nofun, nofun⟩
  · split
    · exact .pure ⟨hempty, Or.inl hp, nofun, nofun⟩
    · rename_i hok
      refine (startEngine_settled hs hp he (hcur.trans hc) (hv (EngineStatus.isError_of_check hok))).bind ?_
      rintro ⟨answer, v⟩ ⟨hsettled, hactive, hne, hready⟩
      refine .pure ⟨hsettled, hactive, ?_, ?_⟩
      · cases answer with
        | error e =>
          intro h
          cases h
          exact hne rfl
        | ok _ => exact nofun
      · cases answer with
        | error e => exact nofun
        | ok _ => exact fun _ => hready rfl

/-! ## Operations -/

theorem arrange_settled (flushing : Bool) (hs : Settled s) (ha : Active s) :
    Yields (s.arrange flushing) fun x => Settled x.2 ∧ Active x.2 ∧ x.1 ≠ .error .notOpened ∧
      (x.1 = .ok true → x.2.phase = .ready) := by
  unfold arrange
  split
  · rename_i hp
    exact .ok ⟨hs, ha, nofun, fun _ => hp⟩
  · rename_i hp
    split
    · exact .ok ⟨hs, ha, nofun, nofun⟩
    · exact setUp_settled hs (ha.resolve_right hp)

/-- Once input is accepted, there is always a pool to decode into and an engine to be set up. -/
theorem advance_settled (flushing : Bool) (dts pts : Option UInt64) (hs : Settled s)
    (ha : Active s) :
    Yields (s.advance flushing dts pts) fun x =>
      Settled x.2 ∧ Active x.2 ∧ x.1 ≠ .error .notOpened := by
  unfold advance
  refine (arrange_settled flushing hs ha).bind ?_
  rintro ⟨answer, t⟩ ⟨ht, hactive, hne, hready⟩
  cases answer with
  | error e =>
    refine .pure ⟨ht, hactive, fun h => ?_⟩
    cases h
    exact hne rfl
  | ok goOn =>
    cases goOn with
    | false => exact .pure ⟨ht, hactive, nofun⟩
    | true =>
      have hphase : t.phase = .ready := hready rfl
      have he := (ht.ready hphase).1
      refine (served_decodeBuffer flushing dts pts (ht.attuned.serving he) (ht.active hactive)).mono ?_
      rintro x ⟨hserved, hn⟩
      refine ⟨ht.served he (ht.active hactive) hserved, ?_, hn⟩
      rcases hserved.phase with hp | hp
      · exact Or.inr (hp.trans hphase)
      · exact Or.inl hp

theorem accept_active (ha : Active s) (data : Option Bytes) :
    s.accept data = match data with
      | none => .ok (.ok s)
      | some data => s.appendInput data := by
  unfold accept
  cases data with
  | none => rcases ha with hp | hp <;> simp only [hp]
  | some data => rcases ha with hp | hp <;> simp only [hp]

/-- Input is refused before a stream is opened, after a fatal error and after closing. -/
theorem accept_cases (data : Option Bytes) (s : Session SimulatedEngine) :
    Yields (s.accept data) fun r =>
      Active s ∧ ((∃ e, r = .error (.record e)) ∨ ∃ b, r = .ok { s with buffer := b }) ∨
        ¬ Active s ∧ (r = .error .notOpened ∨ r = .error .stopped) := by
  have hinput : ∀ data, Yields (s.appendInput data) fun r =>
      (∃ e, r = .error (.record e)) ∨ ∃ b, r = .ok { s with buffer := b } := by
    intro data
    unfold appendInput
    split
    · exact (blankEndOfSequence_sound _).yields.bind fun b _ => .pure (Or.inr ⟨b, rfl⟩)
    · split
      · exact .pure (Or.inl ⟨_, rfl⟩)
      · exact (blankEndOfSequence_sound _).yields.bind fun b _ => .pure (Or.inr ⟨b, rfl⟩)
  by_cases ha : Active s
  · rw [accept_active ha]
    cases data with
    | none => exact .ok (Or.inl ⟨ha, Or.inr ⟨s.buffer, rfl⟩⟩)
    | some data => exact (hinput data).mono fun r hr => Or.inl ⟨ha, hr⟩
  · unfold accept
    cases hp : s.phase with
    | idle => exact .ok (Or.inr ⟨ha, Or.inl rfl⟩)
    | closed => exact .ok (Or.inr ⟨ha, Or.inl rfl⟩)
    | failed => exact .ok (Or.inr ⟨ha, Or.inr rfl⟩)
    | opened => exact absurd (Or.inl hp) ha
    | ready => exact absurd (Or.inr hp) ha

theorem not_active_of_resting (h : s.phase = .idle ∨ s.phase = .closed) : ¬ Active s := by
  rcases h with hp | hp
  · exact not_active (by rw [hp]; exact nofun) (by rw [hp]; exact nofun)
  · exact not_active (by rw [hp]; exact nofun) (by rw [hp]; exact nofun)

theorem Settled.buffer (h : Settled s) (ha : Active s) (buffer : Bytes) :
    Settled { s with buffer := buffer } where
  attuned := h.attuned.quiet (.refl _) rfl Iff.rfl rfl
  bare := h.bare
  ready := h.ready
  active := h.active
  resting := fun hr => absurd ha (not_active_of_resting hr)

theorem tryDecode_settled (data : Option Bytes) (dts pts : Option UInt64) (hs : Settled s) :
    Yields (s.tryDecode data dts pts) fun x =>
      Active s ∧ Settled x.2 ∧ Active x.2 ∧ x.1 ≠ .error .notOpened ∨
        ¬ Active s ∧ x.2 = s ∧ (x.1 = .error .notOpened ∨ x.1 = .error .stopped) := by
  unfold tryDecode
  refine (accept_cases data s).bind ?_
  rintro r (⟨ha, ⟨e, rfl⟩ | ⟨b, rfl⟩⟩ | ⟨ha, rfl | rfl⟩)
  · exact .pure (Or.inl ⟨ha, hs, ha, nofun⟩)
  · exact (advance_settled _ dts pts (hs.buffer ha b) ha).mono fun x hx => Or.inl ⟨ha, hx⟩
  · exact .pure (Or.inr ⟨ha, rfl, Or.inl rfl⟩)
  · exact .pure (Or.inr ⟨ha, rfl, Or.inr rfl⟩)

theorem Active.not_closed (h : Active s) : s.phase ≠ .closed :=
  fun hp => not_active_of_resting (Or.inr hp) h

/-- A session that cannot decode stays as it is. -/
theorem decode_settled (data : Option Bytes) (dts pts : Option UInt64) (hs : Settled s) :
    Yields (s.decode data dts pts) fun x => Settled x.2 ∧ (¬ Active s → x.2 = s) := by
  unfold decode
  refine (tryDecode_settled data dts pts hs).bind ?_
  rintro ⟨answer, t⟩ (⟨ha, ht, hactive, -⟩ | ⟨ha, rfl, hanswer⟩)
  · cases answer with
    | ok status => exact .pure ⟨ht, fun h => absurd ha h⟩
    | error e =>
      dsimp only
      split
      · exact .pure ⟨ht.fail hactive.not_closed, fun h => absurd ha h⟩
      · exact .pure ⟨ht, fun h => absurd ha h⟩
  · rcases hanswer with rfl | rfl
    · exact .pure ⟨hs, fun _ => rfl⟩
    · exact .pure ⟨hs, fun _ => rfl⟩

theorem Settled.control (h : Settled s) (control : Control) :
    Settled { s with control := control } :=
  h.quiet (.refl _) rfl rfl rfl rfl rfl rfl fun hv =>
    ⟨hv.engineReady, hv.current, hv.queues, hv.pictures, hv.buffer⟩

theorem drain_settled (hs : Settled s) :
    Yields s.drain fun x => Settled x.2 ∧ (¬ Active s → x.2.phase = s.phase) :=
  (decode_settled none none none (hs.control _)).mono fun x hx =>
    ⟨hx.1, fun ha => by rw [hx.2 ha]⟩

theorem bootstrap_settled (data : Bytes) (hs : Settled s) (ha : Active s) :
    Yields (s.bootstrap data) fun x => Settled x.2 ∧ Active x.2 := by
  unfold bootstrap
  refine (tryDecode_settled (some data) none none hs).bind ?_
  rintro ⟨answer, t⟩ (⟨-, ht, hactive, -⟩ | ⟨hn, -⟩)
  · cases answer with
    | ok status => exact .pure ⟨ht, hactive⟩
    | error e => exact .pure ⟨ht, hactive⟩
  · exact absurd ha hn

theorem Settled.lengthSize (h : Settled s) (size : Option LengthSize) :
    Settled { s with lengthSize := size } :=
  h.quiet (.refl _) rfl rfl rfl rfl rfl rfl fun hv =>
    ⟨hv.engineReady, hv.current, hv.queues, hv.pictures, hv.buffer⟩

theorem feedHeader_settled (header : SequenceHeader) (hs : Settled s) (ha : Active s) :
    Yields (s.feedHeader header) fun x => Settled x.2 ∧ Active x.2 := by
  unfold feedHeader
  refine (bootstrap_settled header.data (hs.lengthSize (some .two)) ha).bind ?_
  rintro ⟨answer, t⟩ ⟨ht, hactive⟩
  cases answer with
  | error e => exact .pure ⟨ht, hactive⟩
  | ok u =>
    dsimp only
    split
    · exact .pure ⟨ht, hactive⟩
    · exact .pure ⟨ht.lengthSize _, hactive⟩

/-- Opening fails on a closed session, and never closes one. -/
theorem tryOpen_settled (hints : StreamHints) (options : Options) (hs : Settled s) :
    Yields (s.tryOpen hints options) fun x => Settled x.2 ∧
      (s.phase = .closed → x = (.error .closed, s)) ∧ (s.phase ≠ .closed → x.2.phase ≠ .closed) := by
  have hrefused : ∀ e : OpenError, s.phase ≠ .closed → Yields (pure (.error e, s))
      fun x : Except OpenError Unit × Session SimulatedEngine => Settled x.2 ∧
        (s.phase = .closed → x = (.error .closed, s)) ∧
        (s.phase ≠ .closed → x.2.phase ≠ .closed) :=
    fun e hp => .pure ⟨hs, fun h => absurd h hp, fun _ => hp⟩
  unfold tryOpen
  split
  · rename_i hp
    exact .pure ⟨hs, fun _ => rfl, fun h => absurd hp h⟩
  · rename_i hp
    have hrestart := hs.restart hp options
    have hopened : ∀ {x : Except OpenError Unit × Session SimulatedEngine},
        Settled x.2 ∧ Active x.2 → Settled x.2 ∧ (s.phase = .closed → x = (.error .closed, s)) ∧
          (s.phase ≠ .closed → x.2.phase ≠ .closed) :=
      fun hx => ⟨hx.1, fun h => absurd h hp, fun _ => hx.2.not_closed⟩
    split
    · exact hrefused _ hp
    · split
      · exact hrefused _ hp
      · split
        · exact hrefused _ hp
        · exact (feedHeader_settled _ hrestart (Or.inl rfl)).mono fun x hx => hopened hx
        · split
          · exact .pure (hopened ⟨hrestart, Or.inl rfl⟩)
          · exact (bootstrap_settled _ hrestart (Or.inl rfl)).mono fun x hx => hopened hx

theorem open_settled (hints : StreamHints) (options : Options) (hs : Settled s) :
    Yields (s.open hints options) fun x => Settled x.2.2 ∧
      (s.phase = .closed → x.2.2.phase = .closed) := by
  unfold «open»
  refine (tryOpen_settled hints options hs).bind ?_
  rintro ⟨answer, t⟩ ⟨ht, hclosed, hopen⟩
  cases answer with
  | ok u =>
    refine .pure ⟨?_, fun h => by cases hclosed h⟩
    exact ht.quiet (.refl _) rfl rfl rfl rfl rfl rfl fun hv =>
      ⟨hv.engineReady, hv.current, hv.queues, hv.pictures, hv.buffer⟩
  | error e =>
    dsimp only
    split
    · rename_i hp
      exact .pure ⟨ht, fun _ => hp⟩
    · rename_i hp
      refine .pure ⟨ht.toIdle hp, fun h => ?_⟩
      cases hclosed h
      exact absurd h hp

theorem phase_close (s : Session SimulatedEngine) : s.close.phase = .closed := by
  unfold close
  split
  · rename_i hp
    exact hp
  · rfl

theorem phase_flush (s : Session SimulatedEngine) : s.flush.phase = s.phase := by
  unfold flush
  dsimp only
  rw [releaseQueued_rest]
  split <;> rfl

end Session

end Multiview
