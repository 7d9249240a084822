import Multiview.Proofs.Engine.Protocol
import Multiview.Proofs.Session.InStep

/-!
What handing over stream data leaves alone. The engine is only asked to decode, to wait and to start
again; it keeps its parameters and its allocator; the device is not touched; frames stay with their
pools and allocators, even if some are filled; and pictures are made of the current pool only.
-/

namespace Multiview

open Outcome Relation

namespace SimulatedEngine

/-- The engine goes on with the parameters and frames that it was given. -/
structure Keeps (e e' : SimulatedEngine) : Prop where
  params : e'.params = e.params
  allocator : e'.allocator = e.allocator

theorem decodeSlice_refilled (params : VideoParams) (u : NalUnit) (stream : Bitstream)
    (work : WorkSurface) (e : SimulatedEngine) (r : Resources) :
    Yields (e.decodeSlice params u stream work r) fun a =>
      Refilled r.allocators a.resources.allocators := by
  unfold decodeSlice
  refine (consume_sound stream u.stop).yields.bind fun stream' _ => ?_
  refine (nextPicture_rest u e).bind fun x _ => ?_
  dsimp only
  split
  · exact .pure (.refl _)
  · rename_i id _
    refine ((r.lock work.lock).fillLuma_sound id work.mid _).yields.bind fun r' hr => .pure ?_
    exact hr.2.refilled

theorem decode_keeps (input : Option Bitstream) (work : WorkSurface) (e : SimulatedEngine)
    (r : Resources) :
    Yields (e.decode input work r) fun a =>
      Keeps e a.engine ∧ Refilled r.allocators a.resources.allocators := by
  have hunlock := Refilled.of_eq (unlockAll_allocators (e.inFlight.map (·.2)) r)
  have hrefilled : Yields (e.decode input work r) fun a =>
      Refilled r.allocators a.resources.allocators := by
    unfold decode
    split
    · exact .ok (.refl _)
    · exact .ok (.refl _)
    · exact .ok (.refl _)
    · dsimp only [completeAll]
      split
      · exact .ok hunlock
      · exact .ok hunlock
      · split
        · exact (consume_sound _ _).yields.bind fun _ _ => .pure hunlock
        · exact (decodeSlice_refilled _ _ _ work _ _).mono fun a ha => hunlock.trans ha
  intro a ha
  obtain ⟨_, _, _, _, _, _, _, he⟩ := decode_goneOn input work e r a ha
  exact ⟨⟨by rw [he], by rw [he]⟩, hrefilled a ha⟩

theorem sync_params (point : SyncPoint) (e : SimulatedEngine) (r : Resources) :
    (e.sync point r).2.1.params = e.params := by
  unfold sync
  dsimp only
  split
  · rfl
  · split <;> rfl

end SimulatedEngine

namespace Session

variable {s t u : Session SimulatedEngine} {pool : PoolId}

/-- The engine is running. -/
structure Serving (s : Session SimulatedEngine) : Prop where
  engineReady : s.engineReady = true
  held : s.engine.params.isSome = true

/-- Stream data was handed over and surfaces that came back were paired. -/
structure Served (s t : Session SimulatedEngine) : Prop where
  config : t.config = s.config
  control : t.control = s.control
  engineReady : t.engineReady = s.engineReady
  current : t.current = s.current
  params : t.params = s.params
  phase : t.phase = s.phase ∨ t.phase = .opened
  held : t.engine.params.isSome = s.engine.params.isSome
  allocator : t.engine.allocator = s.engine.allocator
  journal : ∃ calls : List EngineCall, t.journal = calls.map .engine ++ s.journal ∧
    Mode.running.Stays (calls.map .engine)
  device : t.pools.platform.device = s.pools.platform.device
  pools : Pools.Steady s.pools t.pools
  allocators : Refilled s.pools.resources.allocators t.pools.resources.allocators
  table : ∃ made, t.pools.pictures = s.pools.pictures ++ made ∧
    ∀ p ∈ made, p.isAlive = true ∧ s.current = some p.pool

theorem Served.serving (h : Served s t) (hs : Serving s) : Serving t :=
  ⟨h.engineReady.trans hs.engineReady, h.held.trans hs.held⟩

/-- Whatever the session notes for itself, and any change to surfaces of its pools. -/
theorem Served.edit {phase : Phase} {buffer : Bytes} {queues : ViewQueues}
    {pictures : List PictureId} {busyAnswers : Nat} {pools : List Pool}
    (hp : phase = s.phase ∨ phase = .opened)
    (hs : Pools.Steady s.pools { s.pools with pools := pools }) :
    Served s { s with
      phase := phase
      buffer := buffer
      queues := queues
      pictures := pictures
      busyAnswers := busyAnswers
      pools := { s.pools with pools := pools } } where
  config := rfl
  control := rfl
  engineReady := rfl
  current := rfl
  params := rfl
  phase := hp
  held := rfl
  allocator := rfl
  journal := ⟨[], rfl, .nil _⟩
  device := rfl
  pools := hs
  allocators := .refl _
  table := ⟨[], by simp, by simp⟩

theorem Served.refl (s : Session SimulatedEngine) : Served s s := .edit (Or.inl rfl) (.of_eq rfl)

theorem Served.trans (h : Served s t) (h' : Served t u) : Served s u where
  config := h'.config.trans h.config
  control := h'.control.trans h.control
  engineReady := h'.engineReady.trans h.engineReady
  current := h'.current.trans h.current
  params := h'.params.trans h.params
  phase := by
    rcases h'.phase with hp | hp
    · rw [hp]
      exact h.phase
    · exact Or.inr hp
  held := h'.held.trans h.held
  allocator := h'.allocator.trans h.allocator
  journal := by
    obtain ⟨calls, hj, hc⟩ := h.journal
    obtain ⟨calls', hj', hc'⟩ := h'.journal
    refine ⟨calls' ++ calls, by rw [hj', hj, List.map_append, List.append_assoc], ?_⟩
    rw [List.map_append]
    exact hc'.append hc
  device := h'.device.trans h.device
  pools := h.pools.trans h'.pools
  allocators := h.allocators.trans h'.allocators
  table := by
    obtain ⟨made, ht, hm⟩ := h.table
    obtain ⟨made', ht', hm'⟩ := h'.table
    refine ⟨made ++ made', by rw [ht', ht, List.append_assoc], fun p hp => ?_⟩
    rcases List.mem_append.mp hp with hp | hp
    · exact hm p hp
    · obtain ⟨ha, hc⟩ := hm' p hp
      exact ⟨ha, h.current.symm.trans hc⟩

/-- The engine was called, and nothing else was done. -/
theorem served_record {e : SimulatedEngine} {r : Resources} {call : EngineCall}
    (hh : e.params.isSome = s.engine.params.isSome) (ha : e.allocator = s.engine.allocator)
    (hr : Refilled s.pools.resources.allocators r.allocators)
    (hc : Mode.running.after call = some .running) :
    Served s (record call ({ s with engine := e }.withResources r)) where
  config := rfl
  control := rfl
  engineReady := rfl
  current := rfl
  params := rfl
  phase := Or.inl rfl
  held := hh
  allocator := ha
  journal := ⟨[call], rfl, .single hc⟩
  device := rfl
  pools := .of_eq rfl
  allocators := hr
  table := ⟨[], by simp [record, withResources], by simp⟩

theorem served_askDecode (input : Option Bitstream) (work : WorkSurface)
    (s : Session SimulatedEngine) :
    Yields (s.askDecode input work) fun x => Served s x.2.2.2 := by
  refine (SimulatedEngine.decode_keeps input work s.engine s.pools.resources).bind ?_
  intro a ⟨hk, hr⟩
  exact .pure (served_record (congrArg Option.isSome hk.params) hk.allocator hr rfl)

theorem served_askSync (point : SyncPoint) (s : Session SimulatedEngine) :
    Served s (s.askSync point).2 :=
  served_record (congrArg Option.isSome (SimulatedEngine.sync_params point _ _))
    (sync_allocator point _ _) (.of_eq (sync_allocators point _ _)) rfl

theorem served_resetEngine (hs : Serving s) : Served s s.resetEngine :=
  served_record (by rw [hs.held]; rfl) rfl (.of_eq (SimulatedEngine.unlockAll_allocators _ _)) rfl

theorem served_waitFor (point : SyncPoint) (attempts : Nat) (s : Session SimulatedEngine) :
    Served s (s.waitFor point attempts) := by
  induction attempts generalizing s with
  | zero => exact .refl s
  | succ attempts ih =>
    have hask := served_askSync point s
    simp only [waitFor]
    split
    · exact hask.trans (ih _)
    · exact hask

theorem served_syncSurface (pool : PoolId) (surface : SurfaceInfo) (s : Session SimulatedEngine) :
    Served s (s.syncSurface pool surface) := by
  have hsettle : Served s (s.settled pool surface) :=
    .edit (Or.inl rfl) (Pools.steady_modifySurface pool surface.index Surface.settle s.pools)
  unfold syncSurface
  rw [Pools.takeSync_eq]
  dsimp only
  split
  · exact hsettle
  · exact hsettle.trans (served_waitFor _ _ _)

theorem served_perform (step : PairingStep) (hc : s.current = some pool) :
    Yields (s.perform pool step) (Served s) := by
  cases step with
  | drop surface =>
    exact .ok (.edit (Or.inl rfl)
      (Pools.steady_modifySurface pool surface.index Surface.release s.pools))
  | pair base extra =>
    have hsync := (served_syncSurface pool base s).trans (served_syncSurface pool extra _)
    unfold perform
    dsimp only
    generalize syncSurface pool extra (syncSurface pool base s) = t at hsync ⊢
    unfold Pools.join
    split
    · refine .pure (hsync.trans ?_)
      have hmade : ∀ p ∈ [(⟨base, extra, pool, 1⟩ : Picture)],
          p.isAlive = true ∧ t.current = some p.pool := by
        intro p hp
        cases List.mem_singleton.mp hp
        exact ⟨rfl, hsync.current.trans hc⟩
      exact ⟨rfl, rfl, rfl, rfl, rfl, Or.inl rfl, rfl, rfl, ⟨[], rfl, .nil _⟩, rfl, .of_eq rfl,
        .refl _, ⟨_, rfl, hmade⟩⟩
    · exact .error _

theorem served_pairQueued (least : Nat) (s : Session SimulatedEngine) :
    Yields (s.pairQueued least) (Served s) := by
  unfold pairQueued
  split
  · exact .ok (.refl s)
  · rename_i pool hc
    dsimp only
    refine Yields.foldlM (fun t step ht => ?_) (.edit (Or.inl rfl) (.of_eq rfl))
    exact (served_perform step (ht.current.trans hc)).mono fun u hu => ht.trans hu

theorem steady_foldl_release (pool : PoolId) (xs : List SurfaceInfo) (p : Pools) :
    ∃ pools, xs.foldl (fun p x => p.release pool x.index) p = { p with pools := pools } ∧
      Pools.Steady p { p with pools := pools } := by
  induction xs generalizing p with
  | nil => exact ⟨p.pools, rfl, .of_eq rfl⟩
  | cons x xs ih =>
    obtain ⟨pools, hp, hs⟩ := ih (p.release pool x.index)
    exact ⟨pools, hp, (Pools.steady_modifySurface pool x.index Surface.release p).trans hs⟩

theorem served_releaseQueued (s : Session SimulatedEngine) : Served s s.releaseQueued := by
  cases hc : s.current with
  | none =>
    have hq : s.releaseQueued = { s with queues := {} } := by
      unfold releaseQueued
      simp only [hc]
    rw [hq]
    exact .edit (Or.inl rfl) (.of_eq rfl)
  | some pool =>
    obtain ⟨pools, hp, hs⟩ := steady_foldl_release pool s.queues.toList s.pools
    rw [releaseQueued_of_current hc, hp]
    exact .edit (Or.inl rfl) hs

theorem served_flushQueues (engineEmpty : Bool) (s : Session SimulatedEngine) :
    Yields (s.flushQueues engineEmpty) (Served s) := by
  unfold flushQueues
  split
  · exact .pure (.refl s)
  · refine (served_pairQueued 1 s).bind fun t ht => ?_
    split
    · exact .pure (ht.trans (served_releaseQueued t))
    · exact .pure ht

theorem served_handleAnswer (status : EngineStatus) (output : Option DecodedSurface)
    (p : Submission) (s : Session SimulatedEngine) :
    Yields (s.handleAnswer pool status output p) fun x => Served s x.2.1 := by
  unfold handleAnswer
  dsimp only
  split
  · exact .ok (.edit (Or.inr rfl) (.of_eq rfl))
  · split
    · rename_i d
      rw [Pools.markQueued_eq]
      cases (s.pools.pool pool).find? d.mid with
      | none => exact .pure (.refl s)
      | some index =>
        have hqueue : Served s { s with pools := s.pools.modifySurface pool index (·.queue d) } :=
          .edit (Or.inl rfl) (Pools.steady_modifySurface pool index _ s.pools)
        simp only [Option.map_some]
        refine (served_pairQueued _ _).bind fun t ht => .pure (hqueue.trans ?_)
        exact Served.trans (.edit (Or.inl rfl) (.of_eq rfl)) ht
    · exact .ok (.refl s)

theorem served_handleBusy (hs : Serving s) (p : Submission) : Served s (s.handleBusy p).2.1 := by
  have hcount : Served s { s with busyAnswers := s.busyAnswers + 1 } :=
    .edit (Or.inl rfl) (.of_eq rfl)
  unfold handleBusy
  dsimp only
  split
  · exact hcount
  · split
    · exact hcount
    · exact hcount.trans (served_resetEngine (hcount.serving hs))

theorem served_turn (hs : Serving s) (p : Submission) :
    Yields (turn pool s p) fun x => Served s x.2.1 := by
  unfold turn
  split
  · exact .ok (.refl s)
  · rename_i index work _
    refine (served_askDecode _ work s).bind ?_
    rintro ⟨status, output, stream, t⟩ ht
    dsimp only at ht ⊢
    split
    · exact .pure (ht.trans (served_handleBusy (ht.serving hs) _))
    · exact (served_handleAnswer _ _ _ t).mono fun x hx => ht.trans hx

theorem served_submitWithin (fuel : Nat) (hs : Serving s) (p : Submission) :
    Yields (submitWithin pool fuel s p) fun x => Served s x.1 := by
  refine submitWithin_keeps (q := fun t _ => Served s t) (fun t p ht => ?_) fuel (.refl s)
  exact (served_turn (ht.serving hs) p).mono fun x hx => ht.trans hx

/-- With a pool at hand a submission always comes to an answer of the engine. -/
theorem served_submit (stream : Bitstream) (flushing : Bool) (hs : Serving s)
    (hc : s.current.isSome = true) :
    Yields (s.submit stream flushing) fun x => Served s x.2 ∧ x.1 ≠ .error .notOpened := by
  unfold submit
  split
  · rename_i hn
    rw [hn] at hc
    cases hc
  · refine (served_submitWithin _ hs _).bind ?_
    rintro ⟨t, p⟩ ht
    exact .pure ⟨ht, nofun⟩

theorem served_conclude (buffer : Bytes) (p : Submission) (s : Session SimulatedEngine) :
    Yields (s.conclude buffer p) fun x => Served s x.2 ∧ x.1 ≠ .error .notOpened := by
  have hedit : ∀ b, Served s { s with buffer := b } := fun b => .edit (Or.inl rfl) (.of_eq rfl)
  have hflush : ∀ b engineEmpty, Yields (flushQueues engineEmpty { s with buffer := b }) (Served s) :=
    fun b engineEmpty => (served_flushQueues engineEmpty _).mono fun t ht => (hedit b).trans ht
  exact conclude_keeps hedit hflush buffer p

theorem served_decodeBuffer (flushing : Bool) (dts pts : Option UInt64) (hs : Serving s)
    (hc : s.current.isSome = true) :
    Yields (s.decodeBuffer flushing dts pts) fun x => Served s x.2 ∧ x.1 ≠ .error .notOpened := by
  have hedit : Served s { s with buffer := [] } := .edit (Or.inl rfl) (.of_eq rfl)
  unfold decodeBuffer
  refine (served_submit ⟨s.buffer, 0, pts, dts⟩ flushing (hedit.serving hs) hc).bind ?_
  rintro ⟨answer, t⟩ ⟨ht, hn⟩
  have hst := hedit.trans ht
  cases answer with
  | error e =>
    refine .pure ⟨hst, ?_⟩
    intro he
    cases he
    exact hn rfl
  | ok p => exact (served_conclude s.buffer p t).mono fun x hx => ⟨hst.trans hx.1, hx.2⟩

end Session

end Multiview
