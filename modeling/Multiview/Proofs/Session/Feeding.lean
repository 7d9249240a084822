import Multiview.Proofs.Session.Lifecycle

/-!
Handing stream data over in steps. Each turn of a submission hands a free surface to the engine and
pairs what came back, so that a submission only feeds the engine and makes pictures.
-/

namespace Multiview

open Outcome Relation

/-- What a step of the queues takes off them. -/
theorem ViewQueues.step?_cases {q q' : ViewQueues} {step : PairingStep}
    (h : q.step? = some (step, q')) :
    ∃ b base e extra, q = ⟨b :: base, e :: extra⟩ ∧
      (step = .pair b e ∧ b.order = e.order ∧ q' = ⟨base, extra⟩ ∨
        step = .drop b ∧ q' = ⟨base, e :: extra⟩ ∨ step = .drop e ∧ q' = ⟨b :: base, extra⟩) := by
  unfold step? at h
  split at h
  case h_2 => cases h
  case h_1 b base e extra =>
    refine ⟨b, base, e, extra, rfl, ?_⟩
    split at h
    · rename_i ho
      cases h
      exact Or.inl ⟨rfl, ho, rfl⟩
    · split at h
      · cases h
        exact Or.inr (Or.inl ⟨rfl, rfl⟩)
      · cases h
        exact Or.inr (Or.inr ⟨rfl, rfl⟩)

namespace Session

variable {s t : Session SimulatedEngine} {pool : PoolId}

/-- The engine is running on a pool. -/
structure Running (pool : PoolId) (s : Session SimulatedEngine) : Prop where
  inStep : InStep s
  engineReady : s.engineReady = true
  current : s.current = some pool

/-- The engine was fed while it was running. -/
structure Fed (pool : PoolId) (s t : Session SimulatedEngine) : Prop where
  feeding : Feeding s t
  engineReady : t.engineReady = true
  current : t.current = some pool

theorem Fed.running (h : Fed pool s t) (hs : Running pool s) : Running pool t :=
  ⟨h.feeding.inStep hs.inStep, h.engineReady, h.current⟩

theorem Running.fed (hs : Running pool s) : Fed pool s s := ⟨.refl, hs.engineReady, hs.current⟩

theorem Fed.trans {u : Session SimulatedEngine} (h : Fed pool s t) (h' : Fed pool t u) :
    Fed pool s u :=
  ⟨h.feeding.trans h'.feeding, h'.engineReady, h'.current⟩

theorem Waited.moves (h : Waited s t) : Moves s t := by
  induction h with
  | refl => exact .refl
  | ask point _ ih => exact .head (.wait _ point) ih

/-- A step off the queues can always be carried out: a pair is a pair of views. -/
theorem perform_returns (hs : Running pool s) {step : PairingStep} {queues : ViewQueues}
    (h : s.queues.step? = some (step, queues)) :
    Returns (perform pool step (s.withQueues queues)) (Fed pool s) := by
  obtain ⟨b, base, e, extra, hq, ⟨rfl, ho, rfl⟩ | ⟨rfl, rfl⟩ | ⟨rfl, rfl⟩⟩ :=
    ViewQueues.step?_cases h
  · have hb : b.info.viewId = 0 := hs.inStep.views.1 b (by rw [hq]; exact List.mem_cons_self)
    have he : e.info.viewId ≠ 0 := hs.inStep.views.2 e (by rw [hq]; exact List.mem_cons_self)
    have hfits : Fits b e := ⟨hb, he, ho⟩
    obtain ⟨t, ht, hw⟩ := perform_pair hfits pool (s.withQueues ⟨base, extra⟩)
    rw [ht]
    have hkeep := hw.eq_withEngine
    refine .ok ⟨.head (Or.inr (.pair hs.current hq hfits)) hw.moves.feeding, ?_, ?_⟩
    · rw [hkeep]
      exact hs.engineReady
    · rw [hkeep]
      exact hs.current
  · refine .ok ⟨.single (Or.inl ?_), hs.engineReady, hs.current⟩
    have hdrop : Move s ((s.withQueues ⟨base, s.queues.extra⟩).released pool b) :=
      .dropBase hs.current (by rw [hq])
    rw [hq] at hdrop
    exact hdrop
  · refine .ok ⟨.single (Or.inl ?_), hs.engineReady, hs.current⟩
    have hdrop : Move s ((s.withQueues ⟨s.queues.base, extra⟩).released pool e) :=
      .dropExtra hs.current (by rw [hq])
    rw [hq] at hdrop
    exact hdrop

theorem pairWithin_returns (least fuel : Nat) (hs : Running pool s) :
    Returns (pairWithin pool least fuel s) (Fed pool s) := by
  induction fuel generalizing s with
  | zero => exact .ok hs.fed
  | succ fuel ih =>
    unfold pairWithin
    split
    · split
      · exact .ok hs.fed
      · rename_i step queues hstep
        refine (perform_returns hs hstep).bind fun t ht => ?_
        exact (ih (ht.running hs)).mono fun u hu => ht.trans hu
    · exact .ok hs.fed

theorem pairQueued_returns (least : Nat) (hs : Running pool s) :
    Returns (s.pairQueued least) (Fed pool s) := by
  rw [pairQueued_eq hs.current]
  exact pairWithin_returns least _ hs

theorem flushQueues_returns (engineEmpty : Bool) (hs : Running pool s) :
    Returns (s.flushQueues engineEmpty) (Fed pool s) := by
  unfold flushQueues
  split
  · exact .pure hs.fed
  · refine (pairQueued_returns 1 hs).bind fun t ht => ?_
    split
    · have hrel := moves_releaseQueued (ht.running hs).inStep
      refine .pure (ht.trans ⟨hrel.feeding, ?_, ?_⟩)
      · exact (engineReady_releaseQueued t).trans ht.engineReady
      · exact (current_releaseQueued t).trans ht.current
    · exact .pure ht

/-- A step aside leaves a running engine running. -/
theorem Aside.fed (h : Aside s t) (hs : Running pool s) : Fed pool s t :=
  ⟨h.moves.feeding, h.engineReady.trans hs.engineReady, h.current.trans hs.current⟩

theorem handleBusy_fed (hs : Running pool s) (p : Submission) :
    Fed pool s (s.handleBusy p).2.1 := by
  have hcount : Fed pool s { s with busyAnswers := s.busyAnswers + 1 } :=
    Aside.fed (.edit hs.inStep.ready) hs
  unfold handleBusy
  dsimp only
  split
  · exact hcount
  · split
    · exact hcount
    · refine hcount.trans ⟨.single (Or.inl (.reset _ hs.engineReady)), hs.engineReady, hs.current⟩

/-- An answer without a surface. -/
theorem handleAnswer_idled (hs : Running pool s) (status : EngineStatus) (p : Submission) :
    Returns (s.handleAnswer pool status none p) fun x => Fed pool s x.2.1 := by
  unfold handleAnswer
  dsimp only
  split
  · refine .ok (Aside.fed ?_ hs)
    exact .edit fun h => by cases h
  · exact .ok hs.fed

theorem askDecode_sound (input : Option Bitstream) (work : WorkSurface)
    (s : Session SimulatedEngine) :
    Sound (s.askDecode input work) fun x =>
      ∃ a, x = (a.status, a.output, a.stream, s.submitted input work a) ∧
        (s.engine.Idled s.pools.resources a ∨
          ∃ d, SimulatedEngine.Sliced work s.engine s.pools.resources a d) := by
  refine (SimulatedEngine.decode_sound input work s.engine s.pools.resources).bind fun a ha => ?_
  exact .pure ⟨a, rfl, ha.imp id And.right⟩

/-- A surface that came back is queued and paired at once. -/
theorem handleAnswer_sliced {index : Nat} {work : WorkSurface} {a : DecodeAnswer SimulatedEngine}
    {d : DecodedSurface} (hs : Running pool s) (input : Option Bitstream)
    (hf : s.pools.freeSurface? pool = some (index, work))
    (ha : SimulatedEngine.Sliced work s.engine s.pools.resources a d) (p : Submission) :
    Returns (handleAnswer pool a.status a.output (s.submitted input work a) p) fun x =>
      Fed pool s x.2.1 := by
  obtain ⟨found, hfound⟩ := Pools.exists_find? hf
  rw [← ha.mid] at hfound
  have hmark := Pools.markQueued_eq pool d (s.submitted input work a).pools
  have hsame : ((s.submitted input work a).pools.pool pool).find? d.mid = some found := hfound
  rw [hsame] at hmark
  have hreceive : Fed pool s ((s.submitted input work a).received pool found d) :=
    ⟨.single (Or.inl (.receive input hs.engineReady hs.current hf ha hfound)), hs.engineReady,
      hs.current⟩
  have hstatus : a.status ≠ .incompatibleParams := by
    rw [ha.status]
    exact nofun
  unfold handleAnswer
  rw [if_neg hstatus, ha.output]
  dsimp only
  rw [hmark]
  refine (pairQueued_returns _ (hreceive.running hs)).bind fun t ht => ?_
  exact .pure (hreceive.trans ht)

/-- Each turn of a submission feeds the running engine. -/
theorem turn_sound (hs : Running pool s) (p : Submission) :
    Sound (turn pool s p) fun x => Fed pool s x.2.1 := by
  unfold turn
  split
  · exact .ok hs.fed
  · rename_i index work hfree
    refine (askDecode_sound _ work s).bind ?_
    rintro x ⟨a, rfl, ha⟩
    dsimp only
    rcases ha with ha | ⟨d, ha⟩
    · have hidle : Fed pool s (s.submitted (if p.flushing then none else some p.stream) work a) :=
        ⟨.single (Or.inl (.submit _ hs.engineReady hs.current hfree ha)), hs.engineReady,
          hs.current⟩
      split
      · exact .pure (hidle.trans (handleBusy_fed (hidle.running hs) _))
      · rw [ha.output]
        exact (handleAnswer_idled (hidle.running hs) _ _).sound.mono fun x hx => hidle.trans hx
    · have hbusy : a.status ≠ .deviceBusy := by
        rw [ha.status]
        exact nofun
      rw [if_neg hbusy]
      exact (handleAnswer_sliced hs _ hfree ha _).sound

/-- A submission feeds the running engine, however many turns it takes. -/
theorem submitWithin_sound (fuel : Nat) (hs : Running pool s) (p : Submission) :
    Sound (submitWithin pool fuel s p) fun x => Fed pool s x.1 := by
  induction fuel generalizing s p with
  | zero => exact .error nofun
  | succ fuel ih =>
    unfold submitWithin
    refine (turn_sound hs p).bind ?_
    rintro ⟨goOn, t, p'⟩ ht
    dsimp only
    split
    · exact (ih (ht.running hs) p').mono fun x hx => ht.trans hx
    · exact .pure ht

theorem submit_sound (stream : Bitstream) (flushing : Bool) (hs : Running pool s) :
    Sound (s.submit stream flushing) fun x => Fed pool s x.2 := by
  unfold submit
  split
  · exact .pure hs.fed
  · rename_i pool' hc
    have hpool : pool' = pool := Option.some.inj (hc.symm.trans hs.current)
    subst hpool
    refine (submitWithin_sound _ hs _).bind ?_
    rintro ⟨t, p⟩ ht
    exact .pure ht

theorem conclude_sound (buffer : Bytes) (p : Submission) (hs : Running pool s) :
    Sound (s.conclude buffer p) fun x => Fed pool s x.2 := by
  have hedit : ∀ b, Fed pool s { s with buffer := b } :=
    fun b => (aside_edit hs.inStep.ready b).fed hs
  unfold conclude
  split
  · exact .pure (hedit buffer)
  · refine (leftover_sound buffer p).bind fun rest _ => ?_
    have hrest := hedit rest
    dsimp only
    split
    · exact .pure hrest
    · split
      · refine (flushQueues_returns _ (hrest.running hs)).sound.bind fun t ht => ?_
        exact .pure (hrest.trans ht)
      · exact .pure hrest

theorem decodeBuffer_sound (flushing : Bool) (dts pts : Option UInt64) (hs : Running pool s) :
    Sound (s.decodeBuffer flushing dts pts) fun x => Fed pool s x.2 := by
  have hedit := (aside_edit hs.inStep.ready []).fed hs
  unfold decodeBuffer
  refine (submit_sound ⟨s.buffer, 0, pts, dts⟩ flushing (hedit.running hs)).bind ?_
  rintro ⟨answer, t⟩ ht
  have hst := hedit.trans ht
  cases answer with
  | error e => exact .pure hst
  | ok p => exact (conclude_sound s.buffer p (hst.running hs)).mono fun x hx => hst.trans hx

end Session

end Multiview
