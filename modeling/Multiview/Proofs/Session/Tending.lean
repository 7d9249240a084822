import Multiview.Proofs.Pairing.Schedule
import Multiview.Proofs.Session.Lifecycle
import Multiview.Proofs.Session.Serving

/-!
What becomes of the view queues while stream data is handed over. A surface that comes back makes its
queue longer, but then surfaces are paired until one of both queues is short, so that afterwards the
queues are as they were or one of them holds half of the operations in flight at most.
-/

namespace Multiview

open Outcome

/-- Number of surfaces in the shorter queue. -/
def ViewQueues.shorter (q : ViewQueues) : Nat := min q.base.length q.extra.length

namespace SimulatedEngine

theorem decode_traits (input : Option Bitstream) (work : WorkSurface) (e : SimulatedEngine)
    (r : Resources) : Yields (e.decode input work r) fun a => a.engine.traits = e.traits := by
  refine (decode_goneOn input work e r).mono ?_
  rintro a ⟨_, _, _, _, _, _, _, ha⟩
  rw [ha]

theorem sync_traits (point : SyncPoint) (e : SimulatedEngine) (r : Resources) :
    (e.sync point r).2.1.traits = e.traits := by
  unfold sync
  dsimp only
  split
  · rfl
  · split <;> rfl

theorem readHeader_traits (input : Bytes) (params : VideoParams) (e : SimulatedEngine) :
    Yields (e.readHeader input params) fun x => x.2.2.traits = e.traits :=
  (readHeader_engine input params e).mono fun _ hx => by rw [hx]

end SimulatedEngine

namespace Session

variable {s t u : Session SimulatedEngine} {pool : PoolId}

/-- Stream data was handed over. The queues are as they were, or one of them is short. -/
structure Tended (s t : Session SimulatedEngine) : Prop where
  config : t.config = s.config
  current : t.current = s.current
  traits : t.engine.traits = s.engine.traits
  queues : t.queues = s.queues ∨ t.queues.shorter ≤ s.config.asyncDepth.toNat / 2

theorem Tended.refl (s : Session SimulatedEngine) : Tended s s := ⟨rfl, rfl, rfl, Or.inl rfl⟩

theorem Tended.trans (h : Tended s t) (h' : Tended t u) : Tended s u where
  config := h'.config.trans h.config
  current := h'.current.trans h.current
  traits := h'.traits.trans h.traits
  queues := by
    rcases h'.queues with hq | hq
    · rw [hq]
      exact h.queues
    · exact Or.inr (h.config ▸ hq)

theorem Waited.traits (h : Waited s t) : t.engine.traits = s.engine.traits := by
  induction h with
  | refl => rfl
  | ask point _ ih => exact ih.trans (SimulatedEngine.sync_traits point _ _)

theorem Waited.tended (h : Waited s t) : Tended s t := by
  have ht := h.traits
  have hw := h.eq_withEngine
  refine ⟨?_, ?_, ht, Or.inl h.queues⟩
  · rw [hw]
    rfl
  · rw [hw]
    rfl

theorem tended_syncSurface (pool : PoolId) (surface : SurfaceInfo) (s : Session SimulatedEngine) :
    Tended s (s.syncSurface pool surface) ∧ (s.syncSurface pool surface).queues = s.queues := by
  have hw := waited_syncSurface pool surface s
  have hsettled : Tended s (s.settled pool surface) := ⟨rfl, rfl, rfl, Or.inl rfl⟩
  exact ⟨hsettled.trans hw.tended, hw.queues⟩

/-- A pairing step does not touch the queues. -/
theorem tended_perform (step : PairingStep) (s : Session SimulatedEngine) :
    Yields (s.perform pool step) fun t => Tended s t ∧ t.queues = s.queues := by
  cases step with
  | drop surface => exact .ok ⟨⟨rfl, rfl, rfl, Or.inl rfl⟩, rfl⟩
  | pair base extra =>
    obtain ⟨hb, hqb⟩ := tended_syncSurface pool base s
    obtain ⟨he, hqe⟩ := tended_syncSurface pool extra (s.syncSurface pool base)
    have hboth := hb.trans he
    have hq := hqe.trans hqb
    unfold perform
    dsimp only
    generalize syncSurface pool extra (syncSurface pool base s) = t at hboth hq ⊢
    refine Yields.bind (p := fun _ => True) (fun _ _ => trivial) fun _ _ => .pure ⟨?_, hq⟩
    exact hboth.trans ⟨rfl, rfl, rfl, Or.inl rfl⟩

/-- Pairing goes on until one of both queues holds less than `least` surfaces. -/
theorem tended_pairQueued {least : Nat} (hl : 1 ≤ least)
    (hle : least ≤ s.config.asyncDepth.toNat / 2 + 1) (hc : s.current = some pool) :
    Yields (s.pairQueued least) fun t =>
      Tended s t ∧ t.queues.shorter ≤ s.config.asyncDepth.toNat / 2 := by
  have hshort : (s.queues.resolve least).2.shorter ≤ s.config.asyncDepth.toNat / 2 :=
    Nat.le_of_lt_succ (Nat.lt_of_lt_of_le (ViewQueues.resolve_short hl s.queues) hle)
  rw [pairQueued_of_current hc]
  refine Yields.foldlM (fun t step ht => ?_) ⟨⟨rfl, rfl, rfl, Or.inr hshort⟩, hshort⟩
  exact (tended_perform step t).mono fun u hu => ⟨ht.1.trans hu.1, hu.2 ▸ ht.2⟩

theorem tended_flushQueues (engineEmpty : Bool) (hc : s.current = some pool) :
    Yields (s.flushQueues engineEmpty) (Tended s) := by
  unfold flushQueues
  split
  · exact .pure (.refl s)
  · refine (tended_pairQueued (Nat.le_refl 1) (Nat.le_add_left _ _) hc).bind ?_
    rintro t ⟨ht, -⟩
    split
    · refine .pure (ht.trans ?_)
      rw [releaseQueued_rest]
      exact ⟨rfl, rfl, rfl, Or.inr (Nat.zero_le _)⟩
    · exact .pure ht

/-- A surface that comes back makes a queue longer, but then surfaces are paired. -/
theorem tended_handleOutput (surface : SurfaceInfo) (hc : s.current = some pool) :
    Yields (s.handleOutput surface) (Tended s) := by
  generalize hpushed : s.withQueues (s.queues.push surface) = pushed
  obtain ⟨hconfig, hcurrent, htraits⟩ : pushed.config = s.config ∧ pushed.current = s.current ∧
      pushed.engine.traits = s.engine.traits := by
    rw [← hpushed]
    exact ⟨rfl, rfl, rfl⟩
  have hpair := tended_pairQueued (s := pushed) (Nat.le_add_left 1 (s.config.asyncDepth.toNat / 2))
    (Nat.le_of_eq (by rw [hconfig])) (hcurrent.trans hc)
  unfold handleOutput
  change Yields (pairQueued _ (s.withQueues (s.queues.push surface))) _
  rw [hpushed]
  refine hpair.mono fun t ht => ?_
  obtain ⟨ht, hshort⟩ := ht
  exact ⟨ht.config.trans hconfig, ht.current.trans hcurrent, ht.traits.trans htraits,
    Or.inr (hconfig ▸ hshort)⟩

theorem tended_handleAnswer (status : EngineStatus) (output : Option DecodedSurface)
    (p : Submission) (hc : s.current = some pool) :
    Yields (s.handleAnswer pool status output p) fun x => Tended s x.2.1 := by
  unfold handleAnswer
  dsimp only
  split
  · exact .ok ⟨rfl, rfl, rfl, Or.inl rfl⟩
  · split
    · split
      · exact .pure (.refl s)
      · rename_i surface pools _
        have hmarked : Tended s { s with pools := pools } := ⟨rfl, rfl, rfl, Or.inl rfl⟩
        refine (tended_handleOutput (s := { s with pools := pools }) surface hc).bind fun t ht => ?_
        exact .pure (hmarked.trans ht)
    · exact .ok (.refl s)

theorem tended_handleBusy (p : Submission) (s : Session SimulatedEngine) :
    Tended s (s.handleBusy p).2.1 := by
  unfold handleBusy
  dsimp only
  split
  · exact ⟨rfl, rfl, rfl, Or.inl rfl⟩
  · split
    · exact ⟨rfl, rfl, rfl, Or.inl rfl⟩
    · exact ⟨rfl, rfl, rfl, Or.inl rfl⟩

theorem tended_turn (p : Submission) (hc : s.current = some pool) :
    Yields (turn pool s p) fun x => Tended s x.2.1 := by
  have hask : ∀ input work, Yields (s.askDecode input work) fun x => Tended s x.2.2.2 := by
    intro input work
    refine (SimulatedEngine.decode_traits input work s.engine s.pools.resources).bind ?_
    exact fun a ha => .pure ⟨rfl, rfl, ha, Or.inl rfl⟩
  unfold turn
  split
  · exact .ok (.refl s)
  · rename_i index work _
    refine (hask _ work).bind ?_
    rintro ⟨status, output, stream, t⟩ ht
    dsimp only at ht ⊢
    split
    · exact .pure (ht.trans (tended_handleBusy _ t))
    · exact (tended_handleAnswer _ _ _ (ht.current.trans hc)).mono fun x hx => ht.trans hx

theorem tended_submitWithin (fuel : Nat) (p : Submission) (hc : s.current = some pool) :
    Yields (submitWithin pool fuel s p) fun x => Tended s x.1 := by
  refine submitWithin_keeps (q := fun t _ => Tended s t) (fun t p ht => ?_) fuel (.refl s)
  exact (tended_turn p (ht.current.trans hc)).mono fun x hx => ht.trans hx

theorem tended_conclude (buffer : Bytes) (p : Submission) (hc : s.current = some pool) :
    Yields (s.conclude buffer p) fun x => Tended s x.2 := by
  have hedit : ∀ b, Tended s { s with buffer := b } := fun b => ⟨rfl, rfl, rfl, Or.inl rfl⟩
  have hflush : ∀ b engineEmpty, Yields (flushQueues engineEmpty { s with buffer := b }) (Tended s) :=
    fun b engineEmpty => (tended_flushQueues (s := { s with buffer := b }) engineEmpty hc).mono
      fun t ht => (hedit b).trans ht
  exact (conclude_keeps hedit hflush buffer p).mono fun x hx => hx.1

theorem tended_decodeBuffer (flushing : Bool) (dts pts : Option UInt64)
    (hc : s.current = some pool) :
    Yields (s.decodeBuffer flushing dts pts) fun x => Tended s x.2 := by
  have hedit : Tended s { s with buffer := [] } := ⟨rfl, rfl, rfl, Or.inl rfl⟩
  have hsubmit : Yields (submit ⟨s.buffer, 0, pts, dts⟩ flushing { s with buffer := [] })
      fun x => Tended s x.2 := by
    unfold submit
    split
    · exact .pure hedit
    · rename_i pool' hc'
      refine (tended_submitWithin _ _ hc').bind ?_
      rintro ⟨t, p⟩ ht
      exact .pure (hedit.trans ht)
  unfold decodeBuffer
  refine hsubmit.bind ?_
  rintro ⟨answer, t⟩ ht
  cases answer with
  | error e => exact .pure ht
  | ok p => exact (tended_conclude s.buffer p (ht.current.trans hc)).mono fun x hx => ht.trans hx

end Session

end Multiview
