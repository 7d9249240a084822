import Multiview.Proofs.Pool.Lookup
import Multiview.Session.Submit

/-!
What a session does when it carries out a step of the pairing. Waiting for the engine changes the
engine and what it works on, but neither pools nor pictures, so that a pair may be joined first and
waited for afterwards.
-/

namespace Multiview

/-- The surfaces are the views of one stereo picture. -/
def Fits (base extra : SurfaceInfo) : Prop :=
  base.info.viewId = 0 ∧ extra.info.viewId ≠ 0 ∧ base.order = extra.order

namespace Session

variable {σ : Type}

/-- The session with the engine of another one, and with all that engines work on. -/
def withEngine (t s : Session σ) : Session σ :=
  { s with
    engine := t.engine
    pools := { s.pools with resources := t.pools.resources, platform := t.pools.platform } }

def withQueues (queues : ViewQueues) (s : Session σ) : Session σ := { s with queues := queues }

/-- A surface no longer waits for its operation. -/
def settled (pool : PoolId) (surface : SurfaceInfo) (s : Session σ) : Session σ :=
  { s with pools := s.pools.modifySurface pool surface.index Surface.settle }

/-- Two surfaces make up a new picture. -/
def joined (pool : PoolId) (base extra : SurfaceInfo) (s : Session σ) : Session σ :=
  let s := (s.settled pool base).settled pool extra
  { s with
    pools := { s.pools with pictures := s.pools.pictures ++ [⟨base, extra, pool, 1⟩] }
    pictures := s.pictures ++ [s.pools.pictures.length] }

/-- A surface went back to its pool. -/
def released (pool : PoolId) (surface : SurfaceInfo) (s : Session σ) : Session σ :=
  { s with pools := s.pools.modifySurface pool surface.index Surface.release }

theorem releaseQueued_of_current {pool : PoolId} {s : Session σ} (hc : s.current = some pool) :
    s.releaseQueued = { s with
      queues := {}
      pools := s.queues.toList.foldl (fun p x => p.release pool x.index) s.pools } := by
  unfold releaseQueued
  split
  · rename_i hn
    rw [hc] at hn
    cases hn
  · rename_i pool' hs
    rw [hc] at hs
    cases hs
    rfl

section Waiting

variable [DecodeEngine σ]

/-- The engine was asked to complete operations, any number of times. -/
inductive Waited : Session σ → Session σ → Prop
  | refl (s : Session σ) : Waited s s
  | ask {s s' : Session σ} (point : SyncPoint) (h : Waited (s.askSync point).2 s') : Waited s s'

theorem Waited.trans {s t u : Session σ} (h : Waited s t) (h' : Waited t u) : Waited s u := by
  induction h with
  | refl => exact h'
  | ask point _ ih => exact .ask point (ih h')

/-- Waiting concerns the engine alone. -/
theorem Waited.eq_withEngine {s s' : Session σ} (h : Waited s s') : s' = withEngine s' s := by
  induction h with
  | refl => rfl
  | ask point _ ih => exact ih

/-- Two sessions of the same settings wait alike if they have the same engine. -/
theorem Waited.withEngine {s s' : Session σ} (h : Waited s s') (u : Session σ)
    (hc : u.config = s.config) : Waited (withEngine s u) (withEngine s' u) := by
  induction h with
  | refl => exact .refl _
  | @ask s s' point _ ih =>
    refine .ask point ?_
    have hask : (askSync point (Session.withEngine s u)).2 =
        Session.withEngine (askSync point s).2 u := by
      simp only [askSync, Session.withEngine, withResources, record, hc]
    rw [hask]
    exact ih hc

theorem waited_waitFor (point : SyncPoint) (attempts : Nat) (s : Session σ) :
    Waited s (s.waitFor point attempts) := by
  induction attempts generalizing s with
  | zero => exact .refl s
  | succ attempts ih =>
    refine .ask point ?_
    simp only [waitFor]
    split
    · exact ih _
    · exact .refl _

theorem waited_syncSurface (pool : PoolId) (surface : SurfaceInfo) (s : Session σ) :
    Waited (s.settled pool surface) (s.syncSurface pool surface) := by
  unfold syncSurface
  rw [Pools.takeSync_eq]
  dsimp only
  split
  · exact .refl _
  · exact waited_waitFor _ _ _

end Waiting

section Perform

variable [DecodeEngine σ]

/-- A pair becomes a picture; the engine is only asked to wait. -/
theorem perform_pair {base extra : SurfaceInfo} (hf : Fits base extra) (pool : PoolId)
    (s : Session σ) :
    ∃ s', s.perform pool (.pair base extra) = .ok s' ∧ Waited (s.joined pool base extra) s' := by
  have hb := waited_syncSurface pool base s
  generalize hs₁ : s.syncSurface pool base = s₁ at hb
  have he := waited_syncSurface pool extra s₁
  generalize hs₂ : s₁.syncSurface pool extra = s₂ at he
  have hjoin : ∀ p : Pools, p.join pool base extra =
      .ok (p.pictures.length, { p with pictures := p.pictures ++ [⟨base, extra, pool, 1⟩] }) :=
    fun p => if_pos hf
  refine ⟨withEngine s₂ (s.joined pool base extra), ?_, ?_⟩
  · have heq : s₂ = withEngine s₂ ((s.settled pool base).settled pool extra) := by
      rw [he.eq_withEngine, hb.eq_withEngine]
      rfl
    simp only [perform, hs₁, hs₂, hjoin]
    rw [heq]
    rfl
  · have h₁ := hb.withEngine (s.joined pool base extra) (by rw [← hs₁] at he; rfl)
    have h₂ := he.withEngine (s.joined pool base extra) (by rw [hb.eq_withEngine]; rfl)
    exact h₁.trans h₂

theorem waitFor_queues (point : SyncPoint) (attempts : Nat) (queues : ViewQueues)
    (s : Session σ) :
    waitFor point attempts (s.withQueues queues) =
      (s.waitFor point attempts).withQueues queues := by
  induction attempts generalizing s with
  | zero => rfl
  | succ attempts ih =>
    have hask : askSync point (s.withQueues queues) =
        ((s.askSync point).1, (s.askSync point).2.withQueues queues) := rfl
    simp only [waitFor, hask]
    split
    · exact ih _
    · rfl

theorem syncSurface_queues (pool : PoolId) (surface : SurfaceInfo) (queues : ViewQueues)
    (s : Session σ) :
    syncSurface pool surface (s.withQueues queues) =
      (s.syncSurface pool surface).withQueues queues := by
  have htake : (s.withQueues queues).pools.takeSync pool surface.index =
      s.pools.takeSync pool surface.index := rfl
  unfold syncSurface
  rw [htake]
  rcases s.pools.takeSync pool surface.index with ⟨point | point, pools⟩
  · rfl
  · exact waitFor_queues point _ queues { s with pools := pools }

/-- A pairing step has nothing to do with what is in the queues. -/
theorem perform_queues (pool : PoolId) (step : PairingStep) (queues : ViewQueues)
    (s : Session σ) :
    perform pool step (s.withQueues queues) =
      (s.perform pool step).map (withQueues queues) := by
  cases step with
  | drop surface => rfl
  | pair base extra =>
    simp only [perform, syncSurface_queues]
    generalize syncSurface pool extra (syncSurface pool base s) = t
    have hjoin : (t.withQueues queues).pools.join pool base extra = t.pools.join pool base extra :=
      rfl
    rw [hjoin]
    cases t.pools.join pool base extra with
    | error e => rfl
    | ok r => rfl

/-- Pairing step by step: each step is carried out as soon as it is taken off the queues. -/
def pairWithin (pool : PoolId) (least : Nat) : Nat → Session σ → Outcome (Session σ)
  | 0, s => .ok s
  | fuel + 1, s =>
    if least ≤ s.queues.base.length ∧ least ≤ s.queues.extra.length then
      match s.queues.step? with
      | none => .ok s
      | some (step, queues) => do
        let s ← perform pool step (s.withQueues queues)
        pairWithin pool least fuel s
    else
      .ok s

/-- It makes no difference whether the steps are carried out at once or after all have been taken. -/
theorem foldlM_perform_eq (pool : PoolId) (least fuel : Nat) (s : Session σ) :
    (s.queues.resolveWithin least fuel).1.foldlM (fun s step => s.perform pool step)
        (s.withQueues (s.queues.resolveWithin least fuel).2) =
      pairWithin pool least fuel s := by
  induction fuel generalizing s with
  | zero => rfl
  | succ fuel ih =>
    unfold ViewQueues.resolveWithin pairWithin
    by_cases hl : least ≤ s.queues.base.length ∧ least ≤ s.queues.extra.length
    · simp only [hl, and_self, ↓reduceIte]
      cases hs : s.queues.step? with
      | none => rfl
      | some taken =>
        obtain ⟨step, queues⟩ := taken
        simp only [List.foldlM_cons, perform_queues]
        cases hp : s.perform pool step with
        | error e => rfl
        | ok t => exact ih (t.withQueues queues)
    · simp only [hl, ↓reduceIte]
      rfl

theorem pairQueued_of_current {pool : PoolId} {s : Session σ} (hc : s.current = some pool)
    (least : Nat) :
    s.pairQueued least = (s.queues.resolve least).1.foldlM (fun s step => s.perform pool step)
      (s.withQueues (s.queues.resolve least).2) := by
  unfold pairQueued
  split
  · rename_i hn
    rw [hc] at hn
    cases hn
  · rename_i pool' hs
    rw [hc] at hs
    cases hs
    rfl

theorem pairQueued_eq {pool : PoolId} {s : Session σ} (hc : s.current = some pool)
    (least : Nat) : s.pairQueued least = pairWithin pool least s.queues.length s := by
  rw [pairQueued_of_current hc, ← foldlM_perform_eq]
  rfl

end Perform

end Session

end Multiview
