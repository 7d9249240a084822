import Multiview.Proofs.Session.InStep

/-!
Beginning and ending in steps. Letting go of pictures, queued surfaces, the decoder and the pool is a
sequence of moves, and so are flushing, closing and starting over.
-/

namespace Multiview

open Relation

namespace Session

variable {s t : Session SimulatedEngine}

def withPhase (phase : Phase) (s : Session SimulatedEngine) : Session SimulatedEngine :=
  { s with phase := phase }

/-- What a session without a phase of its own goes through is not seen in its phase. -/
theorem Aside.withPhase (s : Session SimulatedEngine) {phase : Phase}
    (h : phase = .ready → s.engineReady = true) : Aside s (s.withPhase phase) :=
  .edit h

theorem Aside.moves (h : Aside s t) : Moves s t := .single (.aside h)

theorem moves_fail (s : Session SimulatedEngine) : Moves s (s.withPhase .failed) :=
  (Aside.withPhase s (fun h => by cases h)).moves

theorem moves_dropPictures (s : Session SimulatedEngine) : Moves s s.dropPictures := by
  have hall : ∀ (ids : List PictureId) (s : Session SimulatedEngine), s.pictures = ids →
      Moves s { s with pictures := [], pools := s.pools.dropAll ids } := by
    intro ids
    induction ids with
    | nil =>
      intro s hp
      have hsame : { s with pictures := [], pools := s.pools.dropAll [] } = s := by
        cases s
        cases hp
        rfl
      rw [hsame]
    | cons id ids ih =>
      intro s hp
      exact .head (.dropPicture hp) (ih { s with pictures := ids, pools := s.pools.drop id } rfl)
  exact hall s.pictures s rfl

theorem withQueues_self {queues : ViewQueues} (h : s.queues = queues) :
    s.withQueues queues = s := by
  cases s
  cases h
  rfl

/-- The oldest base surface goes first. -/
theorem releaseQueued_base {pool : PoolId} {x : SurfaceInfo} {base : List SurfaceInfo}
    (hc : s.current = some pool) (hq : s.queues.base = x :: base) :
    s.releaseQueued =
      ((s.withQueues ⟨base, s.queues.extra⟩).released pool x).releaseQueued := by
  have hc' : ((s.withQueues ⟨base, s.queues.extra⟩).released pool x).current = some pool := hc
  rw [releaseQueued_of_current hc, releaseQueued_of_current hc', ViewQueues.toList, hq]
  rfl

theorem releaseQueued_extra {pool : PoolId} {x : SurfaceInfo} {extra : List SurfaceInfo}
    (hc : s.current = some pool) (hb : s.queues.base = []) (hq : s.queues.extra = x :: extra) :
    s.releaseQueued =
      ((s.withQueues ⟨s.queues.base, extra⟩).released pool x).releaseQueued := by
  have hc' : ((s.withQueues ⟨s.queues.base, extra⟩).released pool x).current = some pool := hc
  rw [releaseQueued_of_current hc, releaseQueued_of_current hc', ViewQueues.toList, hb, hq]
  rfl

theorem releaseQueued_of_empty (h : s.queues = {}) : s.releaseQueued = s := by
  unfold releaseQueued
  split
  · exact withQueues_self h
  · rw [h]
    exact withQueues_self h

theorem moves_releaseQueued (hs : InStep s) : Moves s s.releaseQueued := by
  cases hc : s.current with
  | none =>
    rw [releaseQueued_of_empty (hs.absent hc)]
  | some pool =>
    have hextra : ∀ (extra : List SurfaceInfo) (s : Session SimulatedEngine),
        s.current = some pool → s.queues.base = [] → s.queues.extra = extra →
        Moves s s.releaseQueued := by
      intro extra
      induction extra with
      | nil =>
        intro s hc hb hq
        have hempty : s.queues = {} :=
          calc s.queues = ⟨s.queues.base, s.queues.extra⟩ := rfl
            _ = {} := by rw [hb, hq]
        rw [releaseQueued_of_empty hempty]
      | cons x extra ih =>
        intro s hc hb hq
        rw [releaseQueued_extra hc hb hq]
        exact .head (.dropExtra hc hq) (ih _ hc hb rfl)
    have hbase : ∀ (base : List SurfaceInfo) (s : Session SimulatedEngine),
        s.current = some pool → s.queues.base = base → Moves s s.releaseQueued := by
      intro base
      induction base with
      | nil =>
        intro s hc hq
        exact hextra s.queues.extra s hc hq rfl
      | cons x base ih =>
        intro s hc hq
        rw [releaseQueued_base hc hq]
        exact .head (.dropBase hc hq) (ih _ hc rfl)
    exact hbase s.queues.base s hc rfl

/-- Without a running phase the decoder may be closed. -/
theorem moves_closeEngineDecoder (hp : s.phase ≠ .ready) : Moves s s.closeEngineDecoder := by
  unfold closeEngineDecoder
  split
  · exact .single (.closeDecoder s hp)
  · exact .refl

theorem engineReady_closeEngineDecoder (s : Session SimulatedEngine) :
    s.closeEngineDecoder.engineReady = false := by
  unfold closeEngineDecoder
  split
  · rfl
  · rename_i h
    exact Bool.eq_false_iff.mpr h

theorem releaseQueued_rest (s : Session SimulatedEngine) :
    s.releaseQueued = { s with queues := {}, pools := s.releaseQueued.pools } := by
  unfold releaseQueued
  split <;> rfl

theorem current_releaseQueued (s : Session SimulatedEngine) :
    s.releaseQueued.current = s.current := by
  rw [releaseQueued_rest]

theorem queues_releaseQueued (s : Session SimulatedEngine) : s.releaseQueued.queues = {} := by
  rw [releaseQueued_rest]

theorem engineReady_releaseQueued (s : Session SimulatedEngine) :
    s.releaseQueued.engineReady = s.engineReady := by
  rw [releaseQueued_rest]

/-- Once the decoder is closed the pool is left, with pictures and queued surfaces given up before. -/
theorem moves_releasePool (hs : InStep s) (he : s.engineReady = false) :
    Moves s s.releasePool := by
  have hdrop := moves_dropPictures s
  have hrel := moves_releaseQueued (hdrop.inStep hs)
  refine (hdrop.trans hrel).trans ?_
  have hcur : s.dropPictures.releaseQueued.current = s.current := current_releaseQueued _
  have hq := queues_releaseQueued s.dropPictures
  have her : s.dropPictures.releaseQueued.engineReady = false :=
    (engineReady_releaseQueued _).trans he
  unfold releasePool
  dsimp only
  split
  · exact .refl
  · rename_i pool hp
    exact .single (.leavePool hp hq her)

/-- The pool is let go of, with all that came from it. -/
theorem releasePool_rest (s : Session SimulatedEngine) :
    s.releasePool =
      { s with current := none, queues := {}, pictures := [], pools := s.releasePool.pools } := by
  unfold releasePool
  rw [releaseQueued_rest]
  dsimp only
  split
  · rename_i hn
    have hn : s.current = none := hn
    rw [← hn]
    rfl
  · rfl

theorem current_releasePool (s : Session SimulatedEngine) : s.releasePool.current = none := by
  rw [releasePool_rest]

theorem queues_releasePool (s : Session SimulatedEngine) : s.releasePool.queues = {} := by
  rw [releasePool_rest]

theorem engineReady_releasePool (s : Session SimulatedEngine) :
    s.releasePool.engineReady = s.engineReady := by
  rw [releasePool_rest]

/-! ## Phases -/

theorem closeEngineDecoder_withPhase (phase : Phase) (s : Session SimulatedEngine) :
    (s.withPhase phase).closeEngineDecoder = s.closeEngineDecoder.withPhase phase := by
  have hready : (s.withPhase phase).engineReady = s.engineReady := rfl
  unfold closeEngineDecoder
  rw [hready]
  split <;> rfl

theorem releaseQueued_withPhase (phase : Phase) (s : Session SimulatedEngine) :
    (s.withPhase phase).releaseQueued = s.releaseQueued.withPhase phase := by
  cases hc : s.current with
  | none =>
    unfold releaseQueued withPhase
    simp only [hc]
  | some pool =>
    have hc' : (s.withPhase phase).current = some pool := hc
    rw [releaseQueued_of_current hc, releaseQueued_of_current hc']
    rfl

theorem releasePool_withPhase (phase : Phase) (s : Session SimulatedEngine) :
    (s.withPhase phase).releasePool = s.releasePool.withPhase phase := by
  have hstart : (s.withPhase phase).dropPictures.releaseQueued =
      s.dropPictures.releaseQueued.withPhase phase :=
    releaseQueued_withPhase phase s.dropPictures
  unfold releasePool
  rw [hstart]
  generalize s.dropPictures.releaseQueued = u
  unfold withPhase
  cases hc : u.current with
  | none => simp only [hc]
  | some pool => simp only [hc]

/-- Everything is taken down behind another phase, in which nothing is promised of the engine. -/
theorem moves_takeDown (hs : InStep s) :
    Moves s (s.closeEngineDecoder.releasePool.withPhase .failed) := by
  have hfail := moves_fail s
  have hclose := moves_closeEngineDecoder (s := s.withPhase .failed) nofun
  have hready := engineReady_closeEngineDecoder (s.withPhase .failed)
  have hpool := moves_releasePool (Moves.inStep (hfail.trans hclose) hs) hready
  rw [closeEngineDecoder_withPhase, releasePool_withPhase] at hpool
  rw [closeEngineDecoder_withPhase] at hclose
  exact (hfail.trans hclose).trans hpool

/-! ## Operations -/

theorem moves_toIdle (hs : InStep s) : Moves s { s.tearDown with phase := .idle } := by
  refine (moves_takeDown hs).tail (.aside ?_)
  exact .edit fun h => by cases h

theorem moves_close (hs : InStep s) : Moves s s.close := by
  unfold close
  split
  · exact .refl
  · refine (moves_takeDown hs).tail (.aside ?_)
    exact ⟨⟨rfl, rfl, rfl, rfl⟩, rfl, rfl, rfl, rfl, rfl, rfl, rfl,
      ⟨[.engine .close], rfl, by simp [Event.output?, Event.starts]⟩,
      Platform.gains_engine .close _, fun h => by cases h⟩

theorem moves_restart (options : Options) (hs : InStep s) : Moves s (s.restart options) := by
  have hready : s.closeEngineDecoder.releasePool.engineReady = false :=
    (engineReady_releasePool _).trans (engineReady_closeEngineDecoder s)
  have hcur := current_releasePool s.closeEngineDecoder
  have haside : Aside (s.closeEngineDecoder.releasePool.withPhase .failed)
      { s.tearDown with
        params := { info := { fourcc := .nv12 } }
        clientSurfaces := options.surfaces?.getD 0
        phase := .opened } :=
    .edit fun h => by cases h
  exact ((moves_takeDown hs).tail (.aside haside)).tail (.startPool _ hcur hready)

theorem queues_restart (options : Options) (s : Session SimulatedEngine) :
    (s.restart options).queues = {} :=
  queues_releasePool s.closeEngineDecoder

theorem queues_flush (s : Session SimulatedEngine) : s.flush.queues = {} := queues_releaseQueued _

/-- A pool that served an earlier stream is replaced, so that the pool has no frames afterwards. -/
theorem moves_retire (hs : InStep s) (hp : s.phase ≠ .ready) :
    Moves s s.retire ∧ s.retire.engineReady = false ∧
      ∀ pool, s.retire.current = some pool → (s.retire.pools.pool pool).frames = none := by
  have hready : s.closeEngineDecoder.releasePool.engineReady = false :=
    (engineReady_releasePool _).trans (engineReady_closeEngineDecoder s)
  unfold retire
  dsimp only
  split
  · have hclose := moves_closeEngineDecoder hp
    have hpool := moves_releasePool (hclose.inStep hs) (engineReady_closeEngineDecoder s)
    refine ⟨(hclose.trans hpool).tail (.startPool _ (current_releasePool _) hready), hready, ?_⟩
    intro pool hc
    cases hc
    simp [startPool, Pools.create, Pools.pool, List.getD]
  · rename_i h
    rw [Bool.or_eq_true, not_or] at h
    refine ⟨.refl, Bool.eq_false_iff.mpr h.1, fun pool hc => ?_⟩
    have hnone := h.2
    rw [hc] at hnone
    simpa using hnone

theorem aside_edit (hs : s.phase = .ready → s.engineReady = true) (buffer : Bytes) :
    Aside s { s with buffer := buffer } :=
  .edit hs

theorem moves_flush (hs : InStep s) : Moves s s.flush := by
  have hedit : Moves s { s with buffer := [] } := (aside_edit hs.ready []).moves
  have hreset : Moves s (if s.phase = .ready then resetEngine { s with buffer := [] }
      else { s with buffer := [] }) := by
    split
    · rename_i hp
      exact hedit.tail (.reset _ (hs.ready hp))
    · exact hedit
  have hdrop := hreset.trans (moves_dropPictures _)
  exact hdrop.trans (moves_releaseQueued (Moves.inStep hdrop hs))

end Session

end Multiview
