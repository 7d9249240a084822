import Multiview.Proofs.Session.Moves

/-!
Session and engine in step. While the engine holds a decoder, it writes to the frames of the current
pool; a pool without frames has no surfaces; and each view queue holds surfaces of its own view only.
-/

namespace Multiview

namespace Pools

/-- A pool whose owner uses it keeps its frames when a picture is dropped. -/
theorem drop_owned (id : PictureId) {pool : PoolId} {s : Pools}
    (h : (s.pool pool).owned = true) :
    ((s.drop id).pool pool).frames = (s.pool pool).frames ∧
      ((s.drop id).pool pool).owned = true ∧
      ((s.drop id).pool pool).surfaces.length = (s.pool pool).surfaces.length := by
  rcases drop_cases id s with ⟨hd, _⟩ | ⟨x, n, hx, _, ⟨_, hd⟩ | ⟨_, hd⟩⟩
  · rw [hd]
    exact ⟨rfl, h, rfl⟩
  · rw [hd]
    exact ⟨rfl, h, rfl⟩
  · rw [hd]
    generalize s.pictures.set id { x with references := 0 } = pictures
    have hsteady := Steady.pair x.pool x.base.index x.extra.index Surface.release
      { s with pictures := pictures }
    generalize ({ s with pictures := pictures }.modifySurface x.pool x.base.index
      Surface.release).modifySurface x.pool x.extra.index Surface.release = t at hsteady ⊢
    have howned : (t.pool pool).owned = true := (hsteady.owned pool).trans h
    have hpool : (settle x.pool t).pool pool = t.pool pool := by
      unfold settle
      split
      · rfl
      · rename_i hused
        have hne : x.pool ≠ pool := by
          intro he
          subst he
          exact hused (by simp [isUsed, howned])
        rw [pool_freeFrames, if_neg hne]
    rw [hpool]
    exact ⟨hsteady.frames pool, howned, hsteady.surfaces pool⟩

theorem length_settle (id : PoolId) (s : Pools) :
    (s.settle id).pools.length = s.pools.length := by
  unfold settle
  split
  · rfl
  · exact (freeFrames_rest id s).2.1

theorem length_drop (id : PictureId) (s : Pools) :
    (s.drop id).pools.length = s.pools.length := by
  rcases drop_cases id s with ⟨hd, _⟩ | ⟨x, n, _, _, ⟨_, hd⟩ | ⟨_, hd⟩⟩
  · rw [hd]
  · rw [hd]
  · rw [hd, length_settle, length_modifySurface, length_modifySurface]

end Pools

namespace Session

/-- Each queue holds surfaces of its own view. -/
def ByView (q : ViewQueues) : Prop :=
  (∀ x ∈ q.base, x.info.viewId = 0) ∧ ∀ x ∈ q.extra, x.info.viewId ≠ 0

theorem ByView.push {q : ViewQueues} (h : ByView q) (x : SurfaceInfo) : ByView (q.push x) := by
  unfold ViewQueues.push
  split
  · rename_i hv
    refine ⟨fun y hy => ?_, h.2⟩
    rcases List.mem_append.mp hy with hy | hy
    · exact h.1 y hy
    · rw [List.mem_singleton.mp hy]
      exact hv
  · rename_i hv
    refine ⟨h.1, fun y hy => ?_⟩
    rcases List.mem_append.mp hy with hy | hy
    · exact h.2 y hy
    · rw [List.mem_singleton.mp hy]
      exact hv

structure InStep (s : Session SimulatedEngine) : Prop where
  ready : s.phase = .ready → s.engineReady = true
  /-- A running engine writes to the frames of the current pool. -/
  equipped : s.engineReady = true → ∃ pool frames, s.current = some pool ∧
    (s.pools.pool pool).frames = some frames ∧ s.engine.allocator = some frames.allocator
  present : ∀ pool, s.current = some pool →
    pool < s.pools.pools.length ∧ (s.pools.pool pool).owned = true
  absent : s.current = none → s.queues = {}
  bare : ∀ pool, s.current = some pool → (s.pools.pool pool).frames = none →
    s.queues = {} ∧ (s.pools.pool pool).surfaces = []
  views : ByView s.queues

section Keeps

variable {s s' : Session SimulatedEngine}

/-- Steps that leave the current pool to itself and add nothing to the queues. -/
theorem InStep.frame (h : InStep s) (hr : s'.engineReady = s.engineReady)
    (hc : s'.current = s.current) (hq : s.queues = {} → s'.queues = {}) (hv : ByView s'.queues)
    (hl : s'.pools.pools.length = s.pools.pools.length)
    (hp : ∀ pool, s.current = some pool → (s.pools.pool pool).owned = true →
      (s'.pools.pool pool).frames = (s.pools.pool pool).frames ∧
      (s'.pools.pool pool).owned = true ∧
      (s'.pools.pool pool).surfaces.length = (s.pools.pool pool).surfaces.length)
    (ha : s'.engine.allocator = s.engine.allocator)
    (hph : s'.phase = .ready → s'.engineReady = true) : InStep s' where
  ready := hph
  equipped := by
    intro he
    obtain ⟨pool, frames, hcur, hf, hal⟩ := h.equipped (hr ▸ he)
    have hsame := hp pool hcur (h.present pool hcur).2
    exact ⟨pool, frames, hc.trans hcur, hsame.1.trans hf, ha.trans hal⟩
  present := by
    intro pool hcur
    rw [hc] at hcur
    obtain ⟨hlt, ho⟩ := h.present pool hcur
    exact ⟨hl ▸ hlt, (hp pool hcur ho).2.1⟩
  absent := fun hcur => hq (h.absent (hc ▸ hcur))
  bare := by
    intro pool hcur hf
    rw [hc] at hcur
    have hsame := hp pool hcur (h.present pool hcur).2
    obtain ⟨hqe, hse⟩ := h.bare pool hcur (hsame.1.symm.trans hf)
    refine ⟨hq hqe, List.length_eq_zero_iff.mp ?_⟩
    rw [hsame.2.2, hse]
    rfl
  views := hv

theorem InStep.steady (h : InStep s) (hr : s'.engineReady = s.engineReady)
    (hc : s'.current = s.current) (hq : s.queues = {} → s'.queues = {}) (hv : ByView s'.queues)
    (hs : Pools.Steady s.pools s'.pools) (ha : s'.engine.allocator = s.engine.allocator)
    (hph : s'.phase = .ready → s'.engineReady = true) : InStep s' :=
  h.frame hr hc hq hv hs.length
    (fun pool _ ho => ⟨hs.frames pool, (hs.owned pool).trans ho, hs.surfaces pool⟩) ha hph

/-- A surface can only come back to a pool that has frames. -/
theorem InStep.receive {t : Session SimulatedEngine} (h : InStep t) (he : t.engineReady = true)
    {pool : PoolId} (hc : t.current = some pool) (index : Nat) (d : DecodedSurface) :
    InStep (t.received pool index d) := by
  have hsteady : Pools.Steady t.pools (t.received pool index d).pools :=
    Pools.steady_modifySurface pool index _ t.pools
  obtain ⟨pool', frames, hc', hf, ha⟩ := h.equipped he
  refine ⟨h.ready, fun _ => ⟨pool', frames, hc', (hsteady.frames pool').trans hf, ha⟩,
    ?_, ?_, ?_, h.views.push _⟩
  · intro p hp
    obtain ⟨hlt, ho⟩ := h.present p hp
    exact ⟨hsteady.length ▸ hlt, (hsteady.owned p).trans ho⟩
  · intro hn
    exact absurd (hn.symm.trans hc) nofun
  · intro p hp hnone
    rw [hsteady.frames, Option.some.inj (hp.symm.trans hc'), hf] at hnone
    cases hnone

theorem Aside.inStep (h : Aside s s') (hs : InStep s) : InStep s' :=
  hs.steady h.engineReady h.current (fun hq => h.queues.trans hq) (h.queues ▸ hs.views)
    (.of_eq h.pools) h.engine.allocator h.ready

theorem sync_allocator (point : SyncPoint) (e : SimulatedEngine) (r : Resources) :
    (e.sync point r).2.1.allocator = e.allocator := by
  unfold SimulatedEngine.sync
  dsimp only
  split
  · rfl
  · split <;> rfl

theorem sync_allocators (point : SyncPoint) (e : SimulatedEngine) (r : Resources) :
    (e.sync point r).2.2.allocators = r.allocators := by
  unfold SimulatedEngine.sync
  dsimp only
  split
  · rfl
  · split <;> rfl

/-- A new pool has neither frames nor surfaces. -/
theorem InStep.startPool (h : InStep s) (hc : s.current = none) (he : s.engineReady = false) :
    InStep s.startPool := by
  have hnew : s.startPool.pools.pool s.pools.pools.length = {} := by
    simp [Session.startPool, Pools.create, Pools.pool, List.getD]
  have hcur : ∀ pool, s.startPool.current = some pool → pool = s.pools.pools.length :=
    fun pool hp => (Option.some.inj hp).symm
  refine ⟨h.ready, fun hr => ?_, fun pool hp => ?_, fun hn => ?_, fun pool hp _ => ?_, h.views⟩
  · exact Bool.noConfusion (hr.symm.trans he)
  · rw [hcur pool hp, hnew]
    exact ⟨by simp [Session.startPool, Pools.create], rfl⟩
  · exact absurd hn (Option.some_ne_none _)
  · rw [hcur pool hp, hnew]
    exact ⟨h.absent hc, rfl⟩

/-- New frames belong to the current pool, and the engine learns of their allocator. -/
theorem InStep.equip (h : InStep s) (he : s.engineReady = false) {pool : PoolId}
    (hc : s.current = some pool) (hf : (s.pools.pool pool).frames = none) (info : FrameInfo)
    (memory : MemoryKind) (response : Response) (a : MixedAllocator) (platform : Platform) :
    InStep (s.equipped pool info memory response a platform) := by
  obtain ⟨hlt, ho⟩ := h.present pool hc
  have hpool : (s.equipped pool info memory response a platform).pools.pool pool =
      { s.pools.pool pool with
        surfaces := (s.pools.pool pool).surfaces ++ s.pools.newSurfaces info response.mids
        frames := (s.pools.pool pool).frames.or
          (some ⟨s.pools.resources.allocators.length, response, memory⟩) } :=
    (Pools.pool_supplied hlt info memory response a platform pool).trans (if_pos rfl)
  have hcur : ∀ p, (s.equipped pool info memory response a platform).current = some p →
      p = pool := fun p hp => Option.some.inj (hp.symm.trans hc)
  refine ⟨h.ready, fun hr => ?_, fun p hp => ?_, fun hn => ?_, fun p hp hnone => ?_, h.views⟩
  · exact absurd (hr.symm.trans he) nofun
  · rw [hcur p hp, hpool]
    refine ⟨?_, ho⟩
    have hlen := (Pools.supplied_rest pool info memory response a platform s.pools).2.1
    exact Nat.lt_of_lt_of_eq hlt hlen.symm
  · exact absurd (hn.symm.trans hc) nofun
  · rw [hcur p hp, hpool, hf] at hnone
    cases hnone

theorem InStep.drop (h : InStep s) (id : PictureId) (pictures : List PictureId) :
    InStep { s with pictures := pictures, pools := s.pools.drop id } :=
  h.frame rfl rfl (fun he => he) h.views (Pools.length_drop id s.pools)
    (fun _ _ ho => Pools.drop_owned id ho) rfl h.ready

theorem Move.inStep (h : Move s s') (hs : InStep s) : InStep s' := by
  cases h with
  | aside h => exact h.inStep hs
  | submit input he hc hf ha =>
    exact hs.steady rfl rfl id hs.views (.of_eq rfl) ha.allocator hs.ready
  | receive input he hc hf ha hm =>
    refine InStep.receive (t := s.submitted input _ _) ?_ he hc _ _
    exact hs.steady rfl rfl id hs.views (.of_eq rfl) ha.allocator hs.ready
  | wait point =>
    exact hs.steady rfl rfl id hs.views (.of_eq rfl) (sync_allocator point _ _) hs.ready
  | reset he => exact hs.steady rfl rfl id hs.views (.of_eq rfl) rfl hs.ready
  | closeDecoder hp =>
    exact ⟨fun hr => absurd hr hp, nofun, hs.present, hs.absent, hs.bare, hs.views⟩
  | @dropBase pool x base hc hq =>
    refine hs.steady rfl rfl (fun he => ?_) ⟨fun y hy => ?_, hs.views.2⟩
      (Pools.steady_modifySurface ..) rfl hs.ready
    · rw [he] at hq
      cases hq
    · exact hs.views.1 y (hq ▸ List.mem_cons_of_mem _ hy)
  | @dropExtra pool x extra hc hq =>
    refine hs.steady rfl rfl (fun he => ?_) ⟨hs.views.1, fun y hy => ?_⟩
      (Pools.steady_modifySurface ..) rfl hs.ready
    · rw [he] at hq
      cases hq
    · exact hs.views.2 y (hq ▸ List.mem_cons_of_mem _ hy)
  | @dropPicture id rest hp => exact hs.drop id rest
  | startPool hc he => exact hs.startPool hc he
  | leavePool hc hq he =>
    refine ⟨hs.ready, fun hr => ?_, nofun, fun _ => hq, nofun, hs.views⟩
    exact absurd (hr.symm.trans he) nofun
  | equip info a he hc hf _ _ _ => exact hs.equip he hc hf info _ _ a _

theorem Starts.inStep (h : Starts s s') (hs : InStep s) : InStep s' := by
  cases h with
  | start hc hf ha hq hi =>
    have halike := SimulatedEngine.init_alike s.params s.engine
    exact ⟨fun _ => rfl, fun _ => ⟨_, _, hc, hf, halike.allocator.trans ha⟩, hs.present, hs.absent,
      hs.bare, hs.views⟩

theorem Pairs.inStep (h : Pairs s s') (hs : InStep s) : InStep s' := by
  cases h with
  | @pair pool b e base extra hc hq hf =>
    refine hs.steady rfl rfl (fun he => ?_) ⟨fun y hy => ?_, fun y hy => ?_⟩
      ((Pools.Steady.pair pool b.index e.index Surface.settle s.pools).trans (.of_eq rfl)) rfl
      hs.ready
    · rw [he] at hq
      cases hq
    · exact hs.views.1 y (by rw [hq]; exact List.mem_cons_of_mem _ hy)
    · exact hs.views.2 y (by rw [hq]; exact List.mem_cons_of_mem _ hy)

theorem Preparing.inStep (h : Preparing s s') (hs : InStep s) : InStep s' :=
  h.keeps (fun _ _ => Move.inStep) (fun _ _ => Starts.inStep) hs

theorem Feeding.inStep (h : Feeding s s') (hs : InStep s) : InStep s' :=
  h.keeps (fun _ _ => Move.inStep) (fun _ _ => Pairs.inStep) hs

theorem Moves.inStep (h : Moves s s') (hs : InStep s) : InStep s' := h.feeding.inStep hs

theorem Course.inStep (h : Course s s') (hs : InStep s) : InStep s' :=
  h.keeps (fun _ _ => Move.inStep) (fun _ _ => Starts.inStep) (fun _ _ => Pairs.inStep) hs

end Keeps

end Session

end Multiview
