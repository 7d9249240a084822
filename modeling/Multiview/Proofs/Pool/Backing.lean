import Multiview.Proofs.Engine.Simulated
import Multiview.Proofs.Pool.Tracks

/-!
What backs the pools. Each pool with frames has an allocator of its own, in which its frames can be
mapped if they are in host memory; frames are freed only when nobody uses the pool any more, and freeing
them leaves the allocators of all other pools alone.
-/

namespace Multiview

namespace Pools

/-- Pools share no allocator, and frames in host memory can be mapped. -/
structure Backed (s : Pools) : Prop where
  apart : ∀ {pool pool' : PoolId} {f f' : PoolFrames}, (s.pool pool).frames = some f →
    (s.pool pool').frames = some f' → f.allocator = f'.allocator → pool = pool'
  maps : ∀ {pool : PoolId} {f : PoolFrames}, (s.pool pool).frames = some f →
    ∃ a, s.resources.allocators[f.allocator]? = some a ∧
      (f.memory = .system → ∀ mid ∈ s.mids pool, Views.Maps (fun m => a.view m) mid)

/-- The frame behind a surface of the pool is there and shows what was decoded. -/
def Keeps (pool : PoolId) (x : SurfaceInfo) (s : Pools) : Prop :=
  ∃ f a, (s.pool pool).frames = some f ∧ s.resources.allocators[f.allocator]? = some a ∧
    (f.memory = .system →
      Views.Shows (fun m => a.view m) x.mid (lumaPattern x.info.viewId x.frameMeta.frameOrder))

/-- Frames may have been freed, but nothing else happened to them. -/
structure Preserves (s s' : Pools) : Prop where
  frames : ∀ {pool : PoolId} {f : PoolFrames}, (s'.pool pool).frames = some f →
    (s.pool pool).frames = some f
  allocators : ∀ {pool : PoolId} {f : PoolFrames}, (s'.pool pool).frames = some f →
    s'.resources.allocators[f.allocator]? = s.resources.allocators[f.allocator]?
  mids : ∀ pool, s'.mids pool = s.mids pool

variable {s s' s'' : Pools} {pool : PoolId}

theorem Preserves.trans (h : Preserves s s') (h' : Preserves s' s'') : Preserves s s'' where
  frames := fun hf => h.frames (h'.frames hf)
  allocators := fun hf => (h'.allocators hf).trans (h.allocators (h'.frames hf))
  mids := fun pool => (h'.mids pool).trans (h.mids pool)

theorem Preserves.of_eq (hf : ∀ id, (s'.pool id).frames = (s.pool id).frames)
    (ha : s'.resources.allocators = s.resources.allocators) (hm : ∀ id, s'.mids id = s.mids id) :
    Preserves s s' where
  frames := fun {id _} h => hf id ▸ h
  allocators := fun _ => by rw [ha]
  mids := hm

theorem Backed.preserved (h : Backed s) (hp : Preserves s s') : Backed s' where
  apart := fun hf hf' => h.apart (hp.frames hf) (hp.frames hf')
  maps := by
    intro id f hf
    rw [hp.allocators hf, hp.mids]
    exact h.maps (hp.frames hf)

theorem Backed.below (h : Backed s) {f : PoolFrames} (hf : (s.pool pool).frames = some f) :
    f.allocator < s.resources.allocators.length := by
  obtain ⟨a, ha, _⟩ := h.maps hf
  exact (List.getElem?_eq_some_iff.mp ha).1

theorem Keeps.preserved {x : SurfaceInfo} (h : Keeps pool x s) (hp : Preserves s s')
    (hf : (s'.pool pool).frames = (s.pool pool).frames) : Keeps pool x s' := by
  obtain ⟨f, a, hsome, ha, hshows⟩ := h
  have hsome' := hf.trans hsome
  exact ⟨f, a, hsome', (hp.allocators hsome').trans ha, hshows⟩

/-! ## Writing -/

section Writing

variable {allocator : Option AllocatorId} {mid : MemId} {value : UInt8}

theorem Backed.painted (h : Backed s) (hp : Painted allocator mid value s.resources s'.resources)
    (hf : ∀ id, (s'.pool id).frames = (s.pool id).frames) (hm : ∀ id, s'.mids id = s.mids id) :
    Backed s' where
  apart := by
    intro id id' f f' hsome hsome'
    rw [hf] at hsome hsome'
    exact h.apart hsome hsome'
  maps := by
    intro id f hsome
    rw [hf] at hsome
    obtain ⟨a, ha, hmaps⟩ := h.maps hsome
    obtain ⟨a', ha', hstill, _⟩ := hp.view ha
    rw [hm]
    exact ⟨a', ha', fun hsys mid hmid => hstill mid (hmaps hsys mid hmid)⟩

/-- Frames that are not written to show what they did. -/
theorem Keeps.painted {x : SurfaceInfo} (h : Keeps pool x s)
    (hp : Painted allocator mid value s.resources s'.resources)
    (hf : (s'.pool pool).frames = (s.pool pool).frames)
    (hne : ∀ f, (s.pool pool).frames = some f → allocator = some f.allocator → x.mid ≠ mid) :
    Keeps pool x s' := by
  obtain ⟨f, a, hsome, ha, hshows⟩ := h
  obtain ⟨a', ha', _, hothers, _⟩ := hp.view ha
  exact ⟨f, a', hf.trans hsome, ha', fun hm => hothers x.mid _ (hne f hsome) (hshows hm)⟩

/-- A frame that was written to shows what was written. -/
theorem Backed.keeps_painted (h : Backed s) {x : SurfaceInfo} {f : PoolFrames}
    (hf : (s.pool pool).frames = some f) (hf' : (s'.pool pool).frames = some f)
    (hx : x.mid ∈ s.mids pool)
    (hp : Painted (some f.allocator) x.mid (lumaPattern x.info.viewId x.frameMeta.frameOrder)
      s.resources s'.resources) : Keeps pool x s' := by
  obtain ⟨a, ha, hmaps⟩ := h.maps hf
  obtain ⟨a', ha', _, _, hitself⟩ := hp.view ha
  exact ⟨f, a', hf', ha', fun hm => hitself rfl (hmaps hm x.mid hx)⟩

end Writing

/-! ## Freeing -/

theorem preserves_freeFrames (h : Backed s) (id : PoolId) : Preserves s (s.freeFrames id) where
  frames := by
    intro pool f hf
    rw [pool_freeFrames] at hf
    split at hf
    · cases hf
    · exact hf
  allocators := by
    intro pool f hf
    rw [pool_freeFrames] at hf
    split at hf
    · cases hf
    · rename_i hne
      exact freeFrames_allocators fun f' hf' heq => hne (h.apart hf' hf heq)
  mids := fun pool => by rw [mids, surfaces_freeFrames, mids]

theorem preserves_settle (h : Backed s) (id : PoolId) : Preserves s (s.settle id) := by
  unfold settle
  split
  · exact .of_eq (fun _ => rfl) rfl fun _ => rfl
  · exact preserves_freeFrames h id

/-- A pool in use keeps its frames. -/
theorem frames_settle (h : s.isUsed pool = true) (id : PoolId) :
    ((s.settle id).pool pool).frames = (s.pool pool).frames := by
  unfold settle
  split
  · rfl
  · rename_i hunused
    have hne : id ≠ pool := fun he => hunused (he ▸ h)
    rw [pool_freeFrames, if_neg hne]

theorem isUsed_of_alive {p : Picture} (hp : p ∈ s.pictures) (ha : p.isAlive = true) :
    s.isUsed p.pool = true := by
  have hany : s.pictures.any (fun q => q.isAlive && q.pool == p.pool) = true :=
    List.any_eq_true.mpr ⟨p, hp, by simp [ha]⟩
  rw [isUsed, hany, Bool.or_true]

/-- Before the frames of its pool are settled, a picture that is dropped only gives back surfaces. -/
theorem drop_preserves (h : Backed s) (id : PictureId) : Preserves s (s.drop id) ∧
    ∀ p ∈ (s.drop id).pictures, p.isAlive = true →
      ((s.drop id).pool p.pool).frames = (s.pool p.pool).frames := by
  rcases drop_cases id s with ⟨hd, _⟩ | ⟨x, n, _, _, ⟨_, hd⟩ | ⟨_, hd⟩⟩
  · rw [hd]
    exact ⟨.of_eq (fun _ => rfl) rfl fun _ => rfl, fun _ _ _ => rfl⟩
  · rw [hd]
    exact ⟨.of_eq (fun _ => rfl) rfl fun _ => rfl, fun _ _ _ => rfl⟩
  · rw [hd]
    generalize s.pictures.set id { x with references := 0 } = pictures
    generalize ht : ({ s with pictures := pictures }.modifySurface x.pool x.base.index
      Surface.release).modifySurface x.pool x.extra.index Surface.release = t
    have hframes : ∀ id, (t.pool id).frames = (s.pool id).frames := by
      rw [← ht]
      exact (Steady.pair x.pool x.base.index x.extra.index Surface.release
        { s with pictures := pictures }).frames
    have hmids : ∀ id, t.mids id = s.mids id := by
      intro id
      rw [← ht]
      exact (Remarked.pair x.pool (f := Surface.release) (fun _ => rfl) (fun _ => rfl)
        (fun _ => rfl) x.base.index x.extra.index { s with pictures := pictures }).mids id
    have hstart : Preserves s t := .of_eq hframes (by rw [← ht]; rfl) hmids
    refine ⟨hstart.trans (preserves_settle (h.preserved hstart) x.pool), fun p hp ha => ?_⟩
    rw [pictures_settle] at hp
    rw [frames_settle (isUsed_of_alive hp ha), hframes]

/-- A pool that its owner leaves keeps its frames as long as one of its pictures is alive. -/
theorem disown_preserves (h : Backed s) (id : PoolId) : Preserves s (s.disown id) ∧
    ∀ p ∈ s.pictures, p.isAlive = true →
      ((s.disown id).pool p.pool).frames = (s.pool p.pool).frames := by
  unfold disown
  generalize ht : s.modifyPool id (fun p => { p with owned := false }) = t
  have hpool : ∀ id', t.pool id' =
      if id = id' ∧ id < s.pools.length then { s.pool id with owned := false } else s.pool id' := by
    intro id'
    rw [← ht]
    exact pool_modifyPool id id' _ s
  have hframes : ∀ id', (t.pool id').frames = (s.pool id').frames := by
    intro id'
    rw [hpool]
    split
    · rename_i h
      rw [← h.1]
    · rfl
  have hmids : ∀ id', t.mids id' = s.mids id' := by
    intro id'
    rw [mids, mids, hpool]
    split
    · rename_i h
      rw [← h.1]
    · rfl
  have hstart : Preserves s t := .of_eq hframes (by rw [← ht]; rfl) hmids
  refine ⟨hstart.trans (preserves_settle (h.preserved hstart) id), fun p hp ha => ?_⟩
  have hpics : t.pictures = s.pictures := by
    rw [← ht]
    rfl
  rw [frames_settle (isUsed_of_alive (hpics ▸ hp) ha), hframes]

end Pools

end Multiview
