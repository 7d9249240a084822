import Multiview.Pool.Pictures
import Multiview.Proofs.Memory.Furnished
import Multiview.Proofs.Memory.Journal

/-!
What the operations on pools do to what is looked up in them. Queueing, showing, settling and
releasing change one surface each and nothing else of any pool; freeing takes the frames of one pool.
-/

namespace Multiview

open Outcome

namespace Pools

/-- A surface by its pool and its index there. -/
def surface? (id : PoolId) (index : Nat) (s : Pools) : Option Surface :=
  (s.pool id).surfaces[index]?

/-- Changes one surface. -/
def modifySurface (id : PoolId) (index : Nat) (f : Surface → Surface) (s : Pools) : Pools :=
  s.modifyPool id (·.modify index f)

theorem pool_modifyPool (id id' : PoolId) (f : Pool → Pool) (s : Pools) :
    (s.modifyPool id f).pool id' =
      if id = id' ∧ id < s.pools.length then f (s.pool id) else s.pool id' := by
  unfold pool modifyPool
  by_cases hid : id = id'
  · subst hid
    by_cases hlt : id < s.pools.length
    · simp [hlt]
    · simp [hlt, List.getD]
  · simp [hid, List.getD]

theorem pool_of_le {id : PoolId} {s : Pools} (h : s.pools.length ≤ id) : s.pool id = {} := by
  simp [pool, List.getD, List.getElem?_eq_none h]

theorem pool_modifySurface_frames (id id' : PoolId) (index : Nat) (f : Surface → Surface)
    (s : Pools) : ((s.modifySurface id index f).pool id').frames = (s.pool id').frames := by
  rw [modifySurface, pool_modifyPool]
  split
  · rename_i h
    rw [← h.1]
    rfl
  · rfl

theorem pool_modifySurface_owned (id id' : PoolId) (index : Nat) (f : Surface → Surface)
    (s : Pools) : ((s.modifySurface id index f).pool id').owned = (s.pool id').owned := by
  rw [modifySurface, pool_modifyPool]
  split
  · rename_i h
    rw [← h.1]
    rfl
  · rfl

theorem surface?_modifySurface (id id' : PoolId) (index index' : Nat) (f : Surface → Surface)
    (s : Pools) :
    (s.modifySurface id index f).surface? id' index' =
      (s.surface? id' index').map fun x => if id = id' ∧ index = index' then f x else x := by
  unfold surface?
  rw [modifySurface, pool_modifyPool]
  by_cases hid : id = id'
  · subst hid
    by_cases hlt : id < s.pools.length
    · simp only [hlt, and_self, ↓reduceIte, true_and, Pool.modify, List.getElem?_modify]
      by_cases hi : index = index' <;> simp [hi]
    · simp [hlt, pool_of_le (Nat.le_of_not_lt hlt)]
  · simp [hid]

@[simp] theorem length_modifySurface (id : PoolId) (index : Nat) (f : Surface → Surface)
    (s : Pools) : (s.modifySurface id index f).pools.length = s.pools.length := by
  simp [modifySurface, modifyPool]

theorem release_eq (id : PoolId) (index : Nat) (s : Pools) :
    s.release id index = s.modifySurface id index Surface.release := rfl

/-- A pool is changed to what a function makes of it, whether the function or its value is given. -/
theorem modifyPool_const (id : PoolId) (f : Pool → Pool) (s : Pools) :
    (s.modifyPool id fun _ => f (s.pool id)) = s.modifyPool id f := by
  unfold modifyPool pool
  congr 1
  apply List.ext_getElem?
  intro i
  by_cases hi : id = i
  · subst hi
    cases h : s.pools[id]? <;> simp [h, List.getD]
  · simp [hi]

theorem takeSync_eq (id : PoolId) (index : Nat) (s : Pools) :
    s.takeSync id index =
      ((s.surface? id index).bind (·.sync), s.modifySurface id index Surface.settle) := by
  unfold takeSync
  exact Prod.ext rfl (modifyPool_const id (·.modify index Surface.settle) s)

/-- A surface is queued if there is one of its frame. -/
theorem markQueued_eq (id : PoolId) (d : DecodedSurface) (s : Pools) :
    s.markQueued id d = ((s.pool id).find? d.mid).map fun index =>
      (⟨index, d.mid, d.info, d.frameMeta⟩, s.modifySurface id index (·.queue d)) := by
  unfold markQueued Pool.markQueued
  cases h : (s.pool id).find? d.mid with
  | none => rfl
  | some index =>
    exact congrArg (fun p => some (_, p)) (modifyPool_const id (·.modify index (·.queue d)) s)

theorem length_surfaces_modifySurface (id id' : PoolId) (index : Nat) (f : Surface → Surface)
    (s : Pools) :
    ((s.modifySurface id index f).pool id').surfaces.length = (s.pool id').surfaces.length := by
  rw [modifySurface, pool_modifyPool]
  split
  · rename_i h
    rw [← h.1]
    simp [Pool.modify]
  · rfl

/-- The pools are those that they were, up to the state of their surfaces. -/
structure Steady (s s' : Pools) : Prop where
  length : s'.pools.length = s.pools.length
  frames : ∀ id, (s'.pool id).frames = (s.pool id).frames
  owned : ∀ id, (s'.pool id).owned = (s.pool id).owned
  surfaces : ∀ id, (s'.pool id).surfaces.length = (s.pool id).surfaces.length

theorem Steady.of_eq {s s' : Pools} (h : s'.pools = s.pools) : Steady s s' := by
  have hpool : ∀ id, s'.pool id = s.pool id := fun id => by
    unfold pool
    rw [h]
  constructor
  · rw [h]
  · intro id
    rw [hpool]
  · intro id
    rw [hpool]
  · intro id
    rw [hpool]

theorem Steady.trans {s s' s'' : Pools} (h : Steady s s') (h' : Steady s' s'') : Steady s s'' where
  length := h'.length.trans h.length
  frames := fun id => (h'.frames id).trans (h.frames id)
  owned := fun id => (h'.owned id).trans (h.owned id)
  surfaces := fun id => (h'.surfaces id).trans (h.surfaces id)

theorem steady_modifySurface (id : PoolId) (index : Nat) (f : Surface → Surface) (s : Pools) :
    Steady s (s.modifySurface id index f) where
  length := length_modifySurface id index f s
  frames := fun id' => pool_modifySurface_frames id id' index f s
  owned := fun id' => pool_modifySurface_owned id id' index f s
  surfaces := fun id' => length_surfaces_modifySurface id id' index f s

/-- Both surfaces of a picture may change at a time. -/
theorem Steady.pair (id : PoolId) (i j : Nat) (f : Surface → Surface) (s : Pools) :
    Steady s ((s.modifySurface id i f).modifySurface id j f) :=
  (steady_modifySurface id i f s).trans (steady_modifySurface id j f _)

/-- A free surface of the pool is the one handed to the engine. -/
theorem freeSurface?_eq_some {id : PoolId} {index : Nat} {work : WorkSurface} {s : Pools}
    (h : s.freeSurface? id = some (index, work)) :
    ∃ x, s.surface? id index = some x ∧ x.isFree s.resources = true ∧
      work = ⟨x.mid, x.info, x.lock⟩ := by
  unfold freeSurface? Pool.freeSurface? at h
  obtain ⟨i, hi, hrest⟩ := Option.bind_eq_some_iff.mp h
  obtain ⟨x, hx, hxw⟩ := Option.bind_eq_some_iff.mp hrest
  cases hxw
  obtain ⟨hlt, hfree, _⟩ := List.findIdx?_eq_some_iff_getElem.mp hi
  refine ⟨x, hx, ?_, rfl⟩
  rw [List.getElem?_eq_getElem hlt] at hx
  cases hx
  exact hfree

theorem find?_eq_some {mid : MemId} {p : Pool} {index : Nat} (h : p.find? mid = some index) :
    ∃ x, p.surfaces[index]? = some x ∧ x.mid = mid := by
  obtain ⟨hlt, heq, _⟩ := List.findIdx?_eq_some_iff_getElem.mp h
  exact ⟨_, List.getElem?_eq_getElem hlt, eq_of_beq heq⟩

/-- The surface that was handed to the engine is found in its pool again. -/
theorem exists_find? {id : PoolId} {index : Nat} {work : WorkSurface} {s : Pools}
    (h : s.freeSurface? id = some (index, work)) :
    ∃ found, (s.pool id).find? work.mid = some found := by
  obtain ⟨x, hx, _, rfl⟩ := freeSurface?_eq_some h
  have hmem : x ∈ (s.pool id).surfaces := List.mem_of_getElem? hx
  have hsome : ((s.pool id).find? x.mid).isSome = true := by
    unfold Pool.find?
    rw [List.findIdx?_isSome, List.any_eq_true]
    exact ⟨x, hmem, by simp⟩
  exact Option.isSome_iff_exists.mp hsome

/-! ## Freeing frames -/

theorem pool_freeFrames (id id' : PoolId) (s : Pools) :
    (s.freeFrames id).pool id' =
      if id = id' then { s.pool id with frames := none } else s.pool id' := by
  have hmod : (s.modifyPool id fun p => { p with frames := none }).pool id' =
      if id = id' then { s.pool id with frames := none } else s.pool id' := by
    rw [pool_modifyPool]
    by_cases hid : id = id'
    · subst hid
      by_cases hlt : id < s.pools.length
      · simp [hlt]
      · simp [hlt, pool_of_le (Nat.le_of_not_lt hlt)]
    · simp [hid]
  unfold freeFrames
  split
  · rename_i hnone
    split
    · rename_i hid
      subst hid
      rw [← hnone]
    · rfl
  · dsimp only
    split
    · exact hmod
    · exact hmod

/-- Freeing frames leaves everything alone but the pool, its allocator and the device. -/
theorem freeFrames_rest (id : PoolId) (s : Pools) :
    (s.freeFrames id).pictures = s.pictures ∧
      (s.freeFrames id).pools.length = s.pools.length ∧
      (s.freeFrames id).resources.locks = s.resources.locks ∧
      (s.freeFrames id).resources.allocators.length = s.resources.allocators.length ∧
      Platform.Grew s.platform (s.freeFrames id).platform := by
  unfold freeFrames
  split
  · exact ⟨rfl, rfl, rfl, rfl, .refl _⟩
  · rename_i frames hf
    dsimp only
    split
    · exact ⟨rfl, by simp [modifyPool], rfl, rfl, .refl _⟩
    · rename_i a ha
      refine ⟨rfl, by simp [modifyPool], rfl, by simp [Resources.setAllocator, modifyPool], ?_⟩
      exact (Allocator.free_quiet quiet_mixed _ a s.platform).trans
        (Allocator.close_quiet quiet_mixed _ _)

theorem freeFrames_allocators {id : PoolId} {s : Pools} {k : AllocatorId}
    (h : ∀ frames, (s.pool id).frames = some frames → frames.allocator ≠ k) :
    (s.freeFrames id).resources.allocators[k]? = s.resources.allocators[k]? := by
  unfold freeFrames
  split
  · rfl
  · rename_i frames hf
    dsimp only
    split
    · rfl
    · simp [Resources.setAllocator, modifyPool, h frames hf]

/-- A picture that is dropped is not alive any more if nobody else has it; its surfaces are free then
and the frames of its pool are freed if the pool is not used. -/
theorem drop_cases (id : PictureId) (s : Pools) :
    s.drop id = s ∧ (∀ x, s.pictures[id]? = some x → x.references = 0) ∨
    ∃ x n, s.pictures[id]? = some x ∧ x.references = n + 1 ∧
      (n ≠ 0 ∧
        s.drop id = { s with pictures := s.pictures.set id { x with references := n } } ∨
      n = 0 ∧
        s.drop id =
          settle x.pool
            (({ s with pictures := s.pictures.set id { x with references := 0 } }.modifySurface
              x.pool x.base.index Surface.release).modifySurface x.pool x.extra.index
                Surface.release)) := by
  unfold drop
  cases hx : s.pictures[id]? with
  | none => exact Or.inl ⟨rfl, nofun⟩
  | some x =>
    cases hr : x.references with
    | zero =>
      refine Or.inl ⟨by simp [hr], fun y hy => ?_⟩
      cases hy
      exact hr
    | succ n =>
      refine Or.inr ⟨x, n, rfl, hr, ?_⟩
      by_cases hn : n = 0
      · subst hn
        exact Or.inr ⟨rfl, by simp [hr, release_eq]⟩
      · exact Or.inl ⟨hn, by simp [hr, hn]⟩

theorem grew_settle (id : PoolId) (s : Pools) :
    Platform.Grew s.platform (s.settle id).platform := by
  unfold settle
  split
  · exact .refl _
  · exact (freeFrames_rest id s).2.2.2.2

theorem grew_drop (id : PictureId) (s : Pools) :
    Platform.Grew s.platform (s.drop id).platform := by
  rcases drop_cases id s with ⟨hd, _⟩ | ⟨x, n, _, _, ⟨_, hd⟩ | ⟨_, hd⟩⟩
  · rw [hd]
    exact .refl _
  · rw [hd]
    exact .refl _
  · rw [hd]
    exact grew_settle x.pool _

/-! ## Supplying frames -/

/-- A pool with the frames of a new allocator. -/
def supplied (id : PoolId) (info : FrameInfo) (memory : MemoryKind) (response : Response)
    (a : MixedAllocator) (platform : Platform) (s : Pools) : Pools :=
  ({ s with
      platform := platform
      resources := (s.resources.addAllocator a).2 }.addSurfaces id info response.mids).setFrames id
    ⟨s.resources.allocators.length, response, memory⟩

/-- The surfaces of new frames, each with a lock of its own. -/
def newSurfaces (info : FrameInfo) (mids : List MemId) (s : Pools) : List Surface :=
  List.zipWith (fun mid lock => { mid := mid, info := info, lock := lock }) mids
    (List.range' s.resources.locks.length mids.length)

theorem pool_supplied {id : PoolId} {s : Pools} (h : id < s.pools.length) (info : FrameInfo)
    (memory : MemoryKind) (response : Response) (a : MixedAllocator) (platform : Platform)
    (id' : PoolId) :
    (s.supplied id info memory response a platform).pool id' =
      if id = id' then
        { s.pool id with
          surfaces := (s.pool id).surfaces ++ s.newSurfaces info response.mids
          frames := (s.pool id).frames.or
            (some ⟨s.resources.allocators.length, response, memory⟩) }
      else s.pool id' := by
  unfold supplied setFrames addSurfaces
  rw [pool_modifyPool, pool_modifyPool, pool_modifyPool]
  by_cases hid : id = id'
  · subst hid
    simp only [modifyPool, List.length_modify, h, and_self, ↓reduceIte]
    rfl
  · simp only [hid, false_and, ↓reduceIte]
    rfl

theorem supplied_rest (id : PoolId) (info : FrameInfo) (memory : MemoryKind) (response : Response)
    (a : MixedAllocator) (platform : Platform) (s : Pools) :
    (s.supplied id info memory response a platform).pictures = s.pictures ∧
      (s.supplied id info memory response a platform).pools.length = s.pools.length ∧
      (s.supplied id info memory response a platform).resources =
        (((s.resources.addAllocator a).2).addLocks response.mids.length).2 ∧
      (s.supplied id info memory response a platform).platform = platform :=
  ⟨rfl, by simp [supplied, setFrames, addSurfaces, modifyPool], rfl, rfl⟩

/-- The frames supplied are all different, and those in host memory can be mapped. They are what the new
allocator holds, if it was asked for one kind of memory. -/
theorem supply_sound (id : PoolId) (info : FrameInfo) (memory : MemoryKind)
    (settings : Option TextureSettings) (request : Request) (s : Pools) :
    Sound (s.supply id info memory settings request) fun x =>
      match x.1 with
      | .error _ => ∃ platform, Platform.Grew s.platform platform ∧
          x.2 = { s with platform := platform } ∧
          (Suited memory settings request → s.platform.Gains platform [])
      | .ok (allocator, response) => ∃ a platform, Platform.Grew s.platform platform ∧
          allocator = s.resources.allocators.length ∧
          x.2 = s.supplied id info memory response a platform ∧ response.mids.Nodup ∧
          (settings = none → ∀ mid ∈ response.mids, Views.Maps (fun m => a.view m) mid) ∧
          (Suited memory settings request → MixedAllocator.Furnished memory response a ∧
            s.platform.Gains platform (MixedAllocator.handles a)) := by
  have hgrew := Allocator.allocate_quiet quiet_mixed request (MixedAllocator.empty.init settings)
    s.platform
  unfold supply
  refine (MixedAllocator.allocate_sound settings request s.platform).itself.bind ?_
  rintro ⟨answer, a, platform⟩ ⟨hf, hresult⟩
  have hg := hgrew.result hresult
  have hprovided : Suited memory settings request → Provided s.platform _ _ := fun h =>
    MixedAllocator.allocate_furnished h s.platform _ hresult
  cases answer with
  | error e => exact .pure ⟨platform, hg, rfl, hprovided⟩
  | ok response =>
    obtain ⟨hall, hmaps⟩ := hf response rfl
    refine .pure ⟨a, platform, hg, rfl, rfl, hall.nodup, hmaps, fun h => ?_⟩
    obtain ⟨textures, hgains, hfurnished, rfl⟩ := hprovided h
    exact ⟨hfurnished, hgains⟩

end Pools

end Multiview
