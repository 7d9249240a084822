import Multiview.Proofs.Pool.Backing

/-!
Whom memory is for. Every allocator is furnished for a pool or vacant, and the textures alive on the
device are those of all allocators together. A pool that is not used any more has its frames freed, so
that its allocator is vacant from then on.
-/

namespace Multiview

open Outcome

/-! ## Allocators over time -/

theorem MixedAllocator.Alike.refl (a : MixedAllocator) : MixedAllocator.Alike a a := ⟨rfl, .refl _⟩

theorem MixedAllocator.Alike.trans {a b c : MixedAllocator} (h : MixedAllocator.Alike a b)
    (h' : MixedAllocator.Alike b c) : MixedAllocator.Alike a c where
  held := h'.held.trans h.held
  store := ⟨h'.store.handles.trans h.store.handles, fun hv => h'.store.vacant (h.store.vacant hv),
    fun _ _ _ hs => h'.store.stocks _ _ _ (h.store.stocks _ _ _ hs)⟩

/-- Filling frames changes no allocator but for what its frames show. -/
theorem Refilled.alike {as bs : List MixedAllocator} (h : Refilled as bs) :
    bs.length = as.length ∧
      ∀ (id : AllocatorId) (a b : MixedAllocator), as[id]? = some a → bs[id]? = some b →
        MixedAllocator.Alike a b := by
  induction h with
  | refl =>
    refine ⟨rfl, fun id a b ha hb => ?_⟩
    cases ha.symm.trans hb
    exact .refl a
  | @fill bs id c c' mid start stop value _ hc hf ih =>
    obtain ⟨hlen, hall⟩ := ih
    refine ⟨List.length_set.trans hlen, fun id' a b ha hb => ?_⟩
    rw [List.getElem?_set] at hb
    split at hb
    · rename_i heq
      subst heq
      split at hb
      · cases hb
        exact (hall id a c ha hc).trans (MixedAllocator.fill_alike mid start stop value c c' hf)
      · cases hb
    · exact hall id' a b ha hb

theorem Refilled.handles {as bs : List MixedAllocator} (h : Refilled as bs) :
    bs.flatMap MixedAllocator.handles = as.flatMap MixedAllocator.handles := by
  obtain ⟨hlen, hall⟩ := h.alike
  have hmap : bs.map MixedAllocator.handles = as.map MixedAllocator.handles := by
    refine List.ext_getElem (by simpa using hlen) fun id hb ha => ?_
    rw [List.getElem_map, List.getElem_map]
    have hlt : id < as.length := by simpa using ha
    have hlt' : id < bs.length := by simpa using hb
    exact (hall id _ _ (List.getElem?_eq_getElem hlt) (List.getElem?_eq_getElem hlt')).store.handles
  rw [List.flatMap_def, List.flatMap_def, hmap]

/-- Allocators may have been emptied and added, but none is furnished again once it is vacant. -/
def Spends (as bs : List MixedAllocator) : Prop :=
  ∀ (id : AllocatorId) (a : MixedAllocator), as[id]? = some a → ∃ b, bs[id]? = some b ∧
    (MixedAllocator.Alike a b ∨ MixedAllocator.Vacant b)

namespace Spends

variable {as bs cs : List MixedAllocator}

theorem refl (as : List MixedAllocator) : Spends as as := fun _ a ha => ⟨a, ha, Or.inl (.refl a)⟩

theorem trans (h : Spends as bs) (h' : Spends bs cs) : Spends as cs := by
  intro id a ha
  obtain ⟨b, hb, hab⟩ := h id a ha
  obtain ⟨c, hc, halike | hvacant⟩ := h' id b hb
  · exact ⟨c, hc, hab.imp (fun h => h.trans halike) halike.vacant⟩
  · exact ⟨c, hc, Or.inr hvacant⟩

theorem refilled (h : Refilled as bs) : Spends as bs := by
  obtain ⟨hlen, hall⟩ := h.alike
  intro id a ha
  have hlt : id < bs.length := hlen ▸ (List.getElem?_eq_some_iff.mp ha).1
  exact ⟨bs[id], List.getElem?_eq_getElem hlt,
    Or.inl (hall id a _ ha (List.getElem?_eq_getElem hlt))⟩

theorem append (as bs : List MixedAllocator) : Spends as (as ++ bs) := by
  intro id a ha
  have hlt := (List.getElem?_eq_some_iff.mp ha).1
  exact ⟨a, by rw [List.getElem?_append_left hlt, ha], Or.inl (.refl a)⟩

theorem set (as : List MixedAllocator) (id : AllocatorId) {b : MixedAllocator}
    (hb : MixedAllocator.Vacant b) : Spends as (as.set id b) := by
  intro id' a ha
  have hlt := (List.getElem?_eq_some_iff.mp ha).1
  by_cases heq : id = id'
  · subst heq
    exact ⟨b, by simp [hlt], Or.inr hb⟩
  · exact ⟨a, by simp [heq, ha], Or.inl (.refl a)⟩

end Spends

namespace Pools

/-- Allocators are there for pools, and textures for allocators. -/
structure Tenanted (s : Pools) : Prop where
  sane : s.platform.Sane
  alive : (s.resources.allocators.flatMap MixedAllocator.handles).Perm s.platform.live
  furnished : ∀ {pool : PoolId} {f : PoolFrames}, (s.pool pool).frames = some f →
    ∃ a, s.resources.allocators[f.allocator]? = some a ∧
      MixedAllocator.Furnished f.memory f.response a
  /-- An allocator that no pool has frames of holds nothing. -/
  vacant : ∀ {id : AllocatorId} {a : MixedAllocator}, s.resources.allocators[id]? = some a →
    (∃ pool f, (s.pool pool).frames = some f ∧ f.allocator = id) ∨ MixedAllocator.Vacant a
  mids : ∀ {pool : PoolId} {f : PoolFrames}, (s.pool pool).frames = some f →
    s.mids pool = f.response.mids

/-- Pools that have frames are used, but for one that may be left. -/
def Lodged (left : Option PoolId) (s : Pools) : Prop :=
  ∀ pool, left ≠ some pool → (s.pool pool).frames.isSome = true → s.isUsed pool = true

/-- Pools may have been started, left and freed, but those still used have kept their frames. -/
structure Spent (s t : Pools) : Prop where
  allocators : Spends s.resources.allocators t.resources.allocators
  length : s.pools.length ≤ t.pools.length
  used : ∀ pool, pool < s.pools.length → t.isUsed pool = true → s.isUsed pool = true
  frames : ∀ {pool : PoolId} {f : PoolFrames}, (s.pool pool).frames = some f →
    t.isUsed pool = true → (t.pool pool).frames = some f

variable {s t u : Pools} {pool : PoolId}

theorem lt_of_frames {f : PoolFrames} (h : (s.pool pool).frames = some f) :
    pool < s.pools.length := by
  by_contra hge
  rw [pool_of_le (Nat.le_of_not_lt hge)] at h
  cases h

theorem Spent.refl (s : Pools) : Spent s s := ⟨.refl _, Nat.le_refl _, fun _ _ h => h, fun h _ => h⟩

theorem Spent.trans (h : Spent s t) (h' : Spent t u) : Spent s u where
  allocators := h.allocators.trans h'.allocators
  length := Nat.le_trans h.length h'.length
  used := fun pool hlt hu => h.used pool hlt (h'.used pool (Nat.lt_of_lt_of_le hlt h.length) hu)
  frames := fun hf hu =>
    have hlt := Nat.lt_of_lt_of_le (lt_of_frames hf) h.length
    h'.frames (h.frames hf (h'.used _ hlt hu)) hu

/-- Frames stay with their pools, even if some are filled. -/
theorem Spent.same (hl : s.pools.length ≤ t.pools.length)
    (hf : ∀ id, (t.pool id).frames = (s.pool id).frames)
    (hu : ∀ id, id < s.pools.length → t.isUsed id = true → s.isUsed id = true)
    (ha : Refilled s.resources.allocators t.resources.allocators) : Spent s t where
  allocators := .refilled ha
  length := hl
  used := hu
  frames := fun h _ => (hf _).trans h

theorem isUsed_iff : s.isUsed pool = true ↔
    (s.pool pool).owned = true ∨ ∃ p ∈ s.pictures, p.isAlive = true ∧ p.pool = pool := by
  simp [isUsed]

theorem isUsed_congr (ho : (t.pool pool).owned = (s.pool pool).owned)
    (hp : (∃ p ∈ t.pictures, p.isAlive = true ∧ p.pool = pool) ↔
      ∃ p ∈ s.pictures, p.isAlive = true ∧ p.pool = pool) : t.isUsed pool = s.isUsed pool := by
  rw [Bool.eq_iff_iff, isUsed_iff, isUsed_iff, ho, hp]

/-- Frames stay with their pools and allocators, even if some are filled. -/
theorem Tenanted.same (h : Tenanted s) (hf : ∀ id, (t.pool id).frames = (s.pool id).frames)
    (hm : ∀ id, t.mids id = s.mids id)
    (ha : Refilled s.resources.allocators t.resources.allocators)
    (hp : s.platform.Gains t.platform []) : Tenanted t := by
  obtain ⟨hlen, hall⟩ := ha.alike
  obtain ⟨hsane, hlive⟩ := hp h.sane
  refine ⟨hsane, ?_, fun {pool f} hsome => ?_, fun {id b} hb => ?_, fun {pool f} hsome => ?_⟩
  · rw [ha.handles, hlive, List.append_nil]
    exact h.alive
  · rw [hf] at hsome
    obtain ⟨a, hget, hfurnished⟩ := h.furnished hsome
    have hlt := hlen ▸ (List.getElem?_eq_some_iff.mp hget).1
    exact ⟨_, List.getElem?_eq_getElem hlt,
      (hall _ _ _ hget (List.getElem?_eq_getElem hlt)).furnished hfurnished⟩
  · have hlt := hlen ▸ (List.getElem?_eq_some_iff.mp hb).1
    have hget := List.getElem?_eq_getElem hlt
    rcases h.vacant hget with ⟨pool, f, hsome, hid⟩ | hvacant
    · exact Or.inl ⟨pool, f, (hf pool).trans hsome, hid⟩
    · exact Or.inr ((hall _ _ _ hget hb).vacant hvacant)
  · rw [hf] at hsome
    rw [hm]
    exact h.mids hsome

/-- A pool without frames is given those of a new allocator. -/
theorem Tenanted.equip (h : Tenanted s) (hn : (s.pool pool).frames = none) {memory : MemoryKind}
    {response : Response} {a : MixedAllocator} (ha : MixedAllocator.Furnished memory response a)
    (hf : ∀ id, (t.pool id).frames =
      if pool = id then some ⟨s.resources.allocators.length, response, memory⟩
      else (s.pool id).frames)
    (hm : ∀ id, t.mids id = if pool = id then response.mids else s.mids id)
    (has : t.resources.allocators = s.resources.allocators ++ [a])
    (hg : s.platform.Gains t.platform (MixedAllocator.handles a)) : Tenanted t := by
  obtain ⟨hsane, hlive⟩ := hg h.sane
  refine ⟨hsane, ?_, fun {id f} hsome => ?_, fun {id b} hb => ?_, fun {id f} hsome => ?_⟩
  · rw [has, hlive, List.flatMap_append, List.flatMap_singleton]
    exact h.alive.append_right _
  · rw [hf] at hsome
    split at hsome
    · cases hsome
      exact ⟨a, by rw [has]; simp, ha⟩
    · obtain ⟨b, hb, hfurnished⟩ := h.furnished hsome
      have hlt := (List.getElem?_eq_some_iff.mp hb).1
      exact ⟨b, by rw [has, List.getElem?_append_left hlt, hb], hfurnished⟩
  · rw [has, List.getElem?_append] at hb
    split at hb
    · refine (h.vacant hb).imp_left fun ⟨id', f, hsome, hid⟩ => ⟨id', f, ?_, hid⟩
      have hne : pool ≠ id' := by
        rintro rfl
        cases hn.symm.trans hsome
      rw [hf, if_neg hne]
      exact hsome
    · rename_i hge
      refine Or.inl ⟨pool, _, (hf pool).trans (if_pos rfl), ?_⟩
      have hzero := (List.getElem?_eq_some_iff.mp hb).1
      exact Nat.le_antisymm (Nat.le_of_not_lt hge)
        (Nat.sub_eq_zero_iff_le.mp (Nat.lt_one_iff.mp hzero))
  · rw [hf] at hsome
    rw [hm]
    split at hsome
    · rename_i heq
      cases hsome
      rw [if_pos heq]
    · rename_i heq
      rw [if_neg heq]
      exact h.mids hsome

/-! ## Freeing -/

theorem isUsed_freeFrames (id pool : PoolId) (s : Pools) :
    (s.freeFrames id).isUsed pool = s.isUsed pool := by
  unfold isUsed
  rw [(freeFrames_rest id s).1, pool_freeFrames]
  split
  · rename_i heq
    rw [heq]
  · rfl

/-- Freeing the frames of a pool releases its textures and leaves a vacant allocator. -/
theorem Tenanted.freed (h : Tenanted s) {f : PoolFrames} (hf : (s.pool pool).frames = some f) :
    ∃ a a', s.resources.allocators[f.allocator]? = some a ∧ MixedAllocator.Vacant a' ∧
      (s.freeFrames pool).resources.allocators = s.resources.allocators.set f.allocator a' ∧
      (s.freeFrames pool).platform = s.platform.releaseTextures (MixedAllocator.handles a) := by
  obtain ⟨a, ha, hfurnished⟩ := h.furnished hf
  obtain ⟨hvacant, hplatform⟩ := hfurnished.freed s.platform
  refine ⟨a, _, ha, hvacant, ?_, ?_⟩
  · unfold Pools.freeFrames
    rw [hf]
    simp only [modifyPool, ha]
    rfl
  · rw [← hplatform]
    unfold Pools.freeFrames
    rw [hf]
    simp only [modifyPool, ha]

theorem frames_of_freeFrames {id : PoolId} {f : PoolFrames}
    (h : ((s.freeFrames id).pool pool).frames = some f) :
    id ≠ pool ∧ (s.pool pool).frames = some f := by
  rw [pool_freeFrames] at h
  split at h
  · cases h
  · rename_i hne
    exact ⟨hne, h⟩

/-- What was in textures of the allocator is alive no more, and everything else still is. -/
theorem Tenanted.alive_set (h : Tenanted s) {id : AllocatorId} {a a' : MixedAllocator}
    (ha : s.resources.allocators[id]? = some a) (hv : MixedAllocator.Vacant a') :
    (s.platform.releaseTextures (MixedAllocator.handles a)).Sane ∧
      ((s.resources.allocators.set id a').flatMap MixedAllocator.handles).Perm
        (s.platform.releaseTextures (MixedAllocator.handles a)).live := by
  have hperm := h.alive.symm.trans (flatMap_set_perm ha hv.handles)
  obtain ⟨hnodup, _, hdisj⟩ := List.nodup_append'.mp (hperm.nodup_iff.mp h.sane.nodup)
  have hsub : MixedAllocator.handles a ⊆ s.platform.live :=
    fun x hx => hperm.symm.subset (List.mem_append_left _ hx)
  obtain ⟨hsane, hlive⟩ := h.sane.releaseTextures hnodup hsub
  refine ⟨hsane, ?_⟩
  rw [hlive]
  refine .trans ?_ (hperm.filter _).symm
  rw [List.filter_append, List.filter_eq_nil_iff.mpr, List.nil_append, List.filter_eq_self.mpr]
  · exact fun x hx => decide_eq_true fun hx' => hdisj hx' hx
  · exact fun x hx hnot => of_decide_eq_true hnot hx

theorem Tenanted.freeFrames (h : Tenanted s) (hb : Backed s) (id : PoolId) :
    Tenanted (s.freeFrames id) ∧
      Spends s.resources.allocators (s.freeFrames id).resources.allocators := by
  cases hf : (s.pool id).frames with
  | none =>
    have hsame : s.freeFrames id = s := by
      unfold Pools.freeFrames
      rw [hf]
    rw [hsame]
    exact ⟨h, .refl _⟩
  | some f =>
    obtain ⟨a, a', ha, hvacant, hallocators, hplatform⟩ := h.freed hf
    obtain ⟨hsane, halive⟩ := h.alive_set ha hvacant
    refine ⟨⟨hplatform ▸ hsane, ?_, fun {pool f'} hsome => ?_, fun {k b} hget => ?_,
      fun {pool f'} hsome => ?_⟩, ?_⟩
    · rw [hallocators, hplatform]
      exact halive
    · obtain ⟨hne, hold⟩ := frames_of_freeFrames hsome
      obtain ⟨b, hb', hfurnished'⟩ := h.furnished hold
      have hapart : f.allocator ≠ f'.allocator := fun he => hne (hb.apart hf hold he)
      exact ⟨b, by rw [hallocators, List.getElem?_set_ne hapart, hb'], hfurnished'⟩
    · rw [hallocators] at hget
      by_cases heq : f.allocator = k
      · subst heq
        rw [List.getElem?_set_self (List.getElem?_eq_some_iff.mp ha).1] at hget
        cases hget
        exact Or.inr hvacant
      · rw [List.getElem?_set_ne heq] at hget
        refine (h.vacant hget).imp_left fun ⟨pool, f', hsome, hk⟩ => ⟨pool, f', ?_, hk⟩
        have hne : id ≠ pool := by
          rintro rfl
          cases hf.symm.trans hsome
          exact heq hk
        rw [pool_freeFrames, if_neg hne]
        exact hsome
    · obtain ⟨_, hold⟩ := frames_of_freeFrames hsome
      rw [Pools.mids, surfaces_freeFrames]
      exact h.mids hold
    · rw [hallocators]
      exact .set _ _ hvacant

/-- Once a pool that may be left is settled all pools that have frames are used. -/
theorem Tenanted.settle (h : Tenanted s) (hb : Backed s) (hl : Lodged (some pool) s) :
    Tenanted (s.settle pool) ∧ Lodged none (s.settle pool) ∧ Spent s (s.settle pool) := by
  unfold Pools.settle
  split
  · rename_i hused
    refine ⟨h, fun id _ hsome => ?_, .refl _⟩
    by_cases heq : pool = id
    · exact heq ▸ hused
    · exact hl id (fun he => heq (Option.some.inj he)) hsome
  · rename_i hunused
    obtain ⟨htenanted, hspends⟩ := h.freeFrames hb pool
    refine ⟨htenanted, fun id _ hsome => ?_, hspends, ?_, fun id _ hu => ?_, fun {id f} hf hu => ?_⟩
    · rw [pool_freeFrames] at hsome
      split at hsome
      · cases hsome
      · rename_i hne
        rw [isUsed_freeFrames]
        exact hl id (fun he => hne (Option.some.inj he)) hsome
    · exact Nat.le_of_eq (freeFrames_rest pool s).2.1.symm
    · rwa [isUsed_freeFrames] at hu
    · rw [isUsed_freeFrames] at hu
      have hne : pool ≠ id := fun he => hunused (he ▸ hu)
      rw [pool_freeFrames, if_neg hne]
      exact hf

/-- One pool may be used no more, but its frames are still there. -/
structure Leaves (left : PoolId) (s t : Pools) : Prop where
  length : t.pools.length = s.pools.length
  frames : ∀ id, (t.pool id).frames = (s.pool id).frames
  mids : ∀ id, t.mids id = s.mids id
  resources : t.resources = s.resources
  platform : t.platform = s.platform
  used : ∀ id, t.isUsed id = true → s.isUsed id = true
  still : ∀ id, left ≠ id → s.isUsed id = true → t.isUsed id = true

/-- A pool that is left is settled, so that its frames are freed if nobody else uses it. -/
theorem Tenanted.leave (h : Tenanted s) (hb : Backed s) (hl : Lodged none s)
    (ht : Leaves pool s t) :
    Tenanted (t.settle pool) ∧ Lodged none (t.settle pool) ∧ Spent s (t.settle pool) := by
  have hrefilled : Refilled s.resources.allocators t.resources.allocators :=
    .of_eq (by rw [ht.resources])
  have hten : Tenanted t := h.same ht.frames ht.mids hrefilled (ht.platform ▸ .refl _)
  have hback : Backed t := hb.preserved (.of_eq ht.frames (by rw [ht.resources]) ht.mids)
  have hleft : Lodged (some pool) t := by
    intro id hne hsome
    rw [ht.frames] at hsome
    exact ht.still id (fun he => hne (congrArg some he)) (hl id (Option.some_ne_none _).symm hsome)
  have hspent : Spent s t :=
    .same (Nat.le_of_eq ht.length.symm) ht.frames (fun id _ => ht.used id) hrefilled
  obtain ⟨hsettled, hlodged, hrest⟩ := hten.settle hback hleft
  exact ⟨hsettled, hlodged, hspent.trans hrest⟩

theorem leaves_disown (pool : PoolId) (s : Pools) :
    Leaves pool s (s.modifyPool pool fun p => { p with owned := false }) := by
  have hpool := fun id => pool_modifyPool pool id (fun p => { p with owned := false }) s
  refine ⟨List.length_modify .., fun id => ?_, fun id => ?_, rfl, rfl, fun id hu => ?_,
    fun id hne hu => ?_⟩
  · rw [hpool]
    split
    · rename_i h
      rw [← h.1]
    · rfl
  · rw [Pools.mids, Pools.mids, hpool]
    split
    · rename_i h
      rw [← h.1]
    · rfl
  · rw [isUsed_iff, hpool] at hu
    refine isUsed_iff.mpr (hu.imp_left fun ho => ?_)
    split at ho
    · cases ho
    · exact ho
  · rw [isUsed_iff, hpool, if_neg fun h => hne h.1]
    exact isUsed_iff.mp hu

/-- A pool that its owner leaves is freed unless a picture of it is alive. -/
theorem Tenanted.disown (h : Tenanted s) (hb : Backed s) (hl : Lodged none s) (pool : PoolId) :
    Tenanted (s.disown pool) ∧ Lodged none (s.disown pool) ∧ Spent s (s.disown pool) :=
  h.leave hb hl (leaves_disown pool s)

/-- A picture that stays alive, or is of another pool, keeps its pool in use. -/
theorem exists_alive_set {id : PictureId} {x y : Picture} (hx : s.pictures[id]? = some x)
    (hy : y.isAlive = true ∧ y.pool = x.pool ∨ x.pool ≠ pool)
    (h : ∃ p ∈ s.pictures, p.isAlive = true ∧ p.pool = pool) :
    ∃ p ∈ s.pictures.set id y, p.isAlive = true ∧ p.pool = pool := by
  obtain ⟨p, hp, halive, hpool⟩ := h
  obtain ⟨i, hi⟩ := List.mem_iff_getElem?.mp hp
  by_cases heq : id = i
  · subst heq
    cases hx.symm.trans hi
    rcases hy with ⟨hya, hyp⟩ | hne
    · refine ⟨y, List.mem_of_getElem? (i := id) ?_, hya, hyp.trans hpool⟩
      rw [List.getElem?_set_self (List.getElem?_eq_some_iff.mp hx).1]
    · exact absurd hpool hne
  · exact ⟨p, List.mem_of_getElem? (i := i) (by rw [List.getElem?_set_ne heq, hi]), halive, hpool⟩

/-- A picture that has lost references was alive. -/
theorem exists_alive_of_set {id : PictureId} {x y : Picture} (hx : s.pictures[id]? = some x)
    (ha : x.isAlive = true) (hy : y.pool = x.pool)
    (h : ∃ p ∈ s.pictures.set id y, p.isAlive = true ∧ p.pool = pool) :
    ∃ p ∈ s.pictures, p.isAlive = true ∧ p.pool = pool := by
  obtain ⟨p, hp, halive, hpool⟩ := h
  rcases List.mem_or_eq_of_mem_set hp with hp | rfl
  · exact ⟨p, hp, halive, hpool⟩
  · exact ⟨x, List.mem_of_getElem? hx, ha, hy.symm.trans hpool⟩

theorem leaves_drop {id : PictureId} {x : Picture} (hx : s.pictures[id]? = some x)
    (ha : x.isAlive = true) {u : Pools}
    (hu : u = { s with pictures := s.pictures.set id { x with references := 0 } }) :
    Leaves x.pool s ((u.modifySurface x.pool x.base.index Surface.release).modifySurface x.pool
      x.extra.index Surface.release) := by
  have hsteady := Steady.pair x.pool x.base.index x.extra.index Surface.release u
  have hremark := Remarked.pair x.pool (f := Surface.release) (fun _ => rfl) (fun _ => rfl)
    (fun _ => rfl) x.base.index x.extra.index u
  have hpools : u.pools = s.pools ∧ u.resources = s.resources ∧ u.platform = s.platform := by
    rw [hu]
    exact ⟨rfl, rfl, rfl⟩
  have hpool : ∀ id, u.pool id = s.pool id := fun id => by rw [Pools.pool, hpools.1, Pools.pool]
  refine ⟨hsteady.length.trans (by rw [hpools.1]),
    fun pool => (hsteady.frames pool).trans (by rw [hpool]),
    fun pool => (hremark.mids pool).trans (by rw [Pools.mids, Pools.mids, hpool]),
    hpools.2.1, hpools.2.2, fun pool h => ?_, fun pool hne h => ?_⟩
  · rw [isUsed_iff, hsteady.owned, hu] at h
    exact isUsed_iff.mpr (h.imp_right
      (exists_alive_of_set (y := { x with references := 0 }) hx ha rfl))
  · rw [isUsed_iff, hsteady.owned, hu]
    exact (isUsed_iff.mp h).imp_right (exists_alive_set hx (Or.inr hne))

/-- With the last reference to the last picture of a pool that is left its frames are freed. -/
theorem Tenanted.drop (h : Tenanted s) (hb : Backed s) (hl : Lodged none s) (id : PictureId) :
    Tenanted (s.drop id) ∧ Lodged none (s.drop id) ∧ Spent s (s.drop id) := by
  have halive : ∀ {x : Picture} {n : Nat}, x.references = n + 1 → x.isAlive = true :=
    fun hn => decide_eq_true (hn ▸ Nat.succ_pos _)
  rcases drop_cases id s with ⟨hd, _⟩ | ⟨x, n, hx, hn, ⟨hpos, hd⟩ | ⟨_, hd⟩⟩
  · rw [hd]
    exact ⟨h, hl, .refl _⟩
  · rw [hd]
    have hused : ∀ pool, isUsed pool
        { s with pictures := s.pictures.set id { x with references := n } } = s.isUsed pool :=
      fun pool => isUsed_congr rfl ⟨exists_alive_of_set hx (halive hn) rfl,
        exists_alive_set hx (Or.inl ⟨decide_eq_true (Nat.pos_of_ne_zero hpos), rfl⟩)⟩
    exact ⟨h.same (fun _ => rfl) (fun _ => rfl) (.refl _) (.refl _),
      fun pool hne hsome => (hused pool).trans (hl pool hne hsome),
      .same (Nat.le_refl _) (fun _ => rfl) (fun pool _ hu => hused pool ▸ hu) (.refl _)⟩
  · rw [hd]
    exact h.leave hb hl (leaves_drop hx (halive hn) rfl)

end Pools

end Multiview
