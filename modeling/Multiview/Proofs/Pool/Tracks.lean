import Multiview.Proofs.Pool.Lookup

/-!
Surfaces by their marks. A surface is tracked if it is marked as often as it is in use: once when it
waits in a queue or is part of a picture, and never otherwise. What queueing, pairing, showing and
releasing do to the marks matches what they do to the uses.
-/

namespace Multiview

/-- A surface that is `waiting` so many times in the queues and `shown` so many times in pictures. -/
structure Tracked (waiting shown : Nat) (x : Option Surface) : Prop where
  marked : waiting + shown = (x.any fun x => x.queued || x.render).toNat
  pending : waiting = (x.any (·.sync.isSome)).toNat
  apart : ∀ y, x = some y → ¬ (y.queued = true ∧ y.render = true)

namespace Tracked

variable {waiting shown n m : Nat} {x : Option Surface}

theorem le_one (h : Tracked waiting shown x) : waiting + shown ≤ 1 := by
  rw [h.marked]
  exact Bool.toNat_le _

theorem exists_of_pos (h : Tracked waiting shown x) (hpos : 0 < waiting + shown) :
    ∃ y, x = some y ∧ (y.queued || y.render) = true := by
  rw [h.marked] at hpos
  cases x with
  | none => cases hpos
  | some y =>
    refine ⟨y, rfl, ?_⟩
    cases hy : (y.queued || y.render) with
    | true => rfl
    | false => simp [hy] at hpos

theorem none_iff : Tracked waiting shown none ↔ waiting = 0 ∧ shown = 0 := by
  constructor
  · intro h
    have hm := h.marked
    simp only [Option.any_none, Bool.toNat_false] at hm
    omega
  · rintro ⟨rfl, rfl⟩
    exact ⟨rfl, rfl, nofun⟩

/-- A surface in no use can be queued. -/
theorem queue {y : Surface} (h : Tracked waiting shown (some y)) (hq : y.queued = false)
    (hr : y.render = false) (d : DecodedSurface) :
    Tracked (waiting + 1) shown (some (y.queue d)) := by
  have hm : waiting + shown = 0 := by simpa [hq, hr] using h.marked
  have hw : waiting = 0 := by omega
  have hs : shown = 0 := by omega
  subst hw hs
  refine ⟨rfl, rfl, ?_⟩
  rintro z hz ⟨_, hr'⟩
  cases hz
  cases hr'

/-- A surface that is taken out of its use can be released. -/
theorem release (h : Tracked (waiting + n) (shown + m) x) (hpos : 0 < n + m) :
    Tracked waiting shown (x.map Surface.release) := by
  have hle := h.le_one
  have hw : waiting = 0 := by omega
  have hs : shown = 0 := by omega
  subst hw hs
  cases x with
  | none => exact none_iff.mpr ⟨rfl, rfl⟩
  | some y =>
    refine ⟨rfl, rfl, ?_⟩
    rintro z hz ⟨hq', _⟩
    cases hz
    cases hq'

/-- A queued surface becomes part of a picture once it is settled. -/
theorem settle (h : Tracked (waiting + n) shown x) (hpos : 0 < n) :
    Tracked waiting (shown + n) (x.map Surface.settle) := by
  have hle := h.le_one
  have hn : n = 1 := by omega
  have hw : waiting = 0 := by omega
  have hs : shown = 0 := by omega
  subst hn hw hs
  cases x with
  | none => exact absurd h.marked (by simp)
  | some y =>
    refine ⟨h.marked, rfl, ?_⟩
    intro z hz
    cases hz
    exact h.apart y rfl

/-- A surface of a picture can be displayed. -/
theorem display (h : Tracked waiting shown x) (hpos : 0 < shown) :
    Tracked waiting shown (x.map Surface.display) := by
  obtain ⟨y, rfl, hy⟩ := h.exists_of_pos (by omega)
  have hm := h.marked
  simp only [Option.any_some, hy, Bool.toNat_true] at hm
  refine ⟨hm, h.pending, ?_⟩
  rintro z hz ⟨hq', _⟩
  cases hz
  cases hq'

theorem unmarked {y : Surface} (hq : y.queued = false) (hr : y.render = false)
    (hs : y.sync = none) : Tracked 0 0 (some y) := by
  refine ⟨by simp [hq, hr], by simp [hs], ?_⟩
  rintro z hz ⟨hq', _⟩
  cases hz
  exact absurd (hq'.symm.trans hq) nofun

end Tracked

/-! ## Uses in pictures -/

/-- The surfaces of a pool that a picture holds. -/
def Picture.shows (pool : PoolId) (p : Picture) : List Nat :=
  if p.isAlive ∧ p.pool = pool then [p.base.index, p.extra.index] else []

/-- The surfaces of a pool that are part of a picture, with repetitions if there are any. -/
def Pools.shown (pool : PoolId) (s : Pools) : List Nat := s.pictures.flatMap (Picture.shows pool)

theorem count_flatMap_set {α : Type} (f : α → List Nat) {l : List α} {id : Nat} {a : α} (b : α)
    (h : l[id]? = some a) (i : Nat) :
    ((l.set id b).flatMap f).count i + (f a).count i =
      (l.flatMap f).count i + (f b).count i := by
  induction l generalizing id with
  | nil => cases h
  | cons c l ih =>
    cases id with
    | zero =>
      cases h
      simp only [List.set_cons_zero, List.flatMap_cons, List.count_append]
      omega
    | succ id =>
      have hrest := ih h
      simp only [List.set_cons_succ, List.flatMap_cons, List.count_append]
      omega

theorem Pools.shown_append (pool : PoolId) (p : Picture) (s : Pools) :
    ({ s with pictures := s.pictures ++ [p] } : Pools).shown pool =
      s.shown pool ++ p.shows pool := by
  simp [Pools.shown]

namespace Pools

/-- References to a picture, none if it does not exist. -/
def references (id : PictureId) (s : Pools) : Nat := ((s.pictures[id]?).map (·.references)).getD 0

theorem references_append (id : PictureId) (p : Picture) (s : Pools) :
    ({ s with pictures := s.pictures ++ [p] } : Pools).references id =
      s.references id + if s.pictures.length = id then p.references else 0 := by
  unfold references
  rcases Nat.lt_trichotomy id s.pictures.length with hlt | heq | hgt
  · simp [List.getElem?_append_left hlt, Nat.ne_of_gt hlt]
  · simp [heq]
  · have hle : s.pictures.length + 1 ≤ id := hgt
    simp [List.getElem?_append_right (Nat.le_of_lt hgt), Nat.le_of_lt hgt, Nat.ne_of_lt hgt,
      Nat.sub_ne_zero_of_lt hgt]

theorem references_set {id : PictureId} {p : Picture} {s : Pools} (h : s.pictures[id]? = some p)
    (q : Picture) (id' : PictureId) :
    ({ s with pictures := s.pictures.set id q } : Pools).references id' =
      if id = id' then q.references else s.references id' := by
  have hlt : id < s.pictures.length := (List.getElem?_eq_some_iff.mp h).1
  unfold references
  by_cases hid : id = id'
  · subst hid
    simp [hlt]
  · simp [hid]

/-- The identifiers of the frames of a pool, in the order of its surfaces. -/
def mids (pool : PoolId) (s : Pools) : List MemId := (s.pool pool).surfaces.map (·.mid)

def lockIds (pool : PoolId) (s : Pools) : List LockId := (s.pool pool).surfaces.map (·.lock)

theorem surfaces_modifySurface (id id' : PoolId) (index : Nat) (f : Surface → Surface)
    (s : Pools) :
    ((s.modifySurface id index f).pool id').surfaces =
      if id = id' then (s.pool id').surfaces.modify index f else (s.pool id').surfaces := by
  rw [modifySurface, pool_modifyPool]
  by_cases hid : id = id'
  · subst hid
    by_cases hlt : id < s.pools.length
    · simp [hlt, Pool.modify]
    · simp [hlt, pool_of_le (Nat.le_of_not_lt hlt)]
  · simp [hid]

theorem map_modify_of_eq {α β : Type} {f : α → α} {g : α → β} (h : ∀ a, g (f a) = g a)
    (l : List α) (i : Nat) : (l.modify i f).map g = l.map g := by
  apply List.ext_getElem?
  intro j
  rw [List.getElem?_map, List.getElem?_map, List.getElem?_modify]
  by_cases hij : i = j
  · cases l[j]? with
    | none => rfl
    | some a => simp [hij, h]
  · simp [hij]

/-- Surfaces of one pool have other marks, and nothing else has changed for any surface. -/
structure Remarked (pool : PoolId) (indices : List Nat) (f : Surface → Surface) (s s' : Pools) :
    Prop where
  surface? : ∀ id i, s'.surface? id i =
    (s.surface? id i).map fun x => if pool = id ∧ i ∈ indices then f x else x
  mids : ∀ id, s'.mids id = s.mids id
  lockIds : ∀ id, s'.lockIds id = s.lockIds id

namespace Remarked

variable {pool : PoolId} {indices : List Nat} {f : Surface → Surface} {s s' s'' : Pools}

theorem of_surfaces (pool : PoolId) (f : Surface → Surface)
    (h : ∀ id, (s'.pool id).surfaces = (s.pool id).surfaces) :
    Remarked pool [] f s s' where
  surface? := fun id i => by
    simp [Pools.surface?, h]
  mids := fun id => by rw [Pools.mids, Pools.mids, h]
  lockIds := fun id => by rw [Pools.lockIds, Pools.lockIds, h]

theorem single (pool : PoolId) (hm : ∀ x, (f x).mid = x.mid) (hl : ∀ x, (f x).lock = x.lock)
    (index : Nat) (s : Pools) : Remarked pool [index] f s (s.modifySurface pool index f) where
  surface? := fun id i => by
    rw [surface?_modifySurface]
    simp only [List.mem_singleton, eq_comm]
  mids := fun id => by
    unfold Pools.mids
    rw [surfaces_modifySurface]
    split
    · exact map_modify_of_eq hm _ _
    · rfl
  lockIds := fun id => by
    unfold Pools.lockIds
    rw [surfaces_modifySurface]
    split
    · exact map_modify_of_eq hl _ _
    · rfl

theorem append {indices' : List Nat} (h : Remarked pool indices f s s')
    (h' : Remarked pool indices' f s' s'') (hf : ∀ x, f (f x) = f x) :
    Remarked pool (indices ++ indices') f s s'' where
  surface? := fun id i => by
    rw [h'.surface?, h.surface?, Option.map_map]
    congr 1
    funext x
    by_cases hid : pool = id
    · by_cases hi : i ∈ indices <;> by_cases hi' : i ∈ indices' <;> simp [hid, hi, hi', hf]
    · simp [hid]
  mids := fun id => (h'.mids id).trans (h.mids id)
  lockIds := fun id => (h'.lockIds id).trans (h.lockIds id)

/-- What happens to the pools apart from their surfaces does not matter. -/
theorem same (h : Remarked pool indices f s s')
    (he : ∀ id, (s''.pool id).surfaces = (s'.pool id).surfaces) :
    Remarked pool indices f s s'' where
  surface? := fun id i => by
    rw [← h.surface?, Pools.surface?, he]
    rfl
  mids := fun id => by
    rw [← h.mids, Pools.mids, he]
    rfl
  lockIds := fun id => by
    rw [← h.lockIds, Pools.lockIds, he]
    rfl

theorem pair (pool : PoolId) (hm : ∀ x, (f x).mid = x.mid) (hl : ∀ x, (f x).lock = x.lock)
    (hf : ∀ x, f (f x) = f x) (i j : Nat) (s : Pools) :
    Remarked pool [i, j] f s ((s.modifySurface pool i f).modifySurface pool j f) :=
  (single pool hm hl i s).append (single pool hm hl j _) hf

end Remarked

theorem surfaces_freeFrames (id id' : PoolId) (s : Pools) :
    ((s.freeFrames id).pool id').surfaces = (s.pool id').surfaces := by
  rw [pool_freeFrames]
  split
  · rename_i h
    rw [← h]
  · rfl

theorem surfaces_settle (id id' : PoolId) (s : Pools) :
    ((s.settle id).pool id').surfaces = (s.pool id').surfaces := by
  unfold settle
  split
  · rfl
  · exact surfaces_freeFrames id id' s

theorem pictures_settle (id : PoolId) (s : Pools) : (s.settle id).pictures = s.pictures := by
  unfold settle
  split
  · rfl
  · exact (freeFrames_rest id s).1

/-- A pool that its owner leaves keeps its surfaces. -/
theorem surfaces_disown (id id' : PoolId) (s : Pools) :
    ((s.disown id).pool id').surfaces = (s.pool id').surfaces := by
  unfold disown
  rw [surfaces_settle, pool_modifyPool]
  split
  · rename_i h
    rw [← h.1]
  · rfl

theorem locks_settle (id : PoolId) (s : Pools) :
    (s.settle id).resources.locks = s.resources.locks := by
  unfold settle
  split
  · rfl
  · exact (freeFrames_rest id s).2.2.1

/-- The surfaces of a picture are given back with its last reference. -/
def givenBack (n : Nat) (x : Picture) : List Nat :=
  if n = 0 then [x.base.index, x.extra.index] else []

theorem drop_spec {id : PictureId} {s : Pools} {x : Picture} {n : Nat}
    (hx : s.pictures[id]? = some x) (hn : x.references = n + 1) :
    (s.drop id).pictures = s.pictures.set id { x with references := n } ∧
      Remarked x.pool (givenBack n x) Surface.release s (s.drop id) ∧
      (s.drop id).resources.locks = s.resources.locks := by
  rcases drop_cases id s with ⟨_, hnone⟩ | ⟨y, m, hy, hm, hdrop⟩
  · rw [hnone x hx] at hn
    cases hn
  · cases hx.symm.trans hy
    cases Nat.succ.inj (hn.symm.trans hm)
    rcases hdrop with ⟨hpos, hd⟩ | ⟨rfl, hd⟩
    · rw [hd, givenBack, if_neg hpos]
      exact ⟨rfl, .of_surfaces _ _ fun _ => rfl, rfl⟩
    · rw [hd]
      refine ⟨pictures_settle _ _, ?_, locks_settle _ _⟩
      have hpair := Remarked.pair x.pool (f := Surface.release) (fun _ => rfl)
        (fun _ => rfl) (fun _ => rfl) x.base.index x.extra.index s
      exact hpair.same fun pool => surfaces_settle _ _ _

/-! ## New surfaces -/

theorem mids_newSurfaces (info : FrameInfo) (mids : List MemId) (s : Pools) :
    (s.newSurfaces info mids).map (·.mid) = mids := by
  have hlen : mids.length ≤ (List.range' s.resources.locks.length mids.length).length := by simp
  unfold newSurfaces
  rw [List.map_zipWith]
  calc List.zipWith (fun mid _ => mid) mids (List.range' s.resources.locks.length mids.length)
    _ = (mids.zip (List.range' s.resources.locks.length mids.length)).map Prod.fst :=
      List.map_uncurry_zip_eq_zipWith.symm
    _ = mids := List.map_fst_zip hlen

theorem lockIds_newSurfaces (info : FrameInfo) (mids : List MemId) (s : Pools) :
    (s.newSurfaces info mids).map (·.lock) =
      List.range' s.resources.locks.length mids.length := by
  have hlen : (List.range' s.resources.locks.length mids.length).length ≤ mids.length := by simp
  unfold newSurfaces
  rw [List.map_zipWith]
  calc List.zipWith (fun _ lock => lock) mids (List.range' s.resources.locks.length mids.length)
    _ = (mids.zip (List.range' s.resources.locks.length mids.length)).map Prod.snd :=
      List.map_uncurry_zip_eq_zipWith.symm
    _ = _ := List.map_snd_zip hlen

/-- New surfaces are in no use. -/
theorem tracked_newSurfaces (info : FrameInfo) (mids : List MemId) (s : Pools) (i : Nat) :
    Tracked 0 0 (s.newSurfaces info mids)[i]? := by
  cases hx : (s.newSurfaces info mids)[i]? with
  | none => exact Tracked.none_iff.mpr ⟨rfl, rfl⟩
  | some x =>
    obtain ⟨mid, lock, _, _, rfl⟩ := List.getElem?_zipWith_eq_some.mp hx
    exact .unmarked rfl rfl rfl

end Pools

end Multiview
