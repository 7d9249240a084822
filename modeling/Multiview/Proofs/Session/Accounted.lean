import Multiview.Proofs.Pool.Tracks
import Multiview.Proofs.Session.InStep

/-!
Every surface and every picture is accounted for. A picture has as many references as it is waiting for
the client or in its hands; a surface is marked exactly while it is queued or part of a live picture;
and queues and pictures name the surfaces of their pool by index and frame alike.
-/

namespace Multiview

/-- The surface is where its description says. -/
def Pools.Places (pool : PoolId) (x : SurfaceInfo) (s : Pools) : Prop :=
  (s.mids pool)[x.index]? = some x.mid

theorem Pools.mids_getElem?_of_surface? {pools : Pools} {pool : PoolId} {i : Nat} {x : Surface}
    (h : pools.surface? pool i = some x) : (pools.mids pool)[i]? = some x.mid := by
  unfold mids
  rw [List.getElem?_map]
  exact congrArg (Option.map Surface.mid) h

namespace Session

/-- The surfaces of a pool that wait in the view queues. -/
def waiting (pool : PoolId) (s : Session SimulatedEngine) : List Nat :=
  if s.current = some pool then s.queues.toList.map (·.index) else []

/-- All that is held is accounted for; `refs` are the references that the client has. -/
structure Accounted (refs : List PictureId) (s : Session SimulatedEngine) : Prop where
  inStep : InStep s
  references : ∀ id, s.pools.references id = (s.pictures ++ refs).count id
  tracks : ∀ pool i, Tracked ((s.waiting pool).count i) ((s.pools.shown pool).count i)
    (s.pools.surface? pool i)
  mids : ∀ pool, (s.pools.mids pool).Nodup
  locks : ∀ pool, (s.pools.lockIds pool).Nodup
  queued : ∀ pool, s.current = some pool → ∀ x ∈ s.queues.toList, s.pools.Places pool x
  paired : ∀ p ∈ s.pools.pictures, s.pools.Places p.pool p.base ∧ s.pools.Places p.pool p.extra
  locksFit : LocksFit s.engine.inFlight s.pools.resources

section Keeps

variable {refs refs' : List PictureId} {s s' t : Session SimulatedEngine} {pool : PoolId}

/-- Marks may change as long as uses change with them. -/
theorem Accounted.remark {indices : List Nat} {f : Surface → Surface} (h : Accounted refs s)
    (hr : Pools.Remarked pool indices f s.pools s'.pools) (hin : InStep s')
    (hrefs : ∀ id, s'.pools.references id = (s'.pictures ++ refs').count id)
    (hhit : ∀ i ∈ indices, Tracked ((s'.waiting pool).count i) ((s'.pools.shown pool).count i)
      ((s.pools.surface? pool i).map f))
    (hmiss : ∀ id i, ¬ (pool = id ∧ i ∈ indices) →
      (s'.waiting id).count i = (s.waiting id).count i ∧
        (s'.pools.shown id).count i = (s.pools.shown id).count i)
    (hqueued : ∀ id, s'.current = some id → ∀ x ∈ s'.queues.toList, s.pools.Places id x)
    (hpaired : ∀ p ∈ s'.pools.pictures, s.pools.Places p.pool p.base ∧
      s.pools.Places p.pool p.extra)
    (hlocks : LocksFit s'.engine.inFlight s'.pools.resources) : Accounted refs' s' where
  inStep := hin
  references := hrefs
  tracks := by
    intro id i
    rw [hr.surface?]
    by_cases hi : pool = id ∧ i ∈ indices
    · obtain ⟨rfl, hmem⟩ := hi
      simp only [hmem, and_self, ↓reduceIte]
      exact hhit i hmem
    · have hsame : (s.pools.surface? id i).map
          (fun x => if pool = id ∧ i ∈ indices then f x else x) = s.pools.surface? id i := by
        simp [hi]
      obtain ⟨hw, hs⟩ := hmiss id i hi
      rw [hsame, hw, hs]
      exact h.tracks id i
  mids := fun id => by
    rw [hr.mids]
    exact h.mids id
  locks := fun id => by
    rw [hr.lockIds]
    exact h.locks id
  queued := fun id hc x hx => by
    unfold Pools.Places
    rw [hr.mids]
    exact hqueued id hc x hx
  paired := fun p hp => by
    unfold Pools.Places
    rw [hr.mids]
    exact hpaired p hp
  locksFit := hlocks

/-- Surfaces, queues and pictures are as they were. -/
structure Unmoved (s s' : Session SimulatedEngine) : Prop where
  waiting : ∀ pool, s'.waiting pool = s.waiting pool
  queues : s'.queues = {} ∨ s'.queues = s.queues ∧ s'.current = s.current
  pictures : s'.pictures = s.pictures
  surfaces : ∀ id, (s'.pools.pool id).surfaces = (s.pools.pool id).surfaces
  table : s'.pools.pictures = s.pools.pictures

theorem Unmoved.of_eq (hc : s'.current = s.current) (hq : s'.queues = s.queues)
    (hp : s'.pictures = s.pictures) (hpools : s'.pools.pools = s.pools.pools)
    (ht : s'.pools.pictures = s.pools.pictures) : Unmoved s s' where
  waiting := fun pool => by
    unfold Session.waiting
    rw [hc, hq]
  queues := Or.inr ⟨hq, hc⟩
  pictures := hp
  surfaces := fun id => by
    unfold Pools.pool
    rw [hpools]
  table := ht

theorem Accounted.unmoved (h : Accounted refs s) (hu : Unmoved s s') (hin : InStep s')
    (hl : LocksFit s'.engine.inFlight s'.pools.resources) : Accounted refs s' := by
  refine h.remark (.of_surfaces 0 Surface.release hu.surfaces) hin ?_ nofun ?_ ?_ ?_ hl
  · intro id
    unfold Pools.references
    rw [hu.table, hu.pictures]
    exact h.references id
  · intro id i _
    unfold Pools.shown
    rw [hu.waiting, hu.table]
    exact ⟨rfl, rfl⟩
  · intro id hc x hx
    rcases hu.queues with hq | ⟨hq, hcur⟩
    · rw [hq] at hx
      cases hx
    · exact h.queued id (hcur ▸ hc) x (hq ▸ hx)
  · intro p hp
    exact h.paired p (hu.table ▸ hp)

/-! ## Queues -/

theorem waiting_of_current (hc : s.current = some pool) :
    s.waiting pool = s.queues.toList.map (·.index) := if_pos hc

theorem waiting_of_ne {id : PoolId} (hc : s.current = some pool) (hne : pool ≠ id) :
    s.waiting id = [] := by
  unfold waiting
  rw [hc]
  exact if_neg fun he => hne (Option.some.inj he)

theorem waiting_of_empty (hq : s.queues = {}) (id : PoolId) : s.waiting id = [] := by
  unfold waiting
  rw [hq]
  split <;> rfl

theorem count_push (q : ViewQueues) (x : SurfaceInfo) (i : Nat) :
    ((q.push x).toList.map (·.index)).count i =
      (q.toList.map (·.index)).count i + if x.index = i then 1 else 0 := by
  unfold ViewQueues.push
  split
  · simp only [ViewQueues.toList, List.map_append, List.count_append, List.map_cons, List.map_nil,
      List.count_singleton, beq_iff_eq]
    omega
  · simp only [ViewQueues.toList, List.map_append, List.count_append, List.map_cons, List.map_nil,
      List.count_singleton, beq_iff_eq]
    omega

theorem mem_toList_push {q : ViewQueues} {x y : SurfaceInfo} (h : y ∈ (q.push x).toList) :
    y ∈ q.toList ∨ y = x := by
  unfold ViewQueues.push at h
  split at h
  · simp only [ViewQueues.toList, List.mem_append, List.mem_singleton] at h ⊢
    tauto
  · simp only [ViewQueues.toList, List.mem_append, List.mem_singleton] at h ⊢
    tauto

/-- The oldest surfaces of both views, and the rest. -/
theorem toList_perm_pair (b e : SurfaceInfo) (base extra : List SurfaceInfo) :
    (⟨b :: base, e :: extra⟩ : ViewQueues).toList.Perm
      ([b, e] ++ (⟨base, extra⟩ : ViewQueues).toList) :=
  List.Perm.cons b List.perm_middle

/-- Frames tell surfaces of a pool apart. -/
theorem Accounted.index_eq (h : Accounted refs s) {i j : Nat} {mid : MemId}
    (hi : (s.pools.mids pool)[i]? = some mid) (hj : (s.pools.mids pool)[j]? = some mid) :
    i = j := by
  obtain ⟨hlt, hi⟩ := List.getElem?_eq_some_iff.mp hi
  obtain ⟨hlt', hj⟩ := List.getElem?_eq_some_iff.mp hj
  exact (List.Nodup.getElem_inj_iff (h.mids pool)).mp (hi.trans hj.symm)

/-- A surface that came back was in no use before, and waits from then on. -/
theorem Accounted.receive (h : Accounted refs t) (hc : t.current = some pool)
    (he : t.engineReady = true) {index : Nat} {x : Surface}
    (hx : t.pools.surface? pool index = some x) (hq : x.queued = false) (hr : x.render = false)
    {d : DecodedSurface} (hd : d.mid = x.mid) : Accounted refs (t.received pool index d) := by
  have hwait : ((t.received pool index d).waiting pool) =
      ((t.queues.push ⟨index, d.mid, d.info, d.frameMeta⟩).toList.map (·.index)) :=
    waiting_of_current (s := t.received pool index d) hc
  refine h.remark (.single pool (f := (·.queue d)) (fun _ => rfl) (fun _ => rfl) index t.pools)
    (h.inStep.receive he hc index d) h.references ?_ ?_ ?_ h.paired h.locksFit
  · intro i hi
    rw [List.mem_singleton.mp hi]
    have hold := h.tracks pool index
    rw [waiting_of_current hc, hx] at hold
    rw [hwait, count_push, if_pos rfl, hx]
    exact hold.queue hq hr d
  · intro id i hi
    refine ⟨?_, rfl⟩
    by_cases hid : pool = id
    · subst hid
      have hne : index ≠ i := fun heq => hi ⟨rfl, List.mem_singleton.mpr heq.symm⟩
      rw [hwait, count_push, if_neg hne, waiting_of_current hc]
      rfl
    · rw [waiting_of_ne hc hid, waiting_of_ne (s := t.received pool index d) hc hid]
  · intro id hcur y hy
    rcases mem_toList_push hy with hy | rfl
    · exact h.queued id hcur y hy
    · cases Option.some.inj (hc.symm.trans hcur)
      refine (Pools.mids_getElem?_of_surface? hx).trans ?_
      rw [hd]

/-- A surface that is given up goes back to the pool. -/
theorem Accounted.release (h : Accounted refs s) (hc : s.current = some pool) {x : SurfaceInfo}
    {q : ViewQueues} (hq : s.queues.toList.Perm (x :: q.toList))
    (hin : InStep ((s.withQueues q).released pool x)) :
    Accounted refs ((s.withQueues q).released pool x) := by
  have hwait : ((s.withQueues q).released pool x).waiting pool = q.toList.map (·.index) :=
    waiting_of_current (s := (s.withQueues q).released pool x) hc
  have hcount : ∀ i, (s.waiting pool).count i =
      (q.toList.map (·.index)).count i + if x.index = i then 1 else 0 := by
    intro i
    rw [waiting_of_current hc, (hq.map _).count_eq i, List.map_cons, List.count_cons]
    simp only [beq_iff_eq]
  refine h.remark (.single pool (f := Surface.release) (fun _ => rfl) (fun _ => rfl) x.index s.pools)
    hin h.references ?_ ?_ ?_ h.paired h.locksFit
  · intro i hi
    have hold := h.tracks pool i
    rw [hcount, if_pos (List.mem_singleton.mp hi).symm] at hold
    rw [hwait]
    exact hold.release (m := 0) Nat.one_pos
  · intro id i hi
    refine ⟨?_, rfl⟩
    by_cases hid : pool = id
    · subst hid
      have hne : x.index ≠ i := fun heq => hi ⟨rfl, List.mem_singleton.mpr heq.symm⟩
      rw [hwait, hcount, if_neg hne]
      rfl
    · rw [waiting_of_ne hc hid, waiting_of_ne (s := (s.withQueues q).released pool x) hc hid]
  · intro id hcur y hy
    exact h.queued id hcur y (hq.symm.subset (List.mem_cons_of_mem _ hy))

section Joined

variable {b e : SurfaceInfo} {base extra : List SurfaceInfo}

theorem count_waiting_joined (hc : s.current = some pool)
    (hq : s.queues = ⟨b :: base, e :: extra⟩) (i : Nat) :
    (s.waiting pool).count i =
      (((s.withQueues ⟨base, extra⟩).joined pool b e).waiting pool).count i +
        [b.index, e.index].count i := by
  have hcur : ((s.withQueues ⟨base, extra⟩).joined pool b e).current = some pool := hc
  have hperm := (toList_perm_pair b e base extra).map (·.index)
  rw [waiting_of_current hc, waiting_of_current hcur, hq, hperm.count_eq i, List.map_append,
    List.count_append, Nat.add_comm]
  rfl

theorem shown_joined (id : PoolId) :
    ((s.withQueues ⟨base, extra⟩).joined pool b e).pools.shown id =
      s.pools.shown id ++ if pool = id then [b.index, e.index] else [] := by
  refine (Pools.shown_append id ⟨b, e, pool, 1⟩ s.pools).trans ?_
  simp [Picture.shows, Picture.isAlive]

theorem remarked_joined :
    Pools.Remarked pool [b.index, e.index] Surface.settle s.pools
      ((s.withQueues ⟨base, extra⟩).joined pool b e).pools :=
  (Pools.Remarked.pair pool (f := Surface.settle) (fun _ => rfl) (fun _ => rfl) (fun _ => rfl)
    b.index e.index s.pools).same fun _ => rfl

end Joined

/-- Two surfaces that make up a picture wait no longer, but stay marked. -/
theorem Accounted.join (h : Accounted refs s) (hc : s.current = some pool) {b e : SurfaceInfo}
    {base extra : List SurfaceInfo} (hq : s.queues = ⟨b :: base, e :: extra⟩)
    (hin : InStep ((s.withQueues ⟨base, extra⟩).joined pool b e)) :
    Accounted refs ((s.withQueues ⟨base, extra⟩).joined pool b e) := by
  generalize ht : (s.withQueues ⟨base, extra⟩).joined pool b e = t at hin ⊢
  have hcur : t.current = some pool := by
    rw [← ht]
    exact hc
  have htable : t.pools.pictures = s.pools.pictures ++ [⟨b, e, pool, 1⟩] := by
    rw [← ht]
    rfl
  have hremark : Pools.Remarked pool [b.index, e.index] Surface.settle s.pools t.pools :=
    ht ▸ remarked_joined
  have hperm : s.queues.toList.Perm ([b, e] ++ t.queues.toList) := by
    rw [hq, ← ht]
    exact toList_perm_pair b e base extra
  have hwait : ∀ i, (s.waiting pool).count i =
      (t.waiting pool).count i + [b.index, e.index].count i :=
    ht ▸ count_waiting_joined hc hq
  have hshown : ∀ id, t.pools.shown id =
      s.pools.shown id ++ if pool = id then [b.index, e.index] else [] :=
    ht ▸ shown_joined
  refine h.remark hremark hin ?_ ?_ ?_ ?_ ?_ (ht ▸ h.locksFit)
  · intro id
    have hold := h.references id
    have happ := Pools.references_append id ⟨b, e, pool, 1⟩ s.pools
    have hpics : t.pictures = s.pictures ++ [s.pools.pictures.length] := by
      rw [← ht]
      rfl
    unfold Pools.references at happ hold ⊢
    rw [htable, happ, hold, hpics]
    simp only [List.count_append, List.count_singleton, beq_iff_eq]
    omega
  · intro i hi
    have hold := h.tracks pool i
    rw [hwait] at hold
    rw [hshown, if_pos rfl, List.count_append]
    exact hold.settle (List.count_pos_iff.mpr hi)
  · intro id i hi
    by_cases hid : pool = id
    · subst hid
      have hzero : [b.index, e.index].count i = 0 :=
        List.count_eq_zero.mpr fun hmem => hi ⟨rfl, hmem⟩
      rw [hwait, hshown, if_pos rfl, List.count_append, hzero]
      exact ⟨rfl, rfl⟩
    · rw [hshown, if_neg hid, List.append_nil, waiting_of_ne hc hid, waiting_of_ne hcur hid]
      exact ⟨rfl, rfl⟩
  · intro id hid y hy
    cases Option.some.inj (hcur.symm.trans hid)
    exact h.queued pool hc y (hperm.symm.subset (List.mem_append_right _ hy))
  · intro p hp
    rw [htable] at hp
    rcases List.mem_append.mp hp with hp | hp
    · exact h.paired p hp
    · cases List.mem_singleton.mp hp
      exact ⟨h.queued pool hc b (hperm.symm.subset (by simp)),
        h.queued pool hc e (hperm.symm.subset (by simp))⟩

/-! ## Pictures -/

theorem Accounted.exists_picture (h : Accounted refs s) {id : PictureId}
    (hid : id ∈ s.pictures ++ refs) :
    ∃ x n, s.pools.pictures[id]? = some x ∧ x.references = n + 1 := by
  have hpos : 0 < s.pools.references id := by
    rw [h.references]
    exact List.count_pos_iff.mpr hid
  unfold Pools.references at hpos
  cases hx : s.pools.pictures[id]? with
  | none =>
    rw [hx] at hpos
    cases hpos
  | some x =>
    rw [hx] at hpos
    exact ⟨x, x.references - 1, rfl, (Nat.succ_pred_eq_of_pos hpos).symm⟩

/-- Other references do not move the surfaces of a picture. -/
theorem Accounted.paired_set (h : Accounted refs s) {id : PictureId} {x : Picture}
    (hx : s.pools.pictures[id]? = some x) {n : Nat} {p : Picture}
    (hp : p ∈ s.pools.pictures.set id { x with references := n }) :
    s.pools.Places p.pool p.base ∧ s.pools.Places p.pool p.extra := by
  rcases List.mem_or_eq_of_mem_set hp with hp | rfl
  · exact h.paired p hp
  · exact h.paired x (List.mem_of_getElem? hx)

/-- Dropping a reference to a picture gives its surfaces back if it was the last one. -/
theorem Accounted.drop (h : Accounted refs s) {id : PictureId} {pictures : List PictureId}
    (hperm : (s.pictures ++ refs).Perm (id :: (pictures ++ refs'))) :
    Accounted refs' { s with pictures := pictures, pools := s.pools.drop id } := by
  obtain ⟨x, n, hx, hn⟩ := h.exists_picture (hperm.symm.subset List.mem_cons_self)
  obtain ⟨htable, hremark, hlocks⟩ := Pools.drop_spec hx hn
  have hshown : ∀ pool i, ((s.pools.drop id).shown pool).count i +
      (if x.pool = pool then (Pools.givenBack n x).count i else 0) =
        (s.pools.shown pool).count i := by
    intro pool i
    have hset := count_flatMap_set (Picture.shows pool) { x with references := n } hx i
    have hshows : (x.shows pool).count i = (Picture.shows pool { x with references := n }).count i +
        if x.pool = pool then (Pools.givenBack n x).count i else 0 := by
      unfold Picture.shows Pools.givenBack
      by_cases hp : x.pool = pool <;> by_cases hz : n = 0 <;>
        simp [Picture.isAlive, hn, hp, hz, Nat.pos_of_ne_zero]
    unfold Pools.shown
    rw [htable]
    omega
  refine h.remark hremark (h.inStep.drop id pictures) ?_ ?_ ?_ h.queued ?_ ?_
  · intro j
    have hold := h.references j
    have hset := Pools.references_set hx { x with references := n } j
    have hthis : s.pools.references id = n + 1 := by
      rw [Pools.references, hx, Option.map_some, Option.getD_some, hn]
    unfold Pools.references at hset ⊢
    rw [hperm.count_eq j, List.count_cons] at hold
    rw [htable, hset]
    by_cases hj : id = j
    · subst hj
      rw [hthis, beq_self_eq_true, if_pos rfl] at hold
      simp only [↓reduceIte]
      omega
    · rw [beq_eq_false_iff_ne.mpr hj] at hold
      simp only [hj, ↓reduceIte]
      exact hold
  · intro i hi
    have hold := h.tracks x.pool i
    have hcount := hshown x.pool i
    rw [if_pos rfl] at hcount
    rw [← hcount] at hold
    have hpos : 0 < 0 + (Pools.givenBack n x).count i := by
      rw [Nat.zero_add]
      exact List.count_pos_iff.mpr hi
    exact hold.release (n := 0) hpos
  · intro pool i hi
    refine ⟨rfl, ?_⟩
    have hcount := hshown pool i
    by_cases hp : x.pool = pool
    · have hzero : (Pools.givenBack n x).count i = 0 :=
        List.count_eq_zero.mpr fun hmem => hi ⟨hp, hmem⟩
      rw [if_pos hp, hzero] at hcount
      exact hcount
    · rw [if_neg hp] at hcount
      exact hcount
  · intro p hp
    exact h.paired_set hx (htable ▸ hp)
  · exact h.locksFit.of_locks hlocks

/-- A picture goes over to the client with its reference. -/
theorem Accounted.handOver (h : Accounted refs s) {pictures : List PictureId}
    (hperm : (s.pictures ++ refs).Perm (pictures ++ refs')) :
    Accounted refs' { s with pictures := pictures } := by
  have hin : InStep { s with pictures := pictures } :=
    h.inStep.steady rfl rfl (fun hq => hq) h.inStep.views (.of_eq rfl) rfl h.inStep.ready
  refine h.remark (.of_surfaces 0 Surface.release fun _ => rfl) hin ?_ nofun
    (fun _ _ _ => ⟨rfl, rfl⟩) h.queued h.paired h.locksFit
  intro id
  rw [← hperm.count_eq id]
  exact h.references id

/-- A picture of the client can be shared. -/
theorem Accounted.share (h : Accounted refs s) {id : PictureId} (hid : id ∈ refs) :
    Accounted (id :: refs) { s with pools := s.pools.share id } := by
  obtain ⟨x, n, hx, hn⟩ := h.exists_picture (List.mem_append_right s.pictures hid)
  have hin : InStep { s with pools := s.pools.share id } :=
    h.inStep.steady rfl rfl (fun hq => hq) h.inStep.views (.of_eq rfl) rfl h.inStep.ready
  have htable : (s.pools.share id).pictures =
      s.pools.pictures.set id { x with references := x.references + 1 } := by
    have hlt := (List.getElem?_eq_some_iff.mp hx).1
    apply List.ext_getElem?
    intro j
    simp only [Pools.share, List.getElem?_modify, List.getElem?_set]
    by_cases hj : id = j
    · subst hj
      simp only [hx, hlt, ↓reduceIte]
      rfl
    · simp [hj]
  refine h.remark (.of_surfaces 0 Surface.release fun _ => rfl) hin ?_ nofun ?_ h.queued ?_
    h.locksFit
  · intro j
    have hold := h.references j
    have hset := Pools.references_set hx { x with references := x.references + 1 } j
    unfold Pools.references at hset ⊢
    rw [htable, hset]
    simp only [List.count_append, List.count_cons, beq_iff_eq] at hold ⊢
    by_cases hj : id = j
    · subst hj
      rw [Pools.references, hx, Option.map_some, Option.getD_some] at hold
      simp only [↓reduceIte]
      omega
    · simp only [hj, ↓reduceIte]
      exact hold
  · intro pool i _
    have hset := count_flatMap_set (Picture.shows pool)
      { x with references := x.references + 1 } hx i
    have hsame : Picture.shows pool { x with references := x.references + 1 } = x.shows pool := by
      simp [Picture.shows, Picture.isAlive, hn]
    rw [hsame] at hset
    refine ⟨rfl, ?_⟩
    unfold Pools.shown
    rw [htable]
    exact Nat.add_right_cancel hset
  · intro p hp
    exact h.paired_set hx (htable ▸ hp)

/-- The surfaces of a picture that the client has can be displayed. -/
theorem Accounted.mark (h : Accounted refs s) {id : PictureId} (hid : id ∈ refs) {p : Picture}
    (hp : s.pools.pictures[id]? = some p) :
    Accounted refs { s with pools := s.pools.markPicture p } := by
  obtain ⟨x, n, hx, hn⟩ := h.exists_picture (List.mem_append_right s.pictures hid)
  cases hp.symm.trans hx
  have hin : InStep { s with pools := s.pools.markPicture p } :=
    h.inStep.steady rfl rfl (fun hq => hq) h.inStep.views (.pair ..) rfl h.inStep.ready
  refine h.remark (Pools.Remarked.pair p.pool (f := Surface.display) (fun _ => rfl)
    (fun _ => rfl) (fun _ => rfl) p.base.index p.extra.index s.pools) hin h.references ?_
    (fun _ _ _ => ⟨rfl, rfl⟩) h.queued h.paired h.locksFit
  intro i hi
  refine (h.tracks p.pool i).display (List.count_pos_iff.mpr (List.mem_flatMap.mpr ?_))
  refine ⟨p, List.mem_of_getElem? hp, ?_⟩
  simpa [Picture.shows, Picture.isAlive, hn] using hi

/-! ## Pools -/

/-- A new pool is as empty as one that does not exist. -/
theorem pool_startPool (s : Session SimulatedEngine) (id : PoolId) :
    s.startPool.pools.pool id = s.pools.pool id := by
  simp only [Session.startPool, Pools.create, Pools.pool, List.getD_eq_getElem?_getD]
  rcases Nat.lt_trichotomy id s.pools.pools.length with hlt | heq | hgt
  · rw [List.getElem?_append_left hlt]
  · simp [heq]
  · have hle : s.pools.pools.length + 1 ≤ id := hgt
    rw [List.getElem?_eq_none (by simpa using hle), List.getElem?_eq_none (Nat.le_of_lt hgt)]

theorem Accounted.startPool (h : Accounted refs s) (hc : s.current = none)
    (hin : InStep s.startPool) : Accounted refs s.startPool := by
  have hq : s.queues = {} := h.inStep.absent hc
  refine h.unmoved ⟨fun pool => ?_, Or.inl hq, rfl, fun id => ?_, rfl⟩ hin h.locksFit
  · rw [waiting_of_empty hq, waiting_of_empty (s := s.startPool) hq]
  · rw [pool_startPool]

theorem Accounted.leavePool (h : Accounted refs s) (hq : s.queues = {})
    (hin : InStep { s with current := none, pools := s.pools.disown pool }) :
    Accounted refs { s with current := none, pools := s.pools.disown pool } := by
  refine h.unmoved ⟨fun pool => ?_, Or.inl hq, rfl, fun id => Pools.surfaces_disown pool id s.pools,
    Pools.pictures_settle _ _⟩ hin (h.locksFit.of_locks (Pools.locks_settle _ _))
  rw [waiting_of_empty hq]
  rfl

/-- No picture has surfaces of a pool without any. -/
theorem Accounted.pool_ne (h : Accounted refs s) (hbare : (s.pools.pool pool).surfaces = [])
    {p : Picture} (hp : p ∈ s.pools.pictures) : pool ≠ p.pool := by
  intro he
  have hplace := (h.paired p hp).1
  rw [Pools.Places, ← he, Pools.mids, hbare] at hplace
  cases hplace

section Equipped

variable (h : InStep s) (hc : s.current = some pool) (hf : (s.pools.pool pool).frames = none)
  (info : FrameInfo) (memory : MemoryKind) (response : Response) (a : MixedAllocator)
  (platform : Platform) (id : PoolId)

include h hc hf

theorem InStep.surfaces_equipped :
    ((s.equipped pool info memory response a platform).pools.pool id).surfaces =
      if pool = id then s.pools.newSurfaces info response.mids
      else (s.pools.pool id).surfaces := by
  have hpool := Pools.pool_supplied (h.present pool hc).1 info memory response a platform id
  refine (congrArg Pool.surfaces hpool).trans ?_
  split
  · rw [(h.bare pool hc hf).2, List.nil_append]
  · rfl

theorem InStep.frames_equipped :
    ((s.equipped pool info memory response a platform).pools.pool id).frames =
      if pool = id then some ⟨s.pools.resources.allocators.length, response, memory⟩
      else (s.pools.pool id).frames := by
  have hpool := Pools.pool_supplied (h.present pool hc).1 info memory response a platform id
  refine (congrArg Pool.frames hpool).trans ?_
  split
  · rw [hf]
    rfl
  · rfl

theorem InStep.mids_equipped :
    (s.equipped pool info memory response a platform).pools.mids id =
      if pool = id then response.mids else s.pools.mids id := by
  rw [Pools.mids, h.surfaces_equipped hc hf]
  split
  · exact Pools.mids_newSurfaces info response.mids s.pools
  · rfl

theorem InStep.lockIds_equipped :
    (s.equipped pool info memory response a platform).pools.lockIds id =
      if pool = id then List.range' s.pools.resources.locks.length response.mids.length
      else s.pools.lockIds id := by
  rw [Pools.lockIds, h.surfaces_equipped hc hf]
  split
  · exact Pools.lockIds_newSurfaces info response.mids s.pools
  · rfl

end Equipped

/-- New surfaces are in no use yet. -/
theorem Accounted.equip (h : Accounted refs s) (hc : s.current = some pool)
    (hf : (s.pools.pool pool).frames = none) (info : FrameInfo) (memory : MemoryKind)
    {response : Response} (a : MixedAllocator) (platform : Platform) (hn : response.mids.Nodup)
    (hin : InStep (s.equipped pool info memory response a platform)) :
    Accounted refs (s.equipped pool info memory response a platform) := by
  obtain ⟨hq, hbare⟩ := h.inStep.bare pool hc hf
  have hsurfaces := h.inStep.surfaces_equipped hc hf info memory response a platform
  have hmids := h.inStep.mids_equipped hc hf info memory response a platform
  have hlocks := h.inStep.lockIds_equipped hc hf info memory response a platform
  generalize ht : s.equipped pool info memory response a platform = t at hin hsurfaces hmids hlocks ⊢
  have htable : t.pools.pictures = s.pools.pictures := by
    rw [← ht]
    rfl
  have hqueues : t.queues = {} := by
    rw [← ht]
    exact hq
  refine ⟨hin, ?_, ?_, ?_, ?_, ?_, ?_, ?_⟩
  · rw [← ht]
    exact h.references
  · intro id i
    have hold := h.tracks id i
    have hshown : t.pools.shown id = s.pools.shown id := by
      unfold Pools.shown
      rw [htable]
    rw [waiting_of_empty hq] at hold
    rw [waiting_of_empty hqueues, hshown]
    by_cases hid : pool = id
    · subst hid
      have hnone : s.pools.surface? pool i = none := by simp [Pools.surface?, hbare]
      rw [hnone, Tracked.none_iff] at hold
      rw [hold.1, hold.2, Pools.surface?, hsurfaces, if_pos rfl]
      exact Pools.tracked_newSurfaces info response.mids s.pools i
    · rw [Pools.surface?, hsurfaces, if_neg hid]
      exact hold
  · intro id
    rw [hmids]
    split
    · exact hn
    · exact h.mids id
  · intro id
    rw [hlocks]
    split
    · exact List.nodup_range' ..
    · exact h.locks id
  · intro id _ x hx
    rw [hqueues] at hx
    cases hx
  · intro p hp
    rw [htable] at hp
    unfold Pools.Places
    rw [hmids, if_neg (h.pool_ne hbare hp)]
    exact h.paired p hp
  · have hfit : LocksFit s.engine.inFlight (s.pools.resources.addAllocator a).2 :=
      h.locksFit.of_locks rfl
    rw [← ht]
    exact hfit.addLocks response.mids.length

/-! ## Steps -/

/-- The surface that the engine gives back is the one that it was handed. -/
theorem Accounted.sliced (h : Accounted refs s) {index found : Nat} {work : WorkSurface}
    {a : DecodeAnswer SimulatedEngine} {d : DecodedSurface}
    (hf : s.pools.freeSurface? pool = some (index, work))
    (ha : SimulatedEngine.Sliced work s.engine s.pools.resources a d)
    (hm : (s.pools.pool pool).find? d.mid = some found) :
    found = index ∧ ∃ x, s.pools.surface? pool index = some x ∧ x.isFree s.pools.resources = true ∧
      work = ⟨x.mid, x.info, x.lock⟩ := by
  obtain ⟨x, hx, hfree, hwork⟩ := Pools.freeSurface?_eq_some hf
  obtain ⟨y, hy, hmid⟩ := Pools.find?_eq_some hm
  refine ⟨?_, x, hx, hfree, hwork⟩
  have hsame : y.mid = x.mid := by
    rw [hmid, ha.mid, hwork]
  have hfound : (s.pools.mids pool)[found]? = some y.mid := Pools.mids_getElem?_of_surface? hy
  rw [hsame] at hfound
  exact h.index_eq hfound (Pools.mids_getElem?_of_surface? hx)

theorem isFree_eq_true {x : Surface} {r : Resources} (h : x.isFree r = true) :
    r.isLocked x.lock = false ∧ x.queued = false ∧ x.render = false := by
  unfold Surface.isFree at h
  simpa [and_assoc] using h

theorem Move.accounted (h : Move s s') (hs : Accounted refs s) : Accounted refs s' := by
  have hin := h.inStep hs.inStep
  cases h with
  | aside h =>
    refine hs.unmoved (.of_eq h.current h.queues h.pictures h.pools h.table) hin ?_
    rw [h.engine.inFlight, h.resources]
    exact hs.locksFit
  | submit input he hc hf ha =>
    exact hs.unmoved (.of_eq rfl rfl rfl rfl rfl) hin (ha.locksFit hs.locksFit)
  | @receive pool index found work a d input he hc hf ha hm =>
    obtain ⟨rfl, x, hx, hfree, rfl⟩ := hs.sliced hf ha hm
    obtain ⟨_, hq, hr⟩ := isFree_eq_true hfree
    have hsub : Accounted refs (s.submitted input ⟨x.mid, x.info, x.lock⟩ a) := by
      refine hs.unmoved (.of_eq rfl rfl rfl rfl rfl) ?_ (ha.locksFit hs.locksFit)
      exact hs.inStep.steady rfl rfl id hs.inStep.views (.of_eq rfl) ha.allocator hs.inStep.ready
    exact hsub.receive hc he hx hq hr ha.mid
  | wait point =>
    exact hs.unmoved (.of_eq rfl rfl rfl rfl rfl) hin
      (SimulatedEngine.sync_locks point hs.locksFit)
  | reset he => exact hs.unmoved (.of_eq rfl rfl rfl rfl rfl) hin hs.locksFit.unlockAll
  | closeDecoder hp => exact hs.unmoved (.of_eq rfl rfl rfl rfl rfl) hin hs.locksFit.unlockAll
  | @dropBase pool x base hc hq =>
    refine hs.release hc ?_ hin
    rw [ViewQueues.toList, hq]
    rfl
  | @dropExtra pool x extra hc hq =>
    refine hs.release hc ?_ hin
    rw [ViewQueues.toList, hq]
    exact List.perm_middle
  | @dropPicture id rest hp =>
    refine hs.drop ?_
    rw [hp]
    rfl
  | startPool hc he => exact hs.startPool hc hin
  | leavePool hc hq he => exact hs.leavePool hq hin
  | equip info a he hc hf hn hm hg => exact hs.equip hc hf info _ a _ hn hin

theorem Starts.accounted (h : Starts s s') (hs : Accounted refs s) : Accounted refs s' := by
  have hin := h.inStep hs.inStep
  cases h with
  | start hc hf ha hq hi =>
    refine hs.unmoved (.of_eq rfl rfl rfl rfl rfl) hin ?_
    have halike := SimulatedEngine.init_alike s.params s.engine
    have hfly : (s.askInit.2).engine.inFlight = s.engine.inFlight := halike.inFlight
    change LocksFit (s.askInit.2).engine.inFlight s.pools.resources
    rw [hfly]
    exact hs.locksFit

theorem Pairs.accounted (h : Pairs s s') (hs : Accounted refs s) : Accounted refs s' := by
  have hin := h.inStep hs.inStep
  cases h with
  | pair hc hq hf => exact hs.join hc hq hin

theorem Feeding.accounted (h : Feeding s s') (hs : Accounted refs s) : Accounted refs s' :=
  h.keeps (fun _ _ => Move.accounted) (fun _ _ => Pairs.accounted) hs

theorem Preparing.accounted (h : Preparing s s') (hs : Accounted refs s) : Accounted refs s' :=
  h.keeps (fun _ _ => Move.accounted) (fun _ _ => Starts.accounted) hs

theorem Course.accounted (h : Course s s') (hs : Accounted refs s) : Accounted refs s' :=
  h.keeps (fun _ _ => Move.accounted) (fun _ _ => Starts.accounted) (fun _ _ => Pairs.accounted) hs

end Keeps

end Session

end Multiview
