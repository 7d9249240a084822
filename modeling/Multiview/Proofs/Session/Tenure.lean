import Multiview.Proofs.Pool.Tenancy
import Multiview.Proofs.Session.Content

/-!
Memory over runs. Every step of session and client keeps allocators furnished for the pools that are
used and vacant otherwise; textures come and go with them, and no response is held twice.
-/

namespace Multiview

open Relation

theorem Pools.owned_settle (id pool : PoolId) (s : Pools) :
    ((s.settle id).pool pool).owned = (s.pool pool).owned := by
  unfold settle
  split
  · rfl
  · rw [pool_freeFrames]
    split
    · rename_i heq
      rw [heq]
    · rfl

theorem Pools.owned_drop (id : PictureId) (pool : PoolId) (s : Pools) :
    ((s.drop id).pool pool).owned = (s.pool pool).owned := by
  rcases drop_cases id s with ⟨hd, _⟩ | ⟨x, n, _, _, ⟨_, hd⟩ | ⟨_, hd⟩⟩
  · rw [hd]
  · rw [hd]
    rfl
  · rw [hd, owned_settle]
    exact (Steady.pair x.pool x.base.index x.extra.index Surface.release _).owned pool

namespace Session

/-- Memory is there for pools that are used, and only the current pool is owned. -/
structure Tenured (s : Session SimulatedEngine) : Prop where
  tenanted : s.pools.Tenanted
  lodged : s.pools.Lodged none
  owner : ∀ pool, pool < s.pools.pools.length → (s.pools.pool pool).owned = true →
    s.current = some pool

section Keeps

variable {refs : List PictureId} {s t : Session SimulatedEngine} {pool : PoolId}

/-- Frames stay where they are, and the same pools are used by pictures. -/
theorem Tenured.same (h : Tenured s) (hc : t.current = s.current)
    (hs : Pools.Steady s.pools t.pools) (hm : ∀ id, t.pools.mids id = s.pools.mids id)
    (ha : Refilled s.pools.resources.allocators t.pools.resources.allocators)
    (hg : s.pools.platform.Gains t.pools.platform [])
    (hp : ∀ pool, t.pools.isUsed pool = s.pools.isUsed pool) :
    Tenured t ∧ s.pools.Spent t.pools := by
  refine ⟨⟨h.tenanted.same hs.frames hm ha hg, fun pool hne hsome => ?_, fun pool hlt ho => ?_⟩,
    .same (Nat.le_of_eq hs.length.symm) hs.frames (fun pool _ hu => hp pool ▸ hu) ha⟩
  · rw [hs.frames] at hsome
    rw [hp]
    exact h.lodged pool hne hsome
  · rw [hs.length] at hlt
    rw [hs.owned] at ho
    exact hc.trans (h.owner pool hlt ho)

/-- Nothing is done to pools and pictures. -/
theorem Tenured.quiet (h : Tenured s) (hc : t.current = s.current)
    (hp : t.pools.pools = s.pools.pools) (ht : t.pools.pictures = s.pools.pictures)
    (ha : Refilled s.pools.resources.allocators t.pools.resources.allocators)
    (hg : s.pools.platform.Gains t.pools.platform []) : Tenured t ∧ s.pools.Spent t.pools := by
  have hs : Pools.Steady s.pools t.pools := .of_eq hp
  refine h.same hc hs (fun id => ?_) ha hg fun id => Pools.isUsed_congr (hs.owned id) (by rw [ht])
  unfold Pools.mids Pools.pool
  rw [hp]

/-- One surface is marked differently. -/
theorem Tenured.mark (h : Tenured s) (hc : t.current = s.current) (pool : PoolId) (index : Nat)
    {f : Surface → Surface} (hm : ∀ x, (f x).mid = x.mid) (hl : ∀ x, (f x).lock = x.lock)
    (hp : t.pools = s.pools.modifySurface pool index f) : Tenured t ∧ s.pools.Spent t.pools := by
  have hmids := (Pools.Remarked.single pool hm hl index s.pools).mids
  have hsteady := Pools.steady_modifySurface pool index f s.pools
  rw [← hp] at hmids hsteady
  refine h.same hc hsteady hmids (.of_eq ?_) ?_ fun id => Pools.isUsed_congr (hsteady.owned id) ?_
  · rw [hp]
    rfl
  · rw [hp]
    exact .refl _
  · rw [hp]
    rfl

theorem Tenured.drop (h : Tenured s) (hb : s.pools.Backed) (id : PictureId)
    (pictures : List PictureId) :
    Tenured { s with pictures := pictures, pools := s.pools.drop id } ∧
      s.pools.Spent (s.pools.drop id) := by
  obtain ⟨htenanted, hlodged, hspent⟩ := h.tenanted.drop hb h.lodged id
  refine ⟨⟨htenanted, hlodged, fun pool hlt ho => ?_⟩, hspent⟩
  dsimp only at hlt ho
  rw [Pools.length_drop] at hlt
  rw [Pools.owned_drop] at ho
  exact h.owner pool hlt ho

theorem Tenured.startPool (h : Tenured s) (hc : s.current = none) :
    Tenured s.startPool ∧ s.pools.Spent s.startPool.pools := by
  have hpool := pool_startPool s
  have hused : ∀ id, s.startPool.pools.isUsed id = s.pools.isUsed id := fun id =>
    Pools.isUsed_congr (by rw [hpool]) Iff.rfl
  have hlength : s.startPool.pools.pools.length = s.pools.pools.length + 1 := by
    simp [Session.startPool, Pools.create]
  refine ⟨⟨h.tenanted.same (fun id => by rw [hpool]) (fun id => by rw [Pools.mids, hpool]; rfl)
    (.refl _) (.refl _), fun pool hne hsome => ?_, fun pool hlt ho => ?_⟩,
    .same (Nat.le_of_lt (hlength ▸ Nat.lt_succ_self _)) (fun id => by rw [hpool])
      (fun id _ hu => hused id ▸ hu) (.refl _)⟩
  · rw [hpool] at hsome
    rw [hused]
    exact h.lodged pool hne hsome
  · rw [hpool] at ho
    have hlen : pool < s.pools.pools.length + 1 := hlength ▸ hlt
    rcases Nat.lt_succ_iff_lt_or_eq.mp hlen with hlt | rfl
    · have hcur := h.owner pool hlt ho
      rw [hc] at hcur
      cases hcur
    · rfl

theorem Tenured.leavePool (h : Tenured s) (hb : s.pools.Backed) (hc : s.current = some pool) :
    Tenured { s with current := none, pools := s.pools.disown pool } ∧
      s.pools.Spent (s.pools.disown pool) := by
  obtain ⟨htenanted, hlodged, hspent⟩ := h.tenanted.disown hb h.lodged pool
  refine ⟨⟨htenanted, hlodged, fun id hlt ho => ?_⟩, hspent⟩
  dsimp only at hlt ho
  unfold Pools.disown at hlt ho
  rw [Pools.length_settle, Pools.modifyPool, List.length_modify] at hlt
  rw [Pools.owned_settle, Pools.pool_modifyPool] at ho
  split at ho
  · cases ho
  · rename_i hne
    have hcur := h.owner id hlt ho
    cases Option.some.inj (hc.symm.trans hcur)
    exact absurd ⟨rfl, hlt⟩ hne

theorem InStep.owned_equipped (h : InStep s) (hc : s.current = some pool) (info : FrameInfo)
    (memory : MemoryKind) (response : Response) (a : MixedAllocator) (platform : Platform)
    (id : PoolId) : ((s.equipped pool info memory response a platform).pools.pool id).owned =
      (s.pools.pool id).owned := by
  have hpool := Pools.pool_supplied (h.present pool hc).1 info memory response a platform id
  refine (congrArg Pool.owned hpool).trans ?_
  split
  · rename_i heq
    rw [← heq]
  · rfl

/-- New frames are those of a pool that is used. -/
theorem Tenured.equip (h : Tenured s) (hin : InStep s) (hc : s.current = some pool)
    (hf : (s.pools.pool pool).frames = none) (info : FrameInfo) {memory : MemoryKind}
    {response : Response} {a : MixedAllocator} {platform : Platform}
    (ha : MixedAllocator.Furnished memory response a)
    (hg : s.pools.platform.Gains platform (MixedAllocator.handles a)) :
    Tenured (s.equipped pool info memory response a platform) ∧
      s.pools.Spent (s.equipped pool info memory response a platform).pools := by
  have hmids := hin.mids_equipped hc hf info memory response a platform
  have hframes := hin.frames_equipped hc hf info memory response a platform
  have howned := hin.owned_equipped hc info memory response a platform
  have hgains : s.pools.platform.Gains
      (s.equipped pool info memory response a platform).pools.platform
      (MixedAllocator.handles a ++ []) := hg.trans (Platform.gains_engine _ _)
  rw [List.append_nil] at hgains
  have hlength : (s.equipped pool info memory response a platform).pools.pools.length =
      s.pools.pools.length :=
    (Pools.supplied_rest pool info memory response a platform s.pools).2.1
  have hallocators : (s.equipped pool info memory response a platform).pools.resources.allocators =
      s.pools.resources.allocators ++ [a] := rfl
  have hused : ∀ id, (s.equipped pool info memory response a platform).pools.isUsed id =
      s.pools.isUsed id := fun id => Pools.isUsed_congr (howned id) Iff.rfl
  refine ⟨⟨h.tenanted.equip hf ha hframes hmids hallocators hgains, fun id _ hsome => ?_,
    fun id hlt ho => ?_⟩, .append _ _, Nat.le_of_eq hlength.symm, fun id _ hu => hused id ▸ hu,
    fun {id f} hsome _ => ?_⟩
  · rw [hused]
    rw [hframes] at hsome
    split at hsome
    · rename_i heq
      exact Pools.isUsed_iff.mpr (Or.inl (heq ▸ (hin.present pool hc).2))
    · exact h.lodged id nofun hsome
  · rw [howned] at ho
    rw [hlength] at hlt
    exact h.owner id hlt ho
  · have hne : pool ≠ id := by
      rintro rfl
      cases hf.symm.trans hsome
    rw [hframes, if_neg hne]
    exact hsome

/-- A new picture is of a pool that is used anyway. -/
theorem Tenured.join (h : Tenured s) (ho : (s.pools.pool pool).owned = true) {b e : SurfaceInfo}
    {base extra : List SurfaceInfo} :
    Tenured ((s.withQueues ⟨base, extra⟩).joined pool b e) ∧
      s.pools.Spent ((s.withQueues ⟨base, extra⟩).joined pool b e).pools := by
  have hsteady : s.pools.Steady ((s.withQueues ⟨base, extra⟩).joined pool b e).pools :=
    (Pools.Steady.pair pool b.index e.index Surface.settle s.pools).trans (.of_eq rfl)
  refine h.same rfl hsteady remarked_joined.mids (.refl _) (.refl _) fun id => ?_
  rw [Bool.eq_iff_iff, Pools.isUsed_iff, Pools.isUsed_iff, hsteady.owned]
  refine ⟨?_, Or.imp_right fun ⟨p, hp, hex⟩ => ⟨p, List.mem_append_left _ hp, hex⟩⟩
  rintro (ho' | ⟨p, hp, hex⟩)
  · exact Or.inl ho'
  · rcases List.mem_append.mp hp with hp | hp
    · exact Or.inr ⟨p, hp, hex⟩
    · cases List.mem_singleton.mp hp
      exact Or.inl (hex.2 ▸ ho)

/-! ## Steps -/

theorem Move.tenured (h : Move s t) (hin : InStep s) (hb : s.pools.Backed) (hs : Tenured s) :
    Tenured t ∧ s.pools.Spent t.pools := by
  cases h with
  | aside h =>
    exact hs.quiet h.current h.pools h.table (.of_eq (by rw [h.resources])) h.textures
  | submit input he hc hf ha =>
    refine hs.quiet rfl rfl rfl (.of_eq ?_) (Platform.gains_engine _ _)
    rcases ha.locks with ⟨_, hr⟩ | ⟨_, hr⟩
    · exact congrArg Resources.allocators hr
    · exact (congrArg Resources.allocators hr).trans (SimulatedEngine.unlockAll_allocators _ _)
  | @receive pool index found work a d input he hc hf ha hm =>
    have hsub : Tenured (s.submitted input work a) ∧
        s.pools.Spent (s.submitted input work a).pools :=
      hs.quiet rfl rfl rfl ha.painted.refilled (Platform.gains_engine _ _)
    obtain ⟨hten, hspent⟩ := hsub.1.mark (t := (s.submitted input work a).received pool found d) rfl
      pool found (f := (·.queue d)) (fun _ => rfl) (fun _ => rfl) rfl
    exact ⟨hten, hsub.2.trans hspent⟩
  | wait point =>
    exact hs.quiet rfl rfl rfl (.of_eq (sync_allocators point _ _)) (Platform.gains_engine _ _)
  | reset he =>
    exact hs.quiet rfl rfl rfl (.of_eq (SimulatedEngine.unlockAll_allocators _ _))
      (Platform.gains_engine _ _)
  | closeDecoder hp =>
    exact hs.quiet rfl rfl rfl (.of_eq (SimulatedEngine.unlockAll_allocators _ _))
      (Platform.gains_engine _ _)
  | @dropBase pool x base hc hq =>
    exact hs.mark rfl pool x.index (f := Surface.release) (fun _ => rfl) (fun _ => rfl) rfl
  | @dropExtra pool x extra hc hq =>
    exact hs.mark rfl pool x.index (f := Surface.release) (fun _ => rfl) (fun _ => rfl) rfl
  | @dropPicture id rest hp => exact hs.drop hb id rest
  | startPool hc he => exact hs.startPool hc
  | leavePool hc hq he => exact hs.leavePool hb hc
  | equip info a he hc hf hn hm hg ha ht => exact hs.equip hin hc hf info ha ht

theorem Starts.tenured (h : Starts s t) (hs : Tenured s) : Tenured t ∧ s.pools.Spent t.pools := by
  cases h with
  | start hc hf ha hq hi => exact hs.quiet rfl rfl rfl (.refl _) (Platform.gains_engine _ _)

theorem Pairs.tenured (h : Pairs s t) (hin : InStep s) (hs : Tenured s) :
    Tenured t ∧ s.pools.Spent t.pools := by
  cases h with
  | pair hc hq hf => exact hs.join (hin.present _ hc).2

end Keeps

end Session

namespace Custody

/-- Everything that is known of a session and its memory. -/
structure Kept (c : Custody) : Prop where
  accounted : c.Accounted
  content : c.session.Content
  tenured : c.session.Tenured

theorem Step.tenured {c c' : Custody} (h : Step c c') (hc : c.Kept) :
    c'.session.Tenured ∧ c.session.pools.Spent c'.session.pools := by
  have hs := hc.tenured
  cases h with
  | take hp => exact hs.quiet rfl rfl rfl (.refl _) (.refl _)
  | @share refs taken s id hid =>
    have ha : Session.Accounted refs s := hc.accounted
    obtain ⟨x, n, hx, hn⟩ := ha.exists_picture (List.mem_append_right s.pictures hid)
    have hset : (s.pools.share id).pictures =
        s.pools.pictures.set id { x with references := x.references + 1 } := by
      change s.pools.pictures.modify id _ = _
      rw [List.modify_eq_set_getElem?, hx]
      rfl
    refine hs.same rfl (.of_eq rfl) (fun _ => rfl) (.refl _) (.refl _) fun pool =>
      Pools.isUsed_congr rfl ?_
    rw [hset]
    constructor
    · exact Pools.exists_alive_of_set hx (decide_eq_true (hn ▸ Nat.succ_pos n)) rfl
    · exact Pools.exists_alive_set hx (Or.inl ⟨decide_eq_true (Nat.succ_pos _), rfl⟩)
  | @drop refs taken s id =>
    exact hs.drop hc.content.backed id s.pictures
  | @mark refs taken s id p hid hp =>
    have hmids := Pools.Remarked.pair p.pool (f := Surface.display) (fun _ => rfl) (fun _ => rfl)
      (fun _ => rfl) p.base.index p.extra.index s.pools
    have hsteady := Pools.Steady.pair p.pool p.base.index p.extra.index Surface.display s.pools
    exact hs.same rfl hsteady hmids.mids (.refl _) (.refl _) fun id =>
      Pools.isUsed_congr (hsteady.owned id) Iff.rfl
  | reorder hr => exact ⟨hs, .refl _⟩

/-- Whatever session and client do, memory is kept for those who use it, and for nobody else. -/
theorem Runs.kept {c c' : Custody} (h : Runs c c') (hc : c.Kept) :
    c'.Kept ∧ c.session.pools.Spent c'.session.pools := by
  refine h.keeps (q := fun d => d.Kept ∧ c.session.pools.Spent d.session.pools) ?_ ?_ ⟨hc, .refl _⟩
  · intro refs taken s t hst ⟨hs, hspent⟩
    obtain ⟨⟨ha, hcon⟩, hten, hspent⟩ := hst.keeps
      (q := fun u => (Session.Accounted refs u ∧ u.Content) ∧ u.Tenured ∧
        c.session.pools.Spent u.pools)
      (fun u v hmove ⟨⟨ha, hcon⟩, hten, hspent⟩ =>
        have hkept := hmove.tenured ha.inStep hcon.backed hten
        ⟨⟨hmove.accounted ha, hmove.content ha hcon⟩, hkept.1, hspent.trans hkept.2⟩)
      (fun u v hstart ⟨⟨ha, hcon⟩, hten, hspent⟩ =>
        have hkept := hstart.tenured hten
        ⟨⟨hstart.accounted ha, hstart.content hcon⟩, hkept.1, hspent.trans hkept.2⟩)
      (fun u v hpair ⟨⟨ha, hcon⟩, hten, hspent⟩ =>
        have hkept := hpair.tenured ha.inStep hten
        ⟨⟨hpair.accounted ha, hpair.content hcon⟩, hkept.1, hspent.trans hkept.2⟩)
      ⟨⟨hs.accounted, hs.content⟩, hs.tenured, hspent⟩
    exact ⟨⟨ha, hcon, hten⟩, hspent⟩
  · intro d d' hstep ⟨hd, hspent⟩
    obtain ⟨hten, hspent'⟩ := hstep.tenured hd
    exact ⟨⟨hstep.accounted hd.accounted, hstep.content hd.accounted hd.content, hten⟩,
      hspent.trans hspent'⟩

end Custody

end Multiview
