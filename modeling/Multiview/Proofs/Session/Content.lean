import Multiview.Proofs.Pool.Backing
import Multiview.Proofs.Session.Exclusive
import Multiview.Proofs.Session.Provenance

/-!
What pictures show. The frame behind every surface that is queued or part of a live picture keeps what
was decoded into it: the engine only writes to the surface that it is handed, which is in no use, and
frames are freed with their pool alone.
-/

namespace Multiview

open Outcome Relation

namespace Session

/-- The surface is queued, or part of a live picture of the pool. -/
def Holds (pool : PoolId) (x : SurfaceInfo) (s : Session SimulatedEngine) : Prop :=
  (s.current = some pool ∧ x ∈ s.queues.toList) ∨
    ∃ p ∈ s.pools.pictures, p.isAlive = true ∧ p.pool = pool ∧ (x = p.base ∨ x = p.extra)

/-- Frames are backed, and those of surfaces in use show what was decoded. -/
structure Content (s : Session SimulatedEngine) : Prop where
  backed : s.pools.Backed
  kept : ∀ pool x, s.Holds pool x → s.pools.Keeps pool x

section Keeps

variable {refs : List PictureId} {s t : Session SimulatedEngine} {pool : PoolId}

theorem Content.preserved (h : Content s) (hp : Pools.Preserves s.pools t.pools)
    (hh : ∀ pool x, t.Holds pool x →
      s.Holds pool x ∧ (t.pools.pool pool).frames = (s.pools.pool pool).frames) : Content t where
  backed := h.backed.preserved hp
  kept := fun pool x hx => (h.kept pool x (hh pool x hx).1).preserved hp (hh pool x hx).2

/-- Steps that change neither frames nor allocators, and hold nothing new. -/
theorem Content.same (h : Content s) (hf : ∀ id, (t.pools.pool id).frames = (s.pools.pool id).frames)
    (ha : t.pools.resources.allocators = s.pools.resources.allocators)
    (hm : ∀ id, t.pools.mids id = s.pools.mids id)
    (hh : ∀ pool x, t.Holds pool x → s.Holds pool x) : Content t :=
  h.preserved (.of_eq hf ha hm) fun pool x hx => ⟨hh pool x hx, hf pool⟩

/-- Nothing happens to pools and pictures, and no surface is queued. -/
theorem Content.quiet (h : Content s) (hc : t.current = s.current) (hq : t.queues = s.queues)
    (hp : t.pools.pools = s.pools.pools) (ht : t.pools.pictures = s.pools.pictures)
    (ha : t.pools.resources.allocators = s.pools.resources.allocators) : Content t := by
  have hpool : ∀ id, t.pools.pool id = s.pools.pool id := fun id => by
    unfold Pools.pool
    rw [hp]
  refine h.same (fun id => by rw [hpool]) ha (fun id => by rw [Pools.mids, Pools.mids, hpool]) ?_
  intro pool x hx
  unfold Holds at hx ⊢
  rw [hc, hq, ht] at hx
  exact hx

/-- Surfaces that are held are among those of the pool, at their place. -/
theorem Accounted.places (h : Accounted refs s) {x : SurfaceInfo} (hx : s.Holds pool x) :
    s.pools.Places pool x := by
  rcases hx with ⟨hc, hx⟩ | ⟨p, hp, _, rfl, rfl | rfl⟩
  · exact h.queued pool hc x hx
  · exact (h.paired p hp).1
  · exact (h.paired p hp).2

theorem mem_inUse_of_holds (hc : s.current = some pool) {x : SurfaceInfo} (hx : s.Holds pool x) :
    x.index ∈ s.inUse pool := by
  rw [inUse_eq hc, waiting_of_current hc]
  rcases hx with ⟨_, hx⟩ | ⟨p, hp, ha, hpool, hx⟩
  · exact List.mem_append_left _ (List.mem_map_of_mem hx)
  · refine List.mem_append_right _ (List.mem_flatMap.mpr ⟨p, hp, ?_⟩)
    rw [Picture.shows, if_pos ⟨ha, hpool⟩]
    rcases hx with rfl | rfl <;> simp

/-- The frame that the engine is handed is not that of a surface in use. -/
theorem Accounted.mid_ne (h : Accounted refs s) (hc : s.current = some pool) {index : Nat}
    {work : WorkSurface} (hf : s.pools.freeSurface? pool = some (index, work)) {x : SurfaceInfo}
    (hx : s.Holds pool x) : x.mid ≠ work.mid := by
  obtain ⟨y, hy, _, hwork⟩ := Pools.freeSurface?_eq_some hf
  intro heq
  have hplace := h.places hx
  have hindex : (s.pools.mids pool)[index]? = some x.mid := by
    rw [heq, hwork]
    exact Pools.mids_getElem?_of_surface? hy
  have hsame := h.index_eq hplace hindex
  exact h.freeSurface?_not_inUse hc hf (hsame ▸ mem_inUse_of_holds hc hx)

/-- The engine writes to one frame of its own pool, which no surface in use has. -/
theorem Content.receive (h : Content s) (ha : Accounted refs s) (he : s.engineReady = true)
    (hc : s.current = some pool) {index found : Nat} {work : WorkSurface}
    {a : DecodeAnswer SimulatedEngine} {d : DecodedSurface} (input : Option Bitstream)
    (hf : s.pools.freeSurface? pool = some (index, work))
    (hd : SimulatedEngine.Sliced work s.engine s.pools.resources a d) :
    Content ((s.submitted input work a).received pool found d) := by
  obtain ⟨pool', frames, hc', hframes, halloc⟩ := ha.inStep.equipped he
  cases Option.some.inj (hc.symm.trans hc')
  generalize ht : (s.submitted input work a).received pool found d = t
  have hpool : ∀ id, (t.pools.pool id).frames = (s.pools.pool id).frames := by
    intro id
    rw [← ht]
    exact (Pools.steady_modifySurface pool found _ (s.submitted input work a).pools).frames id
  have hmids : ∀ id, t.pools.mids id = s.pools.mids id := by
    intro id
    rw [← ht]
    exact (Pools.Remarked.single pool (f := (·.queue d)) (fun _ => rfl) (fun _ => rfl) found
      (s.submitted input work a).pools).mids id
  have hpainted : Painted (some frames.allocator) work.mid
      (lumaPattern d.info.viewId d.frameMeta.frameOrder) s.pools.resources t.pools.resources := by
    rw [← ht, ← halloc]
    exact hd.painted
  have hold : ∀ id x, s.Holds id x → t.pools.Keeps id x := by
    intro id x hx
    refine (h.kept id x hx).painted hpainted (hpool id) fun f hsome heq => ?_
    cases h.backed.apart hsome hframes (Option.some.inj heq.symm)
    exact ha.mid_ne hc hf hx
  refine ⟨h.backed.painted hpainted hpool hmids, fun id x hx => ?_⟩
  rw [← ht] at hx
  rcases hx with ⟨hcur, hx⟩ | hx
  · cases Option.some.inj (hc.symm.trans hcur)
    rcases mem_toList_push hx with hx | rfl
    · exact hold pool x (Or.inl ⟨hc, hx⟩)
    · obtain ⟨y, hy, _, hwork⟩ := Pools.freeSurface?_eq_some hf
      have hmem : d.mid ∈ s.pools.mids pool := by
        rw [hd.mid, hwork]
        exact List.mem_of_getElem? (Pools.mids_getElem?_of_surface? hy)
      exact h.backed.keeps_painted hframes ((hpool pool).trans hframes) hmem (hd.mid ▸ hpainted)
  · exact hold id x (Or.inr hx)

/-- What is held after a reference was dropped was held before, and its frames are there. -/
theorem Content.drop (h : Content s) (hin : InStep s) (id : PictureId)
    (pictures : List PictureId) :
    Content { s with pictures := pictures, pools := s.pools.drop id } := by
  obtain ⟨hpres, hframes⟩ := Pools.drop_preserves h.backed id
  refine h.preserved hpres fun pool x hx => ?_
  rcases hx with ⟨hc, hx⟩ | ⟨p, hp, ha, rfl, hx⟩
  · exact ⟨Or.inl ⟨hc, hx⟩, (Pools.drop_owned id (hin.present pool hc).2).1⟩
  · refine ⟨Or.inr ?_, hframes p hp ha⟩
    rcases Pools.drop_cases id s.pools with ⟨hd, _⟩ | ⟨y, n, hy, hn, _⟩
    · rw [hd] at hp
      exact ⟨p, hp, ha, rfl, hx⟩
    · rw [(Pools.drop_spec hy hn).1] at hp
      rcases List.mem_or_eq_of_mem_set hp with hp | rfl
      · exact ⟨p, hp, ha, rfl, hx⟩
      · exact ⟨y, List.mem_of_getElem? hy, by simp [Picture.isAlive, hn], rfl, hx⟩

theorem Content.leavePool (h : Content s) (pool : PoolId) :
    Content { s with current := none, pools := s.pools.disown pool } := by
  obtain ⟨hpres, hframes⟩ := Pools.disown_preserves h.backed pool
  refine h.preserved hpres fun id x hx => ?_
  rcases hx with ⟨hc, _⟩ | ⟨p, hp, ha, rfl, hx⟩
  · cases hc
  · have hp : p ∈ s.pools.pictures := by
      have htable : (s.pools.disown pool).pictures = s.pools.pictures := Pools.pictures_settle _ _
      exact htable ▸ hp
    exact ⟨Or.inr ⟨p, hp, ha, rfl, hx⟩, hframes p hp ha⟩

/-- A picture shows what its surfaces showed. -/
theorem Content.join (h : Content s) (hc : s.current = some pool) {b e : SurfaceInfo}
    {base extra : List SurfaceInfo} (hq : s.queues = ⟨b :: base, e :: extra⟩) :
    Content ((s.withQueues ⟨base, extra⟩).joined pool b e) := by
  have hperm : s.queues.toList.Perm ([b, e] ++ (base ++ extra)) := by
    rw [hq]
    exact toList_perm_pair b e base extra
  refine h.same (Pools.Steady.pair ..).frames rfl remarked_joined.mids fun id x hx => ?_
  rcases hx with ⟨hcur, hx⟩ | ⟨p, hp, ha, hpool, hx⟩
  · cases Option.some.inj (hc.symm.trans hcur)
    exact Or.inl ⟨hc, hperm.symm.subset (List.mem_append_right _ hx)⟩
  · rcases List.mem_append.mp hp with hp | hp
    · exact Or.inr ⟨p, hp, ha, hpool, hx⟩
    · cases List.mem_singleton.mp hp
      cases hpool
      refine Or.inl ⟨hc, hperm.symm.subset (List.mem_append_left _ ?_)⟩
      rcases hx with rfl | rfl <;> simp

/-- A surface that is given up is not held any more. -/
theorem Content.release (h : Content s) {x : SurfaceInfo} {q : ViewQueues}
    (hq : q.toList ⊆ s.queues.toList) : Content ((s.withQueues q).released pool x) := by
  refine h.same (Pools.steady_modifySurface ..).frames rfl (fun id => ?_) fun id y hy => ?_
  · exact (Pools.Remarked.single pool (f := Surface.release) (fun _ => rfl) (fun _ => rfl) x.index
      s.pools).mids id
  · exact hy.imp (fun hy => ⟨hy.1, hq hy.2⟩) fun hy => hy

/-- New frames get an allocator of their own. -/
theorem Content.equip (h : Content s) (hin : InStep s) (hc : s.current = some pool)
    (hf : (s.pools.pool pool).frames = none) (info : FrameInfo) {memory : MemoryKind}
    {response : Response} (a : MixedAllocator) (platform : Platform)
    (hm : memory = .system → ∀ mid ∈ response.mids, Views.Maps (fun m => a.view m) mid) :
    Content (s.equipped pool info memory response a platform) := by
  have hmids := hin.mids_equipped hc hf info memory response a platform
  have hframes := hin.frames_equipped hc hf info memory response a platform
  generalize ht : s.equipped pool info memory response a platform = t at hmids hframes ⊢
  have halloc : t.pools.resources.allocators = s.pools.resources.allocators ++ [a] := by
    rw [← ht]
    rfl
  have hcases : ∀ {id : PoolId} {f : PoolFrames}, (t.pools.pool id).frames = some f →
      pool = id ∧ f = ⟨s.pools.resources.allocators.length, response, memory⟩ ∨
        pool ≠ id ∧ (s.pools.pool id).frames = some f := by
    intro id f hsome
    rw [hframes] at hsome
    by_cases hid : pool = id
    · rw [if_pos hid] at hsome
      exact Or.inl ⟨hid, (Option.some.inj hsome).symm⟩
    · rw [if_neg hid] at hsome
      exact Or.inr ⟨hid, hsome⟩
  refine ⟨⟨fun {id id' f f'} hsome hsome' heq => ?_, fun {id f} hsome => ?_⟩, fun id x hx => ?_⟩
  · rcases hcases hsome with ⟨rfl, rfl⟩ | ⟨_, hold⟩
    · rcases hcases hsome' with ⟨rfl, _⟩ | ⟨_, hold'⟩
      · rfl
      · exact absurd heq.symm (Nat.ne_of_lt (h.backed.below hold'))
    · rcases hcases hsome' with ⟨rfl, rfl⟩ | ⟨_, hold'⟩
      · exact absurd heq (Nat.ne_of_lt (h.backed.below hold))
      · exact h.backed.apart hold hold' heq
  · rcases hcases hsome with ⟨rfl, rfl⟩ | ⟨hne, hold⟩
    · refine ⟨a, by rw [halloc]; simp, ?_⟩
      rw [hmids, if_pos rfl]
      exact hm
    · obtain ⟨b, hb, hmaps⟩ := h.backed.maps hold
      refine ⟨b, ?_, ?_⟩
      · rw [halloc, List.getElem?_append_left (h.backed.below hold)]
        exact hb
      · rw [hmids, if_neg hne]
        exact hmaps
  · have hx : s.Holds id x := by
      rw [← ht] at hx
      exact hx
    obtain ⟨f, b, hsome, hb, hshows⟩ := h.kept id x hx
    have hne : pool ≠ id := by
      rintro rfl
      rw [hf] at hsome
      cases hsome
    refine ⟨f, b, ?_, ?_, hshows⟩
    · rw [hframes, if_neg hne]
      exact hsome
    · rw [halloc, List.getElem?_append_left (h.backed.below hsome)]
      exact hb

/-! ## Steps -/

theorem Move.content (h : Move s t) (ha : Accounted refs s) (hs : Content s) : Content t := by
  cases h with
  | aside h => exact hs.quiet h.current h.queues h.pools h.table (by rw [h.resources])
  | submit input he hc hf hidle =>
    refine hs.quiet rfl rfl rfl rfl ?_
    rcases hidle.locks with ⟨_, hr⟩ | ⟨_, hr⟩
    · exact congrArg Resources.allocators hr
    · exact (congrArg Resources.allocators hr).trans (SimulatedEngine.unlockAll_allocators _ _)
  | receive input he hc hf hsliced hm => exact hs.receive ha he hc input hf hsliced
  | wait point => exact hs.quiet rfl rfl rfl rfl (sync_allocators point _ _)
  | reset he => exact hs.quiet rfl rfl rfl rfl (SimulatedEngine.unlockAll_allocators _ _)
  | closeDecoder hp => exact hs.quiet rfl rfl rfl rfl (SimulatedEngine.unlockAll_allocators _ _)
  | @dropBase pool x base hc hq =>
    refine hs.release fun y hy => ?_
    rw [ViewQueues.toList, hq]
    exact List.mem_cons_of_mem x hy
  | @dropExtra pool x extra hc hq =>
    refine hs.release fun y hy => ?_
    rw [ViewQueues.toList, hq]
    exact List.perm_middle.symm.subset (List.mem_cons_of_mem x hy)
  | @dropPicture id rest hp => exact hs.drop ha.inStep id rest
  | startPool hc he =>
    refine hs.same (fun id => by rw [pool_startPool]) rfl
      (fun id => by rw [Pools.mids, pool_startPool]; rfl) fun pool x hx => ?_
    rcases hx with ⟨_, hx⟩ | hx
    · have hx : x ∈ s.queues.toList := hx
      rw [ha.inStep.absent hc] at hx
      cases hx
    · exact Or.inr hx
  | leavePool hc hq he => exact hs.leavePool _
  | equip info a he hc hf hn hm hg => exact hs.equip ha.inStep hc hf info a _ hm

theorem Starts.content (h : Starts s t) (hs : Content s) : Content t := by
  cases h with
  | start hc hf ha hq hi => exact hs.quiet rfl rfl rfl rfl rfl

theorem Pairs.content (h : Pairs s t) (hs : Content s) : Content t := by
  cases h with
  | pair hc hq hf => exact hs.join hc hq

/-- An operation keeps the content of all that is held. -/
theorem Course.content (h : Course s t) (ha : Accounted refs s) (hs : Content s) : Content t := by
  have hboth : Accounted refs t ∧ Content t := by
    refine h.keeps (q := fun s => Accounted refs s ∧ Content s) ?_ ?_ ?_ ⟨ha, hs⟩
    · exact fun _ _ hmove hq => ⟨hmove.accounted hq.1, hmove.content hq.1 hq.2⟩
    · exact fun _ _ hstart hq => ⟨hstart.accounted hq.1, hstart.content hq.2⟩
    · exact fun _ _ hpair hq => ⟨hpair.accounted hq.1, hpair.content hq.2⟩
  exact hboth.2

end Keeps

end Session

namespace Custody

/-- Sharing, displaying and dropping pictures leaves what they show. -/
theorem Step.content {c c' : Custody} (h : Step c c') (ha : c.Accounted)
    (hc : c.session.Content) : c'.session.Content := by
  cases h with
  | take hp => exact hc.quiet rfl rfl rfl rfl rfl
  | @share refs taken s id hid =>
    have hs : Session.Accounted refs s := ha
    obtain ⟨x, n, hx, hn⟩ := hs.exists_picture (List.mem_append_right s.pictures hid)
    refine hc.same (fun _ => rfl) rfl (fun _ => rfl) fun pool y hy => ?_
    rcases hy with hy | ⟨p, hp, halive, hpool, hy⟩
    · exact Or.inl hy
    · obtain ⟨i, hi⟩ := List.mem_iff_getElem?.mp hp
      have hi : (s.pools.pictures.modify id _)[i]? = some p := hi
      rw [List.getElem?_modify] at hi
      obtain ⟨q, hq, hqp⟩ := Option.map_eq_some_iff.mp hi
      by_cases hid : id = i
      · subst hid
        cases hx.symm.trans hq
        have hqp : { x with references := x.references + 1 } = p := by simpa using hqp
        rw [← hqp] at hpool hy
        exact Or.inr ⟨x, List.mem_of_getElem? hx, by simp [Picture.isAlive, hn], hpool, hy⟩
      · have hqp : q = p := by simpa [hid] using hqp
        rw [hqp] at hq
        exact Or.inr ⟨p, List.mem_of_getElem? hq, halive, hpool, hy⟩
  | drop => exact hc.drop (Session.Accounted.inStep ha) _ _
  | @mark refs taken s id p hid hp =>
    refine hc.same (Pools.Steady.pair ..).frames rfl (fun pool => ?_) fun _ _ hx => hx
    exact (Pools.Remarked.pair p.pool (f := Surface.display) (fun _ => rfl) (fun _ => rfl)
        (fun _ => rfl) p.base.index p.extra.index s.pools).mids pool
  | reorder hr => exact hc

theorem Runs.content {c c' : Custody} (h : Runs c c') (ha : c.Accounted)
    (hc : c.session.Content) : c'.session.Content := by
  have hboth : c'.Accounted ∧ c'.session.Content := by
    refine h.keeps (q := fun c => c.Accounted ∧ c.session.Content) ?_ ?_ ⟨ha, hc⟩
    · exact fun _ _ _ _ hcourse hq => ⟨hcourse.accounted hq.1, hcourse.content hq.1 hq.2⟩
    · exact fun _ _ hstep hq => ⟨hstep.accounted hq.1, hstep.content hq.1 hq.2⟩
  exact hboth.2

end Custody

/-- The frame can be mapped, and every byte of its luma plane has this value. -/
def Pools.Displays (pool : PoolId) (mid : MemId) (value : UInt8) (s : Pools) : Prop :=
  ∃ v, s.mapView pool mid = some (.mapped v) ∧ v.offsets.2 ≤ v.buffer.size ∧
    ∀ i, v.offsets.1 ≤ i → i < v.offsets.2 → v.buffer.byteAt i = value

theorem Pools.Keeps.displays {pool : PoolId} {x : SurfaceInfo} {s : Pools} (h : s.Keeps pool x)
    (hm : (s.pool pool).memory = .system) :
    s.Displays pool x.mid (lumaPattern x.info.viewId x.order) := by
  obtain ⟨f, a, hf, ha, hshows⟩ := h
  have hmem : f.memory = .system := by
    unfold Pool.memory at hm
    rw [hf] at hm
    exact hm
  obtain ⟨v, hv, hle, hbytes⟩ := hshows hmem
  refine ⟨v, ?_, hle, hbytes⟩
  have hview : a.view x.mid = .ok v := hv
  simp only [mapView, hf, ha, hmem, hview, bind, Option.bind]
  rfl

namespace Client

open Session

theorem start_content (traits : SimulatedTraits) (config : SessionConfig)
    (device : Option TextureDevice) (memory : HostMemory) :
    (start traits config device memory).session.Content := by
  have hframes : ∀ pool f,
      ((start traits config device memory).session.pools.pool pool).frames ≠ some f := nofun
  refine ⟨⟨fun h => absurd h (hframes _ _), fun h => absurd h (hframes _ _)⟩, fun pool x hx => ?_⟩
  rcases hx with ⟨hc, _⟩ | ⟨p, hp, _⟩
  · cases hc
  · cases hp

theorem Reachable.content {c : Client SimulatedEngine} (h : c.Reachable) :
    c.session.Content ∧ c.session.AllFit := by
  obtain ⟨traits, config, device, memory, ops, hrun⟩ := h
  have hstart := start_accounted traits config device memory
  obtain ⟨_, hfit, _⟩ := start_custody traits config device memory
  obtain ⟨taken, hruns⟩ := (run_sound ops [] hstart).result hrun
  exact ⟨hruns.content hstart (start_content traits config device memory), hruns.allFit hfit⟩

/-- As long as a picture is alive, the frames of both its surfaces show its frame order in their view,
however often the engine was fed, flushed, set up and closed since. -/
theorem Reachable.pictures_intact {c : Client SimulatedEngine} (h : c.Reachable) {p : Picture}
    (hp : p ∈ c.session.pools.pictures) (ha : p.isAlive = true)
    (hm : (c.session.pools.pool p.pool).memory = .system) :
    c.session.pools.Displays p.pool p.base.mid (lumaPattern p.base.info.viewId p.frameOrder) ∧
      c.session.pools.Displays p.pool p.extra.mid
        (lumaPattern p.extra.info.viewId p.frameOrder) := by
  obtain ⟨hc, hfit⟩ := h.content
  have horder : p.frameOrder = p.extra.order := (hfit.fits hp).2.2
  have hbase := (hc.kept _ _ (Or.inr ⟨p, hp, ha, rfl, Or.inl rfl⟩)).displays hm
  have hextra := (hc.kept _ _ (Or.inr ⟨p, hp, ha, rfl, Or.inr rfl⟩)).displays hm
  rw [← horder] at hextra
  exact ⟨hbase, hextra⟩

/-- A picture that the client holds while the session is flushed, and opened and fed once more. -/
theorem stereoOperations_intact : ∃ c : Client SimulatedEngine, ∃ p ∈ c.session.pools.pictures,
    c.Reachable ∧ p.isAlive = true ∧ p.pool = 0 ∧ c.session.current = some 1 ∧
      c.session.pools.Displays 0 p.base.mid (lumaPattern p.base.info.viewId p.frameOrder) := by
  generalize hops : stereoOperations ++
    [.flush, .open {} {}, .decode (some stereoUnits) none none] = ops
  have hcheck : ((start {} { asyncDepth := 0 } none).run ops).toOption.bind (fun c =>
      (c.session.pools.pictures[0]?).map fun p =>
        (p.isAlive, p.pool, c.session.current, (c.session.pools.pool 0).memory)) =
          some (true, 0, some 1, .system) := by
    rw [← hops]
    decide +kernel
  cases hrun : (start {} { asyncDepth := 0 } none).run ops with
  | error fault =>
    rw [hrun] at hcheck
    cases hcheck
  | ok c =>
    rw [hrun] at hcheck
    obtain ⟨p, hp, heq⟩ := Option.map_eq_some_iff.mp hcheck
    obtain ⟨halive, hrest⟩ := Prod.mk.inj heq
    obtain ⟨hpool, hrest⟩ := Prod.mk.inj hrest
    obtain ⟨hcur, hmem⟩ := Prod.mk.inj hrest
    have hmem : (c.session.pools.pool p.pool).memory = .system := hpool ▸ hmem
    have hmem' := List.mem_of_getElem? hp
    have hc : c.Reachable := ⟨_, _, _, _, ops, hrun⟩
    have hshown := (Reachable.pictures_intact hc hmem' halive hmem).1
    rw [hpool] at hshown
    exact ⟨c, p, hmem', hc, halive, hpool, hcur, hshown⟩

end Client

end Multiview
