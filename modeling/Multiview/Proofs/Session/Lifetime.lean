import Multiview.Proofs.Session.Lockstep
import Multiview.Proofs.Session.Tenure

/-!
Memory lives as long as its users. In every reachable state the textures alive on the device, and the
responses that allocators hold, are those of the current pool and of the pools of live pictures. Each
creation of a texture is answered by one release, which comes when the last user is gone.
-/

namespace Multiview

open Outcome

namespace Pools

/-- The textures that the frames of a pool are in. -/
def textures (pool : PoolId) (s : Pools) : List TextureHandle :=
  (((s.pool pool).frames.bind fun f => s.resources.allocators[f.allocator]?).map
    MixedAllocator.handles).getD []

/-- The frames of a pool that live pictures show, with repetitions if there are any. -/
def shownMids (pool : PoolId) (s : Pools) : List MemId :=
  s.pictures.flatMap fun p =>
    if p.isAlive ∧ p.pool = pool then [p.base.mid, p.extra.mid] else []

variable {s : Pools} {pool : PoolId} {f : PoolFrames} {a : MixedAllocator} {mid mid' : MemId}
  {texture : TextureHandle}

theorem textures_eq (hf : (s.pool pool).frames = some f)
    (ha : s.resources.allocators[f.allocator]? = some a) :
    s.textures pool = MixedAllocator.handles a := by
  simp [textures, hf, ha]

theorem exists_of_mem_textures (h : texture ∈ s.textures pool) :
    ∃ f a, (s.pool pool).frames = some f ∧ s.resources.allocators[f.allocator]? = some a ∧
      texture ∈ MixedAllocator.handles a := by
  unfold textures at h
  cases hf : (s.pool pool).frames with
  | none =>
    rw [hf] at h
    cases h
  | some f =>
    rw [hf, Option.bind_some] at h
    cases ha : s.resources.allocators[f.allocator]? with
    | none =>
      rw [ha] at h
      cases h
    | some a =>
      rw [ha] at h
      exact ⟨f, a, rfl, ha, h⟩

theorem frames_of_video (h : (s.pool pool).memory = .video) :
    ∃ f, (s.pool pool).frames = some f ∧ f.memory = .video := by
  unfold Pool.memory at h
  cases hf : (s.pool pool).frames with
  | none =>
    rw [hf] at h
    cases h
  | some f =>
    rw [hf] at h
    exact ⟨f, rfl, h⟩

namespace Tenanted

theorem furnished_of (h : Tenanted s) (hf : (s.pool pool).frames = some f)
    (ha : s.resources.allocators[f.allocator]? = some a) :
    MixedAllocator.Furnished f.memory f.response a := by
  obtain ⟨b, hb, hfurnished⟩ := h.furnished hf
  cases ha.symm.trans hb
  exact hfurnished

theorem furnished_or_vacant (h : Tenanted s) {id : AllocatorId}
    (ha : s.resources.allocators[id]? = some a) :
    (∃ pool f, (s.pool pool).frames = some f ∧ f.allocator = id ∧
      MixedAllocator.Furnished f.memory f.response a) ∨ MixedAllocator.Vacant a := by
  refine (h.vacant ha).imp_left ?_
  rintro ⟨pool, f, hf, rfl⟩
  exact ⟨pool, f, hf, rfl, h.furnished_of hf ha⟩

/-- The textures alive are those of the pools. -/
theorem mem_live (h : Tenanted s) :
    texture ∈ s.platform.live ↔ ∃ pool, texture ∈ s.textures pool := by
  rw [← h.alive.mem_iff, List.mem_flatMap]
  constructor
  · rintro ⟨a, ha, ht⟩
    obtain ⟨id, hid⟩ := List.mem_iff_getElem?.mp ha
    rcases h.furnished_or_vacant hid with ⟨pool, f, hf, rfl, _⟩ | hvacant
    · exact ⟨pool, textures_eq hf hid ▸ ht⟩
    · rw [hvacant.handles] at ht
      cases ht
  · rintro ⟨pool, ht⟩
    obtain ⟨f, a, _, ha, ht⟩ := exists_of_mem_textures ht
    exact ⟨a, List.mem_of_getElem? ha, ht⟩

theorem nodup_handles (h : Tenanted s) :
    (s.resources.allocators.flatMap MixedAllocator.handles).Nodup :=
  h.alive.nodup_iff.mpr h.sane.nodup

/-- A texture belongs to one pool. -/
theorem textures_apart (h : Tenanted s) (hb : Backed s) {pool' : PoolId}
    (ht : texture ∈ s.textures pool) (ht' : texture ∈ s.textures pool') : pool = pool' := by
  obtain ⟨f, a, hf, ha, ht⟩ := exists_of_mem_textures ht
  obtain ⟨f', a', hf', ha', ht'⟩ := exists_of_mem_textures ht'
  obtain ⟨_, hpairs⟩ := List.nodup_flatMap.mp h.nodup_handles
  obtain ⟨hlt, hi⟩ := List.getElem?_eq_some_iff.mp ha
  obtain ⟨hlt', hi'⟩ := List.getElem?_eq_some_iff.mp ha'
  rw [List.pairwise_iff_getElem] at hpairs
  refine hb.apart hf hf' ?_
  rcases Nat.lt_trichotomy f.allocator f'.allocator with hl | heq | hl
  · have hdisjoint := hpairs _ _ hlt hlt' hl
    rw [hi, hi'] at hdisjoint
    exact absurd ht' (hdisjoint ht)
  · exact heq
  · have hdisjoint := hpairs _ _ hlt' hlt hl
    rw [hi, hi'] at hdisjoint
    exact absurd ht (hdisjoint ht')

/-- Frames in video memory are handed out as slices of textures of their pool. -/
theorem mapView_native (h : Tenanted s) (hf : (s.pool pool).frames = some f)
    (hm : f.memory = .video) (hmid : mid ∈ s.mids pool) :
    ∃ x, s.mapView pool mid = some (.native x) ∧ x.texture ∈ s.textures pool := by
  obtain ⟨a, ha, hfurnished⟩ := h.furnished hf
  rw [hm] at hfurnished
  obtain ⟨x, hx, ht⟩ := hfurnished.exists_handle (h.mids hf ▸ hmid)
  refine ⟨x, ?_, textures_eq hf ha ▸ ht⟩
  simp only [mapView, hf, ha, hm, hx, bind, Option.bind]
  rfl

/-- No two frames of a pool are the same slice of the same texture. -/
theorem mapView_injective (h : Tenanted s) (hf : (s.pool pool).frames = some f)
    (hm : f.memory = .video) (hmid : mid ∈ s.mids pool) (hmid' : mid' ∈ s.mids pool)
    (heq : s.mapView pool mid = s.mapView pool mid') : mid = mid' := by
  obtain ⟨a, ha, hfurnished⟩ := h.furnished hf
  rw [hm] at hfurnished
  rw [h.mids hf] at hmid hmid'
  have hn : (MixedAllocator.handles a).Nodup :=
    (List.nodup_flatMap.mp h.nodup_handles).1 a (List.mem_of_getElem? ha)
  obtain ⟨x, hx, _⟩ := hfurnished.exists_handle hmid
  obtain ⟨x', hx', _⟩ := hfurnished.exists_handle hmid'
  simp only [mapView, hf, ha, hm, hx, hx', bind, Option.bind] at heq
  have hsame : x = x' := ViewHandle.native.inj (Option.some.inj heq)
  exact hfurnished.handle_injective hn hmid hmid' (by rw [hx, hx', hsame])

/-- An allocator holds the response of the pool whose frames come from it. -/
theorem mem_held (h : Tenanted s) {id : AllocatorId} (ha : s.resources.allocators[id]? = some a)
    (response : Response) : response ∈ Allocator.held a ↔
      ∃ pool f, (s.pool pool).frames = some f ∧ f.allocator = id ∧ f.response = response := by
  constructor
  · intro hr
    rcases h.furnished_or_vacant ha with ⟨pool, f, hf, hid, hfurnished⟩ | hvacant
    · rw [hfurnished.held] at hr
      exact ⟨pool, f, hf, hid, (List.mem_singleton.mp hr).symm⟩
    · rw [hvacant.held] at hr
      cases hr
  · rintro ⟨pool, f, hf, rfl, rfl⟩
    rw [(h.furnished_of hf ha).held]
    exact List.mem_singleton_self _

/-- The frames on the host are those of the pools in system memory. -/
theorem hosts_iff (h : Tenanted s) {id : AllocatorId} (ha : s.resources.allocators[id]? = some a)
    (mid : MemId) : MixedAllocator.Hosts mid a ↔
      ∃ pool f, (s.pool pool).frames = some f ∧ f.allocator = id ∧ f.memory = .system ∧
        mid ∈ f.response.mids := by
  constructor
  · intro hm
    rcases h.furnished_or_vacant ha with ⟨pool, f, hf, hid, hfurnished⟩ | hvacant
    · obtain ⟨hsystem, hmid⟩ := (hfurnished.hosts_iff mid).mp hm
      exact ⟨pool, f, hf, hid, hsystem, hmid⟩
    · exact absurd hm (hvacant.not_hosts mid)
  · rintro ⟨pool, f, hf, rfl, hsystem, hmid⟩
    exact ((h.furnished_of hf ha).hosts_iff mid).mpr ⟨hsystem, hmid⟩

end Tenanted

/-- Frames that were kept are in the textures that they were in. -/
theorem Spent.textures_eq {t : Pools} (h : Spent s t) (ht : Tenanted t)
    (hf : (s.pool pool).frames = some f) (hf' : (t.pool pool).frames = some f)
    (ha : s.resources.allocators[f.allocator]? = some a) : t.textures pool = s.textures pool := by
  obtain ⟨b, hb, halike | hvacant⟩ := h.allocators f.allocator a ha
  · rw [Pools.textures_eq hf ha, Pools.textures_eq hf' hb]
    exact halike.store.handles
  · have hheld := (ht.furnished_of hf' hb).held
    rw [hvacant.held] at hheld
    cases hheld

end Pools

namespace Session

/-- The pool is the current one, or a picture of it is alive. -/
def Uses (pool : PoolId) (s : Session SimulatedEngine) : Prop :=
  s.current = some pool ∨ ∃ p ∈ s.pools.pictures, p.isAlive = true ∧ p.pool = pool

variable {refs : List PictureId} {s : Session SimulatedEngine} {pool : PoolId} {p : Picture}

theorem Tenured.isUsed_iff (h : Tenured s) (hin : InStep s) (hlt : pool < s.pools.pools.length) :
    s.pools.isUsed pool = true ↔ s.Uses pool := by
  rw [Pools.isUsed_iff]
  refine or_congr_left ⟨h.owner pool hlt, fun hc => (hin.present pool hc).2⟩

theorem Tenured.uses (h : Tenured s) (hin : InStep s) {f : PoolFrames}
    (hf : (s.pools.pool pool).frames = some f) : s.Uses pool :=
  (h.isUsed_iff hin (Pools.lt_of_frames hf)).mp (h.lodged pool nofun (by rw [hf]; rfl))

theorem Tenured.mem_live (h : Tenured s) (hin : InStep s) {texture : TextureHandle} :
    texture ∈ s.pools.platform.live ↔ ∃ pool, s.Uses pool ∧ texture ∈ s.pools.textures pool := by
  rw [h.tenanted.mem_live]
  refine exists_congr fun pool => ⟨fun ht => ⟨?_, ht⟩, And.right⟩
  obtain ⟨f, _, hf, _⟩ := Pools.exists_of_mem_textures ht
  exact h.uses hin hf

/-- If no pool is used no texture is alive, and allocators are empty. -/
theorem Tenured.unused (h : Tenured s) (hin : InStep s) (hu : ∀ pool, ¬ s.Uses pool) :
    s.pools.platform.live = [] ∧
      ∀ a ∈ s.pools.resources.allocators, MixedAllocator.Vacant a := by
  refine ⟨List.eq_nil_iff_forall_not_mem.mpr fun texture ht => ?_, fun a ha => ?_⟩
  · obtain ⟨pool, huses, _⟩ := (h.mem_live hin).mp ht
    exact hu pool huses
  · obtain ⟨id, hid⟩ := List.mem_iff_getElem?.mp ha
    refine (h.tenanted.furnished_or_vacant hid).resolve_left ?_
    rintro ⟨pool, f, hf, _⟩
    exact hu pool (h.uses hin hf)

/-- The frames of live pictures are those of their surfaces. -/
theorem Accounted.map_shown (h : Accounted refs s) (pool : PoolId) :
    (s.pools.shown pool).map (fun i => (s.pools.mids pool)[i]?) =
      (s.pools.shownMids pool).map some := by
  unfold Pools.shown Pools.shownMids
  rw [List.map_flatMap, List.map_flatMap]
  refine List.flatMap_congr fun p hp => ?_
  unfold Picture.shows
  split
  · rename_i hshown
    obtain ⟨hbase, hextra⟩ := h.paired p hp
    rw [hshown.2] at hbase hextra
    have hbase : (s.pools.mids pool)[p.base.index]? = some p.base.mid := hbase
    have hextra : (s.pools.mids pool)[p.extra.index]? = some p.extra.mid := hextra
    simp [hbase, hextra]
  · rfl

theorem Accounted.shownMids_subset (h : Accounted refs s) (pool : PoolId) :
    s.pools.shownMids pool ⊆ s.pools.mids pool := by
  intro mid hmid
  have hsome := List.mem_map_of_mem (f := some) hmid
  rw [← h.map_shown pool] at hsome
  obtain ⟨i, _, hi⟩ := List.mem_map.mp hsome
  exact List.mem_of_getElem? hi

/-- Live pictures of a pool have no frame in common. -/
theorem Accounted.nodup_shownMids (h : Accounted refs s) (pool : PoolId) :
    (s.pools.shownMids pool).Nodup := by
  have hshown : (s.pools.shown pool).Nodup := by
    refine List.nodup_iff_count_le_one.mpr fun i => ?_
    exact Nat.le_trans (Nat.le_add_left _ _) (h.tracks pool i).le_one
  have hsome : ∀ i ∈ s.pools.shown pool, i < (s.pools.mids pool).length := by
    intro i hi
    have hmem := List.mem_map_of_mem (f := fun i => (s.pools.mids pool)[i]?) hi
    rw [h.map_shown pool] at hmem
    obtain ⟨mid, _, hmid⟩ := List.mem_map.mp hmem
    exact (List.getElem?_eq_some_iff.mp hmid.symm).1
  refine List.Nodup.of_map some ?_
  rw [← h.map_shown pool]
  refine hshown.map_on fun i hi j _ heq => ?_
  exact (List.getElem?_inj (hsome i hi) (h.mids pool)).mp heq

/-- The views of a live picture in video memory are slices of textures of its pool. -/
theorem Tenured.mapPicture_native (h : Tenured s) (ha : Accounted refs s)
    (hp : p ∈ s.pools.pictures) (hm : (s.pools.pool p.pool).memory = .video) :
    ∃ base extra, s.pools.mapPicture p = (some (.native base), some (.native extra)) ∧
      base.texture ∈ s.pools.textures p.pool ∧ extra.texture ∈ s.pools.textures p.pool := by
  obtain ⟨f, hf, hvideo⟩ := Pools.frames_of_video hm
  obtain ⟨hbase, hextra⟩ := ha.paired p hp
  obtain ⟨base, hb, hbt⟩ := h.tenanted.mapView_native hf hvideo (List.mem_of_getElem? hbase)
  obtain ⟨extra, he, het⟩ := h.tenanted.mapView_native hf hvideo (List.mem_of_getElem? hextra)
  exact ⟨base, extra, Prod.ext hb he, hbt, het⟩

theorem Tenured.nodup_views (h : Tenured s) (ha : Accounted refs s)
    (hm : (s.pools.pool pool).memory = .video) :
    ((s.pools.shownMids pool).map (s.pools.mapView pool)).Nodup := by
  obtain ⟨f, hf, hvideo⟩ := Pools.frames_of_video hm
  refine (ha.nodup_shownMids pool).map_on fun mid hmid mid' hmid' heq => ?_
  exact h.tenanted.mapView_injective hf hvideo (ha.shownMids_subset pool hmid)
    (ha.shownMids_subset pool hmid') heq

/-- Frames of live pictures in system memory can be mapped. -/
theorem Content.mapPicture_mapped (h : Content s) (hp : p ∈ s.pools.pictures)
    (ha : p.isAlive = true) (hm : (s.pools.pool p.pool).memory = .system) :
    ∃ base extra, s.pools.mapPicture p = (some (.mapped base), some (.mapped extra)) := by
  have hkept : ∀ x, x = p.base ∨ x = p.extra → s.pools.Keeps p.pool x := fun x hx =>
    h.kept p.pool x (Or.inr ⟨p, hp, ha, rfl, hx⟩)
  obtain ⟨base, hb, _⟩ := (hkept p.base (Or.inl rfl)).displays hm
  obtain ⟨extra, he, _⟩ := (hkept p.extra (Or.inr rfl)).displays hm
  exact ⟨base, extra, Prod.ext hb he⟩

/-- Without current pool, and without references to pictures, no pool is used. -/
theorem Accounted.not_uses (h : Accounted refs s) (hc : s.current = none) (hs : s.pictures = [])
    (hr : refs = []) (pool : PoolId) : ¬ s.Uses pool := by
  rintro (hcur | ⟨p, hp, ha, _⟩)
  · cases hc.symm.trans hcur
  · obtain ⟨id, hid⟩ := List.mem_iff_getElem?.mp hp
    have hzero := h.references id
    rw [hs, hr, Pools.references, hid] at hzero
    have hnone : p.references = 0 := hzero
    simp [Picture.isAlive, hnone] at ha

end Session

namespace Client

open Session

/-- Who memory is kept for, and for how long. -/
structure MemoryKept (c : Client SimulatedEngine) : Prop where
  /-- The textures alive are those of the pools that are used. -/
  alive : ∀ texture, texture ∈ c.session.pools.platform.live ↔
    ∃ pool, c.session.Uses pool ∧ texture ∈ c.session.pools.textures pool
  apart : ∀ pool pool' texture, texture ∈ c.session.pools.textures pool →
    texture ∈ c.session.pools.textures pool' → pool = pool'
  /-- At all times a texture was released as often as it was created, or once less. -/
  balanced : ∀ texture earlier, earlier <:+ c.session.journal →
    releases texture earlier ≤ creations texture earlier ∧
      creations texture earlier ≤ releases texture earlier + 1
  /-- Each creation of a texture that no used pool has was followed by a release. -/
  released : ∀ texture, (∀ pool, c.session.Uses pool → texture ∉ c.session.pools.textures pool) →
    releases texture c.session.journal = creations texture c.session.journal
  native : ∀ p ∈ c.session.pools.pictures, p.isAlive = true →
    (c.session.pools.pool p.pool).memory = .video →
      ∃ base extra, c.session.pools.mapPicture p = (some (.native base), some (.native extra)) ∧
        base.texture ∈ c.session.pools.platform.live ∧
        extra.texture ∈ c.session.pools.platform.live
  mapped : ∀ p ∈ c.session.pools.pictures, p.isAlive = true →
    (c.session.pools.pool p.pool).memory = .system →
      ∃ base extra, c.session.pools.mapPicture p = (some (.mapped base), some (.mapped extra))
  /-- The views of all live pictures of a pool are different frames, -/
  shown : ∀ pool, (c.session.pools.shownMids pool).Nodup
  /-- and in video memory they are different slices or in different textures. -/
  slices : ∀ pool, (c.session.pools.pool pool).memory = .video →
    ((c.session.pools.shownMids pool).map (c.session.pools.mapView pool)).Nodup
  /-- Allocators hold the responses of the pools that are used. -/
  held : ∀ id a, c.session.pools.resources.allocators[id]? = some a → ∀ response,
    response ∈ Allocator.held a ↔ ∃ pool f, c.session.Uses pool ∧
      (c.session.pools.pool pool).frames = some f ∧ f.allocator = id ∧ f.response = response
  /-- Frames on the host are those of the used pools in system memory. -/
  hosted : ∀ id a, c.session.pools.resources.allocators[id]? = some a → ∀ mid,
    MixedAllocator.Hosts mid a ↔ ∃ pool f, c.session.Uses pool ∧
      (c.session.pools.pool pool).frames = some f ∧ f.allocator = id ∧ f.memory = .system ∧
      mid ∈ f.response.mids
  /-- A pool that is used later on still has its frames and textures. -/
  lasting : ∀ ops c', c.run ops = .ok c' → ∀ pool f, c'.session.Uses pool →
    (c.session.pools.pool pool).frames = some f →
      (c'.session.pools.pool pool).frames = some f ∧
      c'.session.pools.textures pool = c.session.pools.textures pool
  /-- A response is freed once: what an allocator has freed it does not hold again. -/
  freed : ∀ ops c', c.run ops = .ok c' → ∀ (id : AllocatorId) (a : MixedAllocator),
    c.session.pools.resources.allocators[id]? = some a →
      ∃ b, c'.session.pools.resources.allocators[id]? = some b ∧
        (Allocator.held b = Allocator.held a ∨ Allocator.held b = [])
  /-- With the session closed and the last picture dropped nothing is left. -/
  ended : c.session.phase = .closed → c.references = [] → c.session.pools.platform.live = [] ∧
    ∀ a ∈ c.session.pools.resources.allocators, MixedAllocator.Vacant a

theorem start_tenured (traits : SimulatedTraits) (config : SessionConfig)
    {device : Option TextureDevice} {memory : HostMemory} (hd : ∀ d ∈ device, d.Fresh) :
    (start traits config device memory).session.Tenured := by
  have hframes : ∀ {pool f},
      ((start traits config device memory).session.pools.pool pool).frames ≠ some f := nofun
  obtain ⟨hsane, hlive⟩ :=
    Platform.sane_of_fresh (p := (start traits config device memory).session.pools.platform) hd rfl
  refine ⟨⟨hsane, ?_, fun h => absurd h hframes, nofun, fun h => absurd h hframes⟩, nofun, nofun⟩
  rw [hlive]
  exact .refl _

variable {c : Client SimulatedEngine} {taken : List PictureId}

/-- What a run finds is kept up to where it ends. -/
theorem kept_run {ops : List Operation} {c' : Client SimulatedEngine}
    (hc : (c.custody taken).Kept) (hrun : c.run ops = .ok c') :
    ∃ taken', (c'.custody taken').Kept ∧ c.session.pools.Spent c'.session.pools := by
  obtain ⟨taken', hruns⟩ := (run_sound ops taken hc.accounted).result hrun
  exact ⟨taken', hruns.kept hc⟩

/-- A pool that has frames keeps them and their textures for as long as it is used. -/
theorem lasting_of_kept {ops : List Operation} {c' : Client SimulatedEngine}
    (hc : (c.custody taken).Kept) (hrun : c.run ops = .ok c') {pool : PoolId} {f : PoolFrames}
    (hu : c'.session.Uses pool) (hf : (c.session.pools.pool pool).frames = some f) :
    (c'.session.pools.pool pool).frames = some f ∧
      c'.session.pools.textures pool = c.session.pools.textures pool := by
  obtain ⟨taken', hkept, hspent⟩ := kept_run hc hrun
  have hten : c'.session.Tenured := hkept.tenured
  have hacc : Session.Accounted c'.references c'.session := hkept.accounted
  have hlt := Nat.lt_of_lt_of_le (Pools.lt_of_frames hf) hspent.length
  have hf' := hspent.frames hf ((hten.isUsed_iff hacc.inStep hlt).mpr hu)
  obtain ⟨a, ha, _⟩ := hc.tenured.tenanted.furnished hf
  exact ⟨hf', hspent.textures_eq hten.tenanted hf hf' ha⟩

theorem memoryKept_of_kept (hc : (c.custody taken).Kept) (hs : Settled c.session) :
    c.MemoryKept := by
  have hacc : Session.Accounted c.references c.session := hc.accounted
  have hcon : c.session.Content := hc.content
  have hten : c.session.Tenured := hc.tenured
  have hin := hacc.inStep
  constructor
  case alive => exact fun _ => hten.mem_live hin
  case apart => exact fun _ _ _ => hten.tenanted.textures_apart hcon.backed
  case balanced => exact hten.tenanted.sane.balanced
  case shown => exact hacc.nodup_shownMids
  case slices => exact fun _ hm => hten.nodup_views hacc hm
  case mapped => exact fun _ hp ha hm => hcon.mapPicture_mapped hp ha hm
  case lasting => exact fun _ _ hrun _ _ hu hf => lasting_of_kept hc hrun hu hf
  case released =>
    intro texture hnot
    have hdead : texture ∉ c.session.pools.platform.live := by
      intro hlive
      obtain ⟨pool, huses, ht⟩ := (hten.mem_live hin).mp hlive
      exact hnot pool huses ht
    have hcount := hten.tenanted.sane.alive texture
    rw [if_neg hdead] at hcount
    exact hcount.symm
  case native =>
    intro p hp ha hm
    have hlive : ∀ texture ∈ c.session.pools.textures p.pool,
        texture ∈ c.session.pools.platform.live := fun texture ht =>
      (hten.mem_live hin).mpr ⟨p.pool, Or.inr ⟨p, hp, ha, rfl⟩, ht⟩
    obtain ⟨base, extra, hmap, hb, he⟩ := hten.mapPicture_native hacc hp hm
    exact ⟨base, extra, hmap, hlive _ hb, hlive _ he⟩
  case held =>
    intro id a hid response
    rw [hten.tenanted.mem_held hid]
    exact exists_congr fun pool => exists_congr fun f =>
      ⟨fun h => ⟨hten.uses hin h.1, h⟩, And.right⟩
  case hosted =>
    intro id a hid mid
    rw [hten.tenanted.hosts_iff hid]
    exact exists_congr fun pool => exists_congr fun f =>
      ⟨fun h => ⟨hten.uses hin h.1, h⟩, And.right⟩
  case freed =>
    intro ops c' hrun id a hid
    obtain ⟨_, _, hspent⟩ := kept_run hc hrun
    obtain ⟨b, hb, hab⟩ := hspent.allocators id a hid
    exact ⟨b, hb, hab.imp (·.held) (·.held)⟩
  case ended =>
    intro hp hrefs
    have hvacant := hs.resting (Or.inr hp)
    exact hten.unused hin (hacc.not_uses hvacant.current hvacant.pictures hrefs)

/-- Memory is kept for those who use it, whatever the client does and however the device and the memory of
the host answer. -/
theorem run_memoryKept (traits : SimulatedTraits) (config : SessionConfig)
    {device : Option TextureDevice} {memory : HostMemory} (hd : ∀ d ∈ device, d.Fresh)
    {ops : List Operation} (hrun : (start traits config device memory).run ops = .ok c) : c.MemoryKept := by
  have hstart : ((start traits config device memory).custody []).Kept :=
    ⟨start_accounted traits config device memory, start_content traits config device memory,
      start_tenured traits config hd⟩
  obtain ⟨taken, hkept, _⟩ := kept_run hstart hrun
  exact memoryKept_of_kept hkept (Reachable.settled ⟨traits, config, device, memory, ops, hrun⟩)

/-- A texture that the client's picture keeps alive over a flush, and that is released with it once
the session is closed. -/
theorem stereoTextures_memoryKept : ∃ c c' : Client SimulatedEngine,
    (start {} { asyncDepth := 0 } (some (.counting none))).run stereoOperations = .ok c ∧
      c.session.pools.platform.live = [⟨100⟩] ∧ c.MemoryKept ∧
      c.run [.flush, .close, .drop 0, .dropShared 0] = .ok c' ∧ c'.session.phase = .closed ∧
      c'.references = [] ∧ c'.session.pools.platform.live = [] := by
  have hcheck : ((start {} { asyncDepth := 0 } (some (.counting none))).run
      stereoOperations).toOption.map (fun c => (c.session.pools.platform.live,
        (c.run [.flush, .close, .drop 0, .dropShared 0]).toOption.map fun c' =>
          (c'.session.phase, c'.references))) = some ([⟨100⟩], some (.closed, [])) := by
    decide +kernel
  have hfresh : ∀ d ∈ some (TextureDevice.counting none), d.Fresh := by
    intro d hd
    cases hd
    exact ⟨rfl, TextureDevice.counting_answersAnew none⟩
  cases hrun : (start {} { asyncDepth := 0 } (some (.counting none))).run stereoOperations with
  | error fault =>
    rw [hrun] at hcheck
    cases hcheck
  | ok c =>
    rw [hrun] at hcheck
    obtain ⟨hlive, hcheck⟩ := Prod.mk.inj (Option.some.inj hcheck)
    cases hrun' : c.run [.flush, .close, .drop 0, .dropShared 0] with
    | error fault =>
      rw [hrun'] at hcheck
      cases hcheck
    | ok c' =>
      rw [hrun'] at hcheck
      obtain ⟨hphase, hrefs⟩ := Prod.mk.inj (Option.some.inj hcheck)
      have hkept := run_memoryKept {} { asyncDepth := 0 } hfresh hrun
      have hkept' := run_memoryKept {} { asyncDepth := 0 } hfresh ((run_append hrun _).trans hrun')
      exact ⟨c, c', rfl, hlive, hkept, hrun', hphase, hrefs, (hkept'.ended hphase hrefs).1⟩

end Client

end Multiview
