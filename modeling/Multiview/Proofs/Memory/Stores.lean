import Multiview.Proofs.Memory.Books

/-!
Frames on the host and in textures back the books of their allocators. On the host an identifier is
never issued again. Those of textures are the places in the table of owners, counted from one; they
start again once no resource is allocated, so that a resource that is still held keeps its own.
-/

namespace Multiview

open Outcome Platform

/-! ## Host memory -/

namespace HostFrames

variable {q q' : Option TextureDevice → Prop} {n : Nat} {b : Books} {s s' : HostFrames} {p p' : Platform}
  {r : Request} {x : Response}

/-- The frames are those in the books. Their identifiers lie above `hostIdBase`. Whatever holds of the
device goes on to hold, since frames on the host do without it. -/
structure Backs (q : Option TextureDevice → Prop) (n : Nat) (b : Books) (s : HostFrames)
    (p : Platform) : Prop where
  stocks : s.Stocks b.mids
  issued : s.issued ≤ n
  range : ∀ mid ∈ b.mids, hostIdBase < mid.value ∧ mid.value ≤ hostIdBase + s.issued
  device : q p.device

theorem backs_blank (n : Nat) (hq : q p.device) : Backs q n .blank {} p :=
  ⟨stocks_nil, Nat.zero_le n, nofun, hq⟩

/-- The same frames beside another device. -/
theorem Backs.beside (h : s.Backs q n b p) (hq : q' p'.device) : s.Backs q' n b p' :=
  ⟨h.stocks, h.issued, h.range, hq⟩

theorem Backs.stocked {mids : List MemId} (h : s.Backs q n b p) (f : HostFrame)
    (hmids : mids = s.nextIds mids.length) :
    Supplied (Backs q) n b r mids s (s.stocked f mids) (p.asked mids.length) := by
  have hmem : ∀ mid ∈ mids, hostIdBase + s.issued + 1 ≤ mid.value ∧
      mid.value < hostIdBase + s.issued + 1 + mids.length := fun mid hm => by
    rw [hmids] at hm
    exact mem_consecutive.mp hm
  have hnew : ∀ mid ∈ mids, mid ∉ b.mids := fun mid hm hb => by
    have hlow := hmem mid hm
    have hhigh := h.range mid hb
    omega
  have hframe := getElem?_stocked f mids s
  refine ⟨Consecutive.nodup ⟨_, hmids⟩, hnew, ⟨fun k => ?_, ?_, fun mid hm => ?_, h.device⟩,
    fun mid hm => ⟨?_, rfl⟩⟩
  · rw [((b.mids_enter r mids).map _).mem_iff, List.map_append, List.mem_append, hframe]
    split
    · rename_i hk
      exact iff_of_true rfl (Or.inl hk)
    · rename_i hk
      rw [h.stocks k, or_iff_right hk]
  · exact Nat.add_le_add_right h.issued _
  · have hissued : (s.stocked f mids).issued = s.issued + mids.length := rfl
    rcases List.mem_append.mp ((b.mids_enter r mids).subset hm) with hm | hm
    · have hnext := hmem mid hm
      omega
    · have hold := h.range mid hm
      omega
  · have hk : mid.value ∉ mids.map (·.value) := fun hk =>
      hnew mid (MixedAllocator.mem_map_value.mp hk) hm
    change HostFrames.view mid _ = s.view mid
    unfold HostFrames.view
    rw [hframe, if_neg hk]

/-- Frames that were given up leave no trace, as their identifiers were new. -/
theorem Backs.lapsed {k : Nat} (h : s.Backs q n b p) (hl : s.Lapsed k s') (p' : Platform)
    (hq : q p'.device) :
    s'.Backs q (n + k) b p' ∧ ∀ mid, Untouched mid s s' := by
  have hsame : ∀ m, s'.frames[m]? = s.frames[m]? := fun m => by
    rw [hl.frames]
    split
    · rename_i hm
      obtain ⟨mid, hmid, rfl⟩ := List.mem_map.mp hm
      have hnew := mem_consecutive.mp hmid
      rw [eq_comm, ← Option.not_isSome_iff_eq_none, h.stocks]
      intro hold
      have hrange := h.range mid (MixedAllocator.mem_map_value.mp hold)
      omega
    · rfl
  refine ⟨⟨fun m => ?_, ?_, fun mid hm => ?_, hq⟩, fun mid => ⟨?_, rfl⟩⟩
  · rw [hsame]
    exact h.stocks m
  · rw [hl.issued]
    exact Nat.add_le_add_right h.issued k
  · have hrange := h.range mid hm
    have hissued := hl.issued
    omega
  · change s'.view mid = s.view mid
    unfold HostFrames.view
    rw [hsame]

theorem Backs.allocate (h : s.Backs q n b p) (r : Request) :
    Yields (FrameStore.allocate r s p) (Answered (Backs q) n b r s p) := by
  have hlength := s.length_nextIds r.suggested.toNat
  refine (s.allocate_cases r p).yields.mono ?_
  rintro x (⟨e, k, s', hs', rfl⟩ | ⟨f, -, rfl⟩)
  · have hlapsed := h.lapsed hs' (p.asked k) h.device
    rwa [← p.wasted_asked k] at hlapsed
  · refine ⟨hlength, fun _ => ?_⟩
    have hstocked := h.stocked (r := r) f (congrArg s.nextIds hlength.symm)
    rwa [hlength] at hstocked

theorem answers (s : HostFrames) (p : Platform) (hr : r.Fits) :
    Returns (FrameStore.allocate r s p) fun _ => True := by
  have hall : Returns (s.allocate r p) fun _ => True := by
    unfold HostFrames.allocate
    split
    · exact .ok trivial
    · exact (below_returns hr).bind fun _ _ => .pure trivial
  exact hall

theorem Backs.release (h : s.Backs q n b p) (hs : b.Sound) (hx : x ∈ b.held) :
    (s.release x.mids).Backs q n (b.strike x) p ∧ (∀ mid ∈ x.mids, Gone mid (s.release x.mids)) ∧
      ∀ mid ∈ (b.strike x).mids, Untouched mid s (s.release x.mids) := by
  have hperm := hs.mids_strike hx
  have hleft : ∀ mid ∈ (b.strike x).mids, mid.value ∉ x.mids.map (·.value) := fun mid hm hk =>
    hs.not_mem_strike hx (MixedAllocator.mem_map_value.mp hk) hm
  have hframe := getElem?_release x.mids s
  refine ⟨⟨fun k => ?_, h.issued, fun mid hm => ?_, h.device⟩, fun mid hm => ⟨?_, _, rfl⟩,
    fun mid hm => ?_⟩
  · rw [hframe]
    split
    · rename_i hk
      refine iff_of_false nofun fun hk' => ?_
      obtain ⟨mid, hm, rfl⟩ := List.mem_map.mp hk'
      exact hleft mid hm hk
    · rename_i hk
      rw [h.stocks k, (hperm.map _).mem_iff, List.map_append, List.mem_append, or_iff_right hk]
  · exact h.range mid (hperm.symm.subset (List.mem_append_right _ hm))
  · refine ⟨.invalidHandle mid, ?_⟩
    change HostFrames.view mid _ = _
    unfold HostFrames.view
    rw [hframe, if_pos (List.mem_map_of_mem hm)]
  · refine ⟨?_, rfl⟩
    change HostFrames.view mid _ = s.view mid
    unfold HostFrames.view
    rw [hframe, if_neg (hleft mid hm)]

theorem Backs.fill (h : s.Backs q n b p) (mid : MemId) (start stop : Nat) (value : UInt8) :
    Yields (s.fill mid start stop value) fun s' => s'.Backs q n b p := by
  have hissued : Yields (s.fill mid start stop value) fun s' => s'.issued = s.issued := by
    unfold HostFrames.fill
    split
    · exact .ok rfl
    · rename_i f _
      exact (f.buffer.fill_sound start stop value).yields.bind fun _ _ => .pure rfl
  intro s' hs'
  have hsame := hissued s' hs'
  refine ⟨fill_stocks mid start stop value s s' hs' _ h.stocks, ?_, ?_, h.device⟩
  · rw [hsame]
    exact h.issued
  · rw [hsame]
    exact h.range

theorem backing (q : Option TextureDevice → Prop) : Backing HostFrames (Backs q) where
  mono := fun hn h => ⟨h.stocks, Nat.le_trans h.issued hn, h.range, h.device⟩
  allocate := fun h _ _ _ => h.allocate _
  answers := answers
  release := fun h hs hx => ⟨_, _, rfl, h.release hs hx⟩
  fill := fun mid start stop value h => h.fill mid start stop value
  close := fun h => ⟨_, _, rfl, h⟩

end HostFrames

/-! ## Textures -/

namespace Platform

theorem live_createTexture (desc : TextureDesc) (p : Platform) :
    (p.createTexture desc).2.live = p.live ++ (p.createTexture desc).1.toList := by
  unfold createTexture
  cases hd : p.device with
  | none => exact (List.append_nil _).symm
  | some d =>
    have hlive : p.live = d.live := by
      rw [live, hd]
      rfl
    rw [hlive]
    exact d.live_create desc

theorem live_releaseTextures (textures : List TextureHandle) (p : Platform) :
    (p.releaseTextures textures).live = p.live.filter (· ∉ textures) := by
  unfold releaseTextures
  induction textures generalizing p with
  | nil => simp
  | cons texture textures ih =>
    rw [List.foldl_cons, ih, live_releaseTexture, List.filter_filter]
    refine List.filter_congr fun t _ => ?_
    simp only [List.mem_cons, not_or, Bool.decide_and, Bool.and_comm]

/-- Nothing is alive but what was, and the textures that are created. -/
theorem mem_live_createTextures (desc : TextureDesc) (n : Nat) (made : List TextureHandle)
    (p : Platform) {texture : TextureHandle}
    (h : texture ∈ (createTextures desc n made p).2.live) :
    texture ∈ (createTextures desc n made p).1.getD [] ∨ texture ∈ p.live ∧ texture ∉ made := by
  induction n generalizing made p with
  | zero =>
    by_cases hm : texture ∈ made
    · exact Or.inl (List.mem_reverse.mpr hm)
    · exact Or.inr ⟨h, hm⟩
  | succ n ih =>
    have hone := live_createTexture desc p
    unfold createTextures at h ⊢
    split at h
    · rename_i p' heq
      rw [heq] at hone
      have hlive : p'.live = p.live := by simpa using hone
      dsimp only at h ⊢
      rw [live_releaseTextures, hlive, List.mem_filter] at h
      exact Or.inr ⟨h.1, fun hm => of_decide_eq_true h.2 (List.mem_reverse.mpr hm)⟩
    · rename_i texture' p' heq
      rw [heq] at hone
      have hlive : p'.live = p.live ++ [texture'] := by simpa using hone
      refine (ih (texture' :: made) p' h).imp_right ?_
      rintro ⟨hp, hm⟩
      obtain ⟨hne, hm⟩ := not_or.mp fun hor => hm (List.mem_cons.mpr hor)
      rw [hlive, List.mem_append, List.mem_singleton] at hp
      exact ⟨hp.resolve_right hne, hm⟩

end Platform

namespace TextureFrames

variable {others : List TextureHandle} {n : Nat} {b : Books} {s : TextureFrames} {p : Platform}
  {r : Request} {x : Response} {mid : MemId}

/-- The allocated resources are those in the books, and every frame is found through the table of
owners. Nothing is alive on the device but their textures, and what others have there. -/
structure Carries (others : List TextureHandle) (n : Nat) (b : Books) (s : TextureFrames)
    (p : Platform) : Prop where
  owned : ∀ i y, s.resources[i]? = some y → ∀ mid ∈ y.mids,
    1 ≤ mid.value ∧ s.owners[mid.value - 1]? = some i
  last : s.lastId = s.owners.size
  few : s.owners.size ≤ n
  held : ((s.resources.filter (·.allocated)).map (·.mids)).Perm (b.held.map (·.mids))
  dry : ∀ y ∈ s.resources, y.allocated = false → y.textures = []
  live : ∀ texture ∈ p.live, texture ∈ others ∨ ∃ y ∈ s.resources, texture ∈ y.textures

/-- Resources that are all freed are forgotten. -/
structure Backs (others : List TextureHandle) (n : Nat) (b : Books) (s : TextureFrames)
    (p : Platform) : Prop extends Carries others n b s p where
  tidy : (∀ y ∈ s.resources, y.allocated = false) → s.resources = []

theorem Backs.mono {m : Nat} (h : s.Backs others n b p) (hn : n ≤ m) : s.Backs others m b p :=
  ⟨⟨h.owned, h.last, Nat.le_trans h.few hn, h.held, h.dry, h.live⟩, h.tidy⟩

/-- The same resources where no other textures are alive. -/
theorem Backs.beside {p' : Platform} (h : s.Backs others n b p)
    (hlive : ∀ texture ∈ p'.live, texture ∈ p.live) : s.Backs others n b p' :=
  ⟨⟨h.owned, h.last, h.few, h.held, h.dry, fun texture ht => h.live texture (hlive texture ht)⟩,
    h.tidy⟩

theorem backs_blank (settings : Option TextureSettings) (n : Nat) (p : Platform) :
    Backs p.live n .blank { settings := settings } p where
  owned := nofun
  last := rfl
  few := Nat.zero_le n
  held := .refl _
  dry := nofun
  tidy := fun _ => rfl
  live := fun _ ht => Or.inl ht

theorem owner?_eq_some {i : Nat} {y : TextureResource} :
    s.owner? mid = some (i, y) ↔ mid.value ≠ 0 ∧ s.owners[mid.value - 1]? = some i ∧
      s.resources[i]? = some y ∧ y.allocated = true := by
  unfold owner?
  constructor
  · intro h
    split at h
    · cases h
    · rename_i hzero
      obtain ⟨j, hj, h⟩ := Option.bind_eq_some_iff.mp h
      obtain ⟨z, hz, h⟩ := Option.bind_eq_some_iff.mp h
      split at h
      · rename_i halloc
        cases h
        exact ⟨hzero, hj, hz, halloc⟩
      · cases h
  · rintro ⟨hzero, hi, hy, halloc⟩
    simp [hzero, hi, hy, halloc]

/-- A held response is an allocated resource, which owns its frames. -/
theorem Carries.exists_owner (h : s.Carries others n b p) (hx : x ∈ b.held) :
    ∃ i y, s.resources[i]? = some y ∧ y.mids = x.mids ∧ y.allocated = true ∧
      ∀ mid ∈ x.mids, s.owner? mid = some (i, y) := by
  have hmem : x.mids ∈ (s.resources.filter (·.allocated)).map (·.mids) :=
    h.held.symm.subset (List.mem_map_of_mem hx)
  obtain ⟨y, hy, hmids⟩ := List.mem_map.mp hmem
  obtain ⟨hy, halloc⟩ := List.mem_filter.mp hy
  obtain ⟨i, hi⟩ := List.mem_iff_getElem?.mp hy
  refine ⟨i, y, hi, hmids, halloc, fun mid hm => owner?_eq_some.mpr ?_⟩
  obtain ⟨hpos, howner⟩ := h.owned i y hi mid (hmids ▸ hm)
  exact ⟨Nat.ne_of_gt hpos, howner, hi, halloc⟩

theorem Carries.bounds (h : s.Carries others n b p) (hm : mid ∈ b.mids) :
    1 ≤ mid.value ∧ mid.value ≤ s.owners.size := by
  obtain ⟨x, hx, hm⟩ := Books.mem_mids.mp hm
  obtain ⟨i, y, -, -, -, howner⟩ := h.exists_owner hx
  obtain ⟨hzero, hi, -⟩ := owner?_eq_some.mp (howner mid hm)
  obtain ⟨hlt, -⟩ := Array.getElem?_eq_some_iff.mp hi
  omega

/-- Frames with the same owner are in the same place. -/
theorem untouched_of_owner? {s' : TextureFrames} (h : s'.owner? mid = s.owner? mid) :
    Untouched mid s s' := by
  refine ⟨rfl, ?_⟩
  change TextureFrames.handle mid s' = s.handle mid
  unfold TextureFrames.handle
  rw [h]

theorem gone_of_owner? (h : s.owner? mid = none) : Gone mid s := by
  refine ⟨⟨_, rfl⟩, .invalidHandle mid, ?_⟩
  change TextureFrames.handle mid s = _
  unfold TextureFrames.handle
  rw [h]
  rfl

/-! ### Allocation -/

/-- A resource with the frames that follow the last one. -/
def added (mids : List MemId) (textures : List TextureHandle) (s : TextureFrames) : TextureFrames :=
  { s with
    resources := s.resources ++ [⟨mids, textures, true⟩]
    owners := s.owners ++ Array.replicate mids.length s.resources.length }

section Added

variable {mids : List MemId} {textures : List TextureHandle}

theorem size_owners_added :
    (s.added mids textures).owners.size = s.owners.size + mids.length := by
  simp [added]

/-- What has an owner keeps it. -/
theorem owner?_added {j : Nat × TextureResource} (h : s.owner? mid = some j) :
    (s.added mids textures).owner? mid = some j := by
  obtain ⟨hzero, hi, hy, halloc⟩ := owner?_eq_some.mp h
  refine owner?_eq_some.mpr ⟨hzero, ?_, ?_, halloc⟩
  · unfold added
    rw [Array.getElem?_append_left (Array.getElem?_eq_some_iff.mp hi).1, hi]
  · exact (List.getElem?_append_left (List.getElem?_eq_some_iff.mp hy).1).trans hy

theorem Carries.added {p' : Platform} (h : s.Carries others n b p) (hpos : mids ≠ [])
    (hmids : mids = (List.range' (s.owners.size + 1) mids.length).map MemId.mk)
    (hlive : ∀ texture ∈ p'.live, texture ∈ textures ∨ texture ∈ p.live) :
    Carries others (n + mids.length) (b.enter r mids) (s.added mids textures) p' where
  owned := by
    intro i y hy mid hm
    unfold TextureFrames.added at hy ⊢
    rcases Nat.lt_or_ge i s.resources.length with hlt | hge
    · rw [List.getElem?_append_left hlt] at hy
      obtain ⟨hone, howner⟩ := h.owned i y hy mid hm
      refine ⟨hone, ?_⟩
      rw [Array.getElem?_append_left (Array.getElem?_eq_some_iff.mp howner).1, howner]
    · rw [List.getElem?_append_right hge, List.getElem?_singleton] at hy
      split at hy
      · rename_i hi
        cases hy
        have hi : i = s.resources.length := by omega
        rw [hmids] at hm
        obtain ⟨hlow, hhigh⟩ := mem_consecutive.mp hm
        refine ⟨by omega, ?_⟩
        rw [Array.getElem?_append_right (by omega), Array.getElem?_replicate, if_pos (by omega), hi]
      · cases hy
  last := by
    have hne : mids.length ≠ 0 := fun hz => hpos (List.eq_nil_of_length_eq_zero hz)
    have hlast : mids.getLast? = some ⟨s.owners.size + mids.length⟩ := by
      rw [hmids]
      simp [List.getLast?_range', hne]
    rw [size_owners_added]
    unfold lastId TextureFrames.added
    dsimp only
    rw [List.getLast?_concat, Option.bind_some, hlast]
    rfl
  few := by
    rw [size_owners_added]
    exact Nat.add_le_add_right h.few _
  held := by
    obtain ⟨id, hperm⟩ := b.held_enter r mids
    refine List.Perm.trans ?_ (hperm.map (·.mids)).symm
    unfold TextureFrames.added
    rw [List.filter_append, List.map_append, List.map_cons]
    exact (List.perm_append_singleton _ _).trans (h.held.cons _)
  dry := by
    intro y hy hfree
    rcases List.mem_append.mp hy with hy | hy
    · exact h.dry y hy hfree
    · rw [List.mem_singleton.mp hy] at hfree
      cases hfree
  live := by
    intro texture ht
    rcases hlive texture ht with ht | ht
    · exact Or.inr ⟨_, List.mem_append_right _ (List.mem_singleton_self _), ht⟩
    · refine (h.live texture ht).imp_right ?_
      rintro ⟨y, hy, hyt⟩
      exact ⟨y, List.mem_append_left _ hy, hyt⟩

theorem Backs.added {p' : Platform} (h : s.Backs others n b p) (hpos : mids ≠ [])
    (hmids : mids = (List.range' (s.owners.size + 1) mids.length).map MemId.mk)
    (hlive : ∀ texture ∈ p'.live, texture ∈ textures ∨ texture ∈ p.live) :
    Supplied (Backs others) n b r mids s (s.added mids textures) p' where
  nodup := Consecutive.nodup ⟨_, hmids⟩
  new := by
    intro mid hm hb
    rw [hmids] at hm
    have hnew := mem_consecutive.mp hm
    have hold := h.bounds hb
    omega
  backs := by
    refine ⟨h.toCarries.added hpos hmids hlive, fun hall => ?_⟩
    cases hall _ (List.mem_append_right _ (List.mem_singleton_self _))
  untouched := by
    intro mid hm
    obtain ⟨x, hx, hm⟩ := Books.mem_mids.mp hm
    obtain ⟨i, y, -, -, -, howner⟩ := h.exists_owner hx
    exact untouched_of_owner? ((owner?_added (howner mid hm)).trans (howner mid hm).symm)

end Added

/-- Identifiers for the frames of a request: those that follow the latest one. -/
def nextIds (r : Request) (s : TextureFrames) : List MemId :=
  (List.range' (s.lastId + 1) r.suggested.toNat).map MemId.mk

theorem length_nextIds (r : Request) (s : TextureFrames) :
    (s.nextIds r).length = r.suggested.toNat := by
  simp [nextIds]

/-- A request is refused at once, or there are no textures for it, or it makes up a resource. -/
theorem allocate_cases (r : Request) (s : TextureFrames) (p : Platform) :
    (∃ e, s.allocate r p = (.error e, s, p)) ∨
    ∃ single made p',
      createTextures (describe single r) (r.suggested.toNat / (describe single r).slices) [] p =
        (made, p') ∧
      s.allocate r p = match made with
        | none => (.error .memory, s, p')
        | some textures => (.ok (s.nextIds r), s.added (s.nextIds r) textures, p') := by
  unfold TextureFrames.allocate
  split
  · exact .inl ⟨_, rfl⟩
  · rename_i settings _
    split
    · exact .inl ⟨_, rfl⟩
    · refine .inr ⟨settings.singleTexture, _, _, rfl, ?_⟩
      dsimp only
      simp only [added, length_nextIds]
      generalize createTextures _ _ [] p = made
      obtain ⟨made, p'⟩ := made
      cases made <;> rfl

theorem Carries.nextIds (h : s.Carries others n b p) (r : Request) :
    s.nextIds r = (List.range' (s.owners.size + 1) (s.nextIds r).length).map MemId.mk := by
  rw [length_nextIds, TextureFrames.nextIds, h.last]

theorem nextIds_ne_nil (hr : r.suggested ≠ 0) : s.nextIds r ≠ [] := by
  intro hnil
  have hlen := length_nextIds r s
  rw [hnil] at hlen
  exact hr (UInt16.toNat_inj.mp hlen.symm)

theorem Backs.allocate (h : s.Backs others n b p) (hr : r.suggested ≠ 0) :
    Answered (Backs others) n b r s p (s.allocate r p) := by
  rcases allocate_cases r s p with ⟨e, heq⟩ | ⟨single, made, p', hmade, heq⟩
  · rw [heq]
    exact ⟨h.mono (Nat.le_add_right _ _), fun mid => untouched_self mid s⟩
  · have hlive : ∀ texture ∈ p'.live, texture ∈ made.getD [] ∨ texture ∈ p.live ∧ texture ∉ [] := by
      intro texture ht
      have hnew := @mem_live_createTextures (describe single r)
        (r.suggested.toNat / (describe single r).slices) [] p texture
      rw [hmade] at hnew
      exact hnew ht
    rw [heq]
    cases made with
    | none =>
      have hsame : ∀ texture ∈ p'.live, texture ∈ p.live := fun texture ht =>
        (hlive texture ht).elim nofun And.left
      exact ⟨(h.beside hsame).mono (Nat.le_add_right _ _), fun mid => untouched_self mid s⟩
    | some textures =>
      refine ⟨length_nextIds r s, fun _ => ?_⟩
      exact h.added (nextIds_ne_nil hr) (h.nextIds r) fun texture ht =>
        (hlive texture ht).imp_right And.left

/-! ### Release -/

theorem filter_set_perm {α : Type} {l : List α} {q : α → Bool} {i : Nat} {y y' : α}
    (hi : l[i]? = some y) (hy : q y = true) (hy' : q y' = false) :
    (l.filter q).Perm (y :: (l.set i y').filter q) := by
  obtain ⟨hlt, rfl⟩ := List.getElem?_eq_some_iff.mp hi
  have hset : l.set i y' = l.take i ++ y' :: l.drop (i + 1) := by
    rw [List.set_eq_take_append_cons_drop, if_pos hlt]
  have hsplit : l = l.take i ++ l[i] :: l.drop (i + 1) := by
    rw [List.getElem_cons_drop, List.take_append_drop]
  rw [hset, List.filter_append, List.filter_cons_of_neg (by simp [hy'])]
  nth_rewrite 1 [hsplit]
  rw [List.filter_append, List.filter_cons_of_pos hy]
  exact List.perm_middle

/-- Tidying up takes nothing from an owner. -/
theorem owner?_tidy : s.tidy.owner? mid = s.owner? mid := by
  unfold tidy
  split
  · rfl
  · rename_i hnone
    have hfree : s.owner? mid = none := by
      rw [Option.eq_none_iff_forall_ne_some]
      rintro ⟨i, y⟩ h
      obtain ⟨-, -, hy, halloc⟩ := owner?_eq_some.mp h
      exact hnone (List.any_eq_true.mpr ⟨y, List.mem_of_getElem? hy, halloc⟩)
    rw [hfree]
    simp [owner?]

theorem Carries.tidy (h : s.Carries others n b p) : Backs others n b s.tidy p := by
  unfold TextureFrames.tidy
  split
  · rename_i hany
    obtain ⟨y, hy, halloc⟩ := List.any_eq_true.mp hany
    refine ⟨h, fun hall => ?_⟩
    rw [hall y hy] at halloc
    cases halloc
  · rename_i hnone
    have hfree : ∀ y ∈ s.resources, y.allocated = false := fun y hy => by
      rw [← Bool.not_eq_true]
      exact fun halloc => hnone (List.any_eq_true.mpr ⟨y, hy, halloc⟩)
    have hheld := h.held
    rw [List.filter_eq_nil_iff.mpr fun y hy => by simp [hfree y hy]] at hheld
    refine ⟨⟨nofun, rfl, Nat.zero_le n, hheld, nofun, fun texture ht => ?_⟩, fun _ => rfl⟩
    refine (h.live texture ht).imp_right ?_
    rintro ⟨y, hy, hyt⟩
    rw [h.dry y hy (hfree y hy)] at hyt
    cases hyt

/-- The resource at place `i` without its textures. -/
def retired (i : Nat) (y : TextureResource) (s : TextureFrames) : TextureFrames :=
  { s with resources := s.resources.set i { y with textures := [], allocated := false } }

section Retired

variable {i : Nat} {y : TextureResource}

theorem getElem?_retired (hy : s.resources[i]? = some y) (j : Nat) :
    (s.retired i y).resources[j]? =
      if j = i then some { y with textures := [], allocated := false } else s.resources[j]? := by
  unfold retired
  dsimp only
  rw [List.getElem?_set]
  split
  · rename_i hij
    rw [if_pos hij.symm, if_pos (hij ▸ (List.getElem?_eq_some_iff.mp hy).1)]
  · rename_i hij
    rw [if_neg (Ne.symm hij)]

theorem map_mids_retired (hy : s.resources[i]? = some y) :
    (s.retired i y).resources.map (·.mids) = s.resources.map (·.mids) := by
  obtain ⟨hlt, rfl⟩ := List.getElem?_eq_some_iff.mp hy
  unfold retired
  rw [List.map_set]
  exact List.ext_getElem? fun j => by
    rw [List.getElem?_set, List.getElem?_map]
    split
    · rename_i hij
      simp [← hij, hlt]
    · rfl

theorem lastId_retired (hy : s.resources[i]? = some y) : (s.retired i y).lastId = s.lastId := by
  have hlast : ∀ l : List TextureResource, (l.getLast?.bind fun r => r.mids.getLast?) =
      (l.map (·.mids)).getLast?.bind List.getLast? := fun l => by
    rw [List.getLast?_map, Option.bind_map]
    rfl
  unfold lastId
  rw [hlast, hlast, map_mids_retired hy]

/-- The others keep their owner. -/
theorem owner?_retired (hy : s.resources[i]? = some y) {j : Nat} {z : TextureResource}
    (hmid : s.owner? mid = some (j, z)) (hij : j ≠ i) :
    (s.retired i y).owner? mid = some (j, z) := by
  obtain ⟨hzero, hj, hz, halloc⟩ := owner?_eq_some.mp hmid
  refine owner?_eq_some.mpr ⟨hzero, hj, ?_, halloc⟩
  rw [getElem?_retired hy, if_neg hij, hz]

theorem owner?_retired_self (hy : s.resources[i]? = some y)
    (hmid : s.owners[mid.value - 1]? = some i) : (s.retired i y).owner? mid = none := by
  rw [Option.eq_none_iff_forall_ne_some]
  rintro ⟨j, z⟩ h
  obtain ⟨-, hj, hz, halloc⟩ := owner?_eq_some.mp h
  have hij : j = i := Option.some.inj (hj.symm.trans hmid)
  rw [getElem?_retired hy, if_pos hij] at hz
  cases hz
  cases halloc

theorem Carries.retired (h : s.Carries others n b p) (hs : b.Sound) (hx : x ∈ b.held)
    (hy : s.resources[i]? = some y) (halloc : y.allocated = true) (hmids : y.mids = x.mids)
    {p' : Platform} (hlive : ∀ texture ∈ p'.live, texture ∈ p.live ∧ texture ∉ y.textures) :
    Carries others n (b.strike x) (s.retired i y) p' where
  owned := by
    intro j z hz mid hm
    rw [getElem?_retired hy] at hz
    split at hz
    · rename_i hij
      cases hz
      exact hij ▸ h.owned i y hy mid hm
    · exact h.owned j z hz mid hm
  last := (lastId_retired hy).trans h.last
  few := h.few
  held := by
    have hfilter : (_ : List _).Perm (y.mids :: ((s.retired i y).resources.filter (·.allocated)).map
        (·.mids)) := (filter_set_perm hy halloc rfl).map (·.mids)
    have hheld := (hs.held_strike hx).map (·.mids)
    rw [List.map_cons, ← hmids] at hheld
    exact ((hfilter.symm.trans h.held).trans hheld).cons_inv
  dry := by
    intro z hz hfree
    obtain ⟨j, hj⟩ := List.mem_iff_getElem?.mp hz
    rw [getElem?_retired hy] at hj
    split at hj
    · cases hj
      rfl
    · exact h.dry z (List.mem_of_getElem? hj) hfree
  live := by
    intro texture ht
    obtain ⟨ht, hnot⟩ := hlive texture ht
    refine (h.live texture ht).imp_right ?_
    rintro ⟨z, hz, hzt⟩
    obtain ⟨j, hj⟩ := List.mem_iff_getElem?.mp hz
    have hij : j ≠ i := fun hij => by
      rw [hij, hy] at hj
      cases hj
      exact hnot hzt
    refine ⟨z, List.mem_of_getElem? (i := j) ?_, hzt⟩
    rw [getElem?_retired hy, if_neg hij, hj]

end Retired

/-- The resource that has the first frame of a response is the one that is released. -/
theorem Carries.release_eq (h : s.Carries others n b p) (hs : b.Sound) (hx : x ∈ b.held) :
    ∃ i y, s.resources[i]? = some y ∧ y.mids = x.mids ∧ y.allocated = true ∧
      (∀ mid ∈ x.mids, s.owner? mid = some (i, y)) ∧
      s.release x.mids p = (.ok (), (s.retired i y).tidy, p.releaseTextures y.textures) := by
  obtain ⟨i, y, hy, hmids, halloc, howner⟩ := h.exists_owner hx
  obtain ⟨first, rest, hfirst⟩ := List.exists_cons_of_ne_nil (hs.present x hx)
  refine ⟨i, y, hy, hmids, halloc, howner, ?_⟩
  have hmem : first ∈ x.mids := hfirst ▸ List.mem_cons_self
  rw [hfirst]
  unfold TextureFrames.release
  dsimp only
  rw [howner first hmem]
  rfl

theorem Backs.release (h : s.Backs others n b p) (hs : b.Sound) (hx : x ∈ b.held) :
    ∃ s' p', s.release x.mids p = (.ok (), s', p') ∧ Backs others n (b.strike x) s' p' ∧
      (∀ mid ∈ x.mids, Gone mid s') ∧ ∀ mid ∈ (b.strike x).mids, Untouched mid s s' := by
  obtain ⟨i, y, hy, hmids, halloc, howner, hrelease⟩ := h.release_eq hs hx
  refine ⟨_, _, hrelease, ?_, fun mid hm => ?_, fun mid hm => ?_⟩
  · refine (h.toCarries.retired hs hx hy halloc hmids fun texture ht => ?_).tidy
    rw [live_releaseTextures, List.mem_filter] at ht
    exact ⟨ht.1, of_decide_eq_true ht.2⟩
  · refine gone_of_owner? (owner?_tidy.trans (owner?_retired_self hy ?_))
    exact (owner?_eq_some.mp (howner mid hm)).2.1
  · obtain ⟨x', hx', hm'⟩ := Books.mem_mids.mp hm
    have hheld' : x' ∈ b.held := (hs.held_strike hx).symm.subset (List.mem_cons_of_mem _ hx')
    obtain ⟨j, z, hz, hmids', -, howner'⟩ := h.exists_owner hheld'
    have hij : j ≠ i := fun hij => by
      rw [hij, hy] at hz
      cases hz
      exact hs.not_mem_strike hx (hmids ▸ hmids' ▸ hm') hm
    refine untouched_of_owner? (owner?_tidy.trans ?_)
    exact (owner?_retired hy (howner' mid hm') hij).trans (howner' mid hm').symm

theorem Backs.resources_of_blank (h : s.Backs others n .blank p) : s.resources = [] := by
  refine h.tidy fun y hy => ?_
  have hnil := List.map_eq_nil_iff.mp (List.perm_nil.mp h.held)
  rw [← Bool.not_eq_true]
  exact List.filter_eq_nil_iff.mp hnil y hy

theorem Backs.live_of_blank (h : s.Backs others n .blank p) {texture : TextureHandle}
    (ht : texture ∈ p.live) : texture ∈ others := by
  refine (h.live texture ht).elim id ?_
  rintro ⟨y, hy, -⟩
  rw [h.resources_of_blank] at hy
  cases hy

theorem Backs.close (h : s.Backs others n .blank p) :
    Backs others n .blank (s.close p).1 (s.close p).2 := by
  refine ⟨⟨nofun, rfl, Nat.zero_le n, .refl _, nofun, fun texture ht => ?_⟩, fun _ => rfl⟩
  unfold TextureFrames.close at ht
  dsimp only at ht
  rw [live_releaseTextures, List.mem_filter] at ht
  exact Or.inl (h.live_of_blank ht.1)

theorem backing (others : List TextureHandle) : Backing TextureFrames (Backs others) where
  mono := fun hn h => h.mono hn
  allocate := fun h _ _ hr => .ok (h.allocate hr)
  answers := fun _ _ _ => .ok trivial
  release := fun h hs hx => h.release hs hx
  fill := fun _ _ _ _ h => .ok h
  close := fun h => ⟨_, _, rfl, h.close⟩

end TextureFrames

end Multiview
