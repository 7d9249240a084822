import Multiview.Proofs.Memory.Service
import Multiview.Proofs.Memory.Slices

/-!
Identifiers, resources and textures of an allocator that has a device for itself. What is alive on the
device belongs to the allocated resources, the table of owners tells for every identifier which resource
has it, and every frame that is held has a slice of its own.
-/

namespace Multiview

open Outcome Platform

namespace TextureFrames

/-- The books are backed, by textures that nothing else is alive beside, and every identifier that the
table of owners has room for is in a resource. -/
structure Matches (b : Books) (s : TextureFrames) (p : Platform) : Prop where
  backs : ∃ n, s.Backs [] n b p
  sane : p.Sane
  alive : p.live.Perm (s.resources.flatMap (·.textures))
  spans : s.resources.flatMap (·.mids) = (List.range' 1 s.owners.size).map MemId.mk
  slotted : ∀ y ∈ s.resources, y.allocated = true → y.Slotted p

variable {b : Books} {s : TextureFrames} {p : Platform} {r : Request} {x : Response} {mid : MemId}

theorem matches_blank {settings : Option TextureSettings} (hp : p.Sane) (hl : p.live = []) :
    Matches .blank { settings := settings } p where
  backs := ⟨0, hl ▸ backs_blank settings 0 p⟩
  sane := hp
  alive := by simp [hl]
  spans := rfl
  slotted := nofun

theorem Matches.mem_live (h : s.Matches b p) {y : TextureResource} (hy : y ∈ s.resources)
    {texture : TextureHandle} (ht : texture ∈ y.textures) : texture ∈ p.live :=
  h.alive.symm.subset (List.mem_flatMap_of_mem hy ht)

/-! ### Allocation -/

/-- There is a texture with slices for all frames, or one texture for each frame. -/
theorem describe_slices (single : Bool) (hr : r.suggested ≠ 0) :
    0 < r.suggested.toNat / (describe single r).slices ∧
      r.suggested.toNat ≤
        r.suggested.toNat / (describe single r).slices * (describe single r).slices := by
  have hpos : 0 < r.suggested.toNat := by
    apply Nat.pos_of_ne_zero
    intro hz
    exact hr (UInt16.toNat_inj.mp hz)
  cases single with
  | true =>
    have hslices : (describe true r).slices = r.suggested.toNat := by simp [describe]; omega
    simp [hslices, hpos]
  | false => simp [describe, hpos]

section Added

variable {mids : List MemId} {textures : List TextureHandle} {p' : Platform}

/-- A new resource with textures of its own. -/
theorem Matches.added (h : s.Matches b p) (hpos : mids ≠ [])
    (hmids : mids = (List.range' (s.owners.size + 1) mids.length).map MemId.mk)
    (hsane : p'.Sane) (hlive : p'.live = p.live ++ textures)
    (hkeep : ∀ texture ∈ p.live, p'.desc? texture = p.desc? texture)
    (hnew : TextureResource.Slotted p' ⟨mids, textures, true⟩) {n : Nat} :
    Supplied (fun _ b s p => Matches b s p) n b r mids s (s.added mids textures) p' := by
  obtain ⟨m, hbacks⟩ := h.backs
  have hsupplied : Supplied (Backs []) m b r mids s (s.added mids textures) p' := by
    apply hbacks.added hpos hmids
    intro texture ht
    rw [hlive, List.mem_append] at ht
    exact ht.symm
  refine ⟨hsupplied.nodup, hsupplied.new, ?_, hsupplied.untouched⟩
  constructor
  · exact ⟨_, hsupplied.backs⟩
  · exact hsane
  · rw [hlive]
    simpa [TextureFrames.added] using h.alive.append_right textures
  · calc (s.added mids textures).resources.flatMap (·.mids)
      _ = s.resources.flatMap (·.mids) ++ mids := by simp [TextureFrames.added]
      _ = (List.range' 1 s.owners.size).map MemId.mk ++
          (List.range' (1 + s.owners.size) mids.length).map MemId.mk := by
        rw [h.spans, Nat.add_comm 1, ← hmids]
      _ = (List.range' 1 (s.added mids textures).owners.size).map MemId.mk := by
        rw [← List.map_append, List.range'_append_1, size_owners_added]
  · intro y hy ha
    rcases List.mem_append.mp hy with hy | hy
    · exact (h.slotted y hy ha).beside fun texture ht => hkeep texture (h.mem_live hy ht)
    · rw [List.mem_singleton.mp hy]
      exact hnew

end Added

theorem Matches.allocate (h : s.Matches b p) (hr : r.suggested ≠ 0) {n : Nat} :
    Answered (fun _ b s p => Matches b s p) n b r s p (s.allocate r p) := by
  obtain ⟨m, hbacks⟩ := h.backs
  have hanswered := hbacks.allocate hr
  rcases allocate_cases r s p with ⟨e, heq⟩ | ⟨single, made, p', hmade, heq⟩
  · rw [heq]
    exact ⟨h, fun mid => untouched_self mid s⟩
  · have hcreated := createTextures_created h.sane hmade
    have hlive := hcreated.live
    rw [heq] at hanswered ⊢
    cases made with
    | none =>
      rw [Option.getD_none, List.append_nil] at hlive
      refine ⟨⟨⟨_, hanswered.1⟩, hcreated.sane, hlive ▸ h.alive, h.spans, ?_⟩,
        fun mid => untouched_self mid s⟩
      intro y hy ha
      exact (h.slotted y hy ha).beside fun texture ht => hcreated.kept texture (h.mem_live hy ht)
    | some textures =>
      have hlen := hcreated.length textures rfl
      obtain ⟨hpos, hroom⟩ := describe_slices single hr
      rw [← hlen] at hpos hroom
      refine ⟨length_nextIds r s, fun _ => ?_⟩
      apply h.added (nextIds_ne_nil hr) (hbacks.nextIds r) hcreated.sane hlive hcreated.kept
      constructor
      · exact ⟨_, hbacks.nextIds r⟩
      · exact List.ne_nil_of_length_pos hpos
      · intro texture ht
        refine ⟨_, hcreated.new textures rfl texture ht, ?_⟩
        rw [length_nextIds]
        exact hroom

/-! ### Release -/

/-- Freed resources have no textures. -/
theorem flatMap_textures_allocated
    (hdry : ∀ y ∈ s.resources, y.allocated = false → y.textures = []) :
    (s.resources.filter (·.allocated)).flatMap (·.textures) = s.resources.flatMap (·.textures) := by
  generalize s.resources = resources at hdry
  induction resources with
  | nil => rfl
  | cons y resources ih =>
    obtain ⟨hy, hrest⟩ := List.forall_mem_cons.mp hdry
    cases ha : y.allocated with
    | true => simp [ha, ih hrest]
    | false => simp [ha, ih hrest, hy ha]

/-- Forgetting freed resources forgets none of the textures. -/
theorem flatMap_textures_tidy (hdry : ∀ y ∈ s.resources, y.allocated = false → y.textures = []) :
    s.tidy.resources.flatMap (·.textures) = s.resources.flatMap (·.textures) := by
  unfold tidy
  split
  · rfl
  · rename_i hnone
    have hfree : s.resources.filter (·.allocated) = [] := by simpa using hnone
    rw [← flatMap_textures_allocated hdry, hfree]

theorem mem_resources_tidy {y : TextureResource} (hy : y ∈ s.tidy.resources) : y ∈ s.resources := by
  unfold tidy at hy
  split at hy
  · exact hy
  · cases hy

theorem spans_tidy (h : s.resources.flatMap (·.mids) = (List.range' 1 s.owners.size).map MemId.mk) :
    s.tidy.resources.flatMap (·.mids) = (List.range' 1 s.tidy.owners.size).map MemId.mk := by
  unfold tidy
  split
  · exact h
  · rfl

section Retired

variable {i : Nat} {y : TextureResource}

/-- The textures of a resource are released, and no others. -/
theorem Matches.live_retired (h : s.Matches b p) (hy : s.resources[i]? = some y) :
    (p.releaseTextures y.textures).Sane ∧
      (p.releaseTextures y.textures).live.Perm ((s.retired i y).resources.flatMap (·.textures)) := by
  have hsplit : p.live.Perm (y.textures ++ (s.retired i y).resources.flatMap (·.textures)) :=
    h.alive.trans (flatMap_set_perm hy rfl)
  obtain ⟨hn, -, hapart⟩ := List.nodup_append'.mp (hsplit.nodup_iff.mp h.sane.nodup)
  have hsub : y.textures ⊆ p.live := fun texture ht => h.mem_live (List.mem_of_getElem? hy) ht
  obtain ⟨hsane, hlive⟩ := h.sane.releaseTextures hn hsub
  refine ⟨hsane, ?_⟩
  rw [hlive]
  have hleft := hsplit.filter (· ∉ y.textures)
  have hgone : y.textures.filter (· ∉ y.textures) = [] := by simp
  have hkept : ((s.retired i y).resources.flatMap (·.textures)).filter (· ∉ y.textures) =
      (s.retired i y).resources.flatMap (·.textures) :=
    List.filter_eq_self.mpr fun texture ht => decide_eq_true fun hm => hapart hm ht
  rwa [List.filter_append, hgone, hkept, List.nil_append] at hleft

theorem slotted_retired (h : ∀ z ∈ s.resources, z.allocated = true → z.Slotted p)
    (hy : s.resources[i]? = some y) :
    ∀ z ∈ (s.retired i y).resources, z.allocated = true → z.Slotted p := by
  intro z hz ha
  obtain ⟨j, hj⟩ := List.mem_iff_getElem?.mp hz
  rw [getElem?_retired hy] at hj
  split at hj
  · cases hj
    cases ha
  · exact h z (List.mem_of_getElem? hj) ha

theorem spans_retired (h : s.resources.flatMap (·.mids) = (List.range' 1 s.owners.size).map MemId.mk)
    (hy : s.resources[i]? = some y) :
    (s.retired i y).resources.flatMap (·.mids) =
      (List.range' 1 (s.retired i y).owners.size).map MemId.mk := by
  rw [List.flatMap_def, map_mids_retired hy, ← List.flatMap_def, h]
  rfl

end Retired

theorem Matches.release (h : s.Matches b p) (hs : b.Sound) (hx : x ∈ b.held) :
    ∃ s' p', s.release x.mids p = (.ok (), s', p') ∧ Matches (b.strike x) s' p' ∧
      (∀ mid ∈ x.mids, Gone mid s') ∧ ∀ mid ∈ (b.strike x).mids, Untouched mid s s' := by
  obtain ⟨n, hbacks⟩ := h.backs
  obtain ⟨s', p', hrelease, hbacks', hgone, huntouched⟩ := hbacks.release (p := p) hs hx
  refine ⟨s', p', hrelease, ?_, hgone, huntouched⟩
  obtain ⟨i, y, hy, hmids, ha, -, heq⟩ := hbacks.release_eq hs hx
  rw [heq] at hrelease
  cases hrelease
  obtain ⟨hsane, hlive⟩ := h.live_retired hy
  have hcarries : Carries [] n (b.strike x) (s.retired i y) (p.releaseTextures y.textures) := by
    apply hbacks.retired hs hx hy ha hmids
    intro texture ht
    rw [live_releaseTextures, List.mem_filter] at ht
    exact ⟨ht.1, of_decide_eq_true ht.2⟩
  constructor
  · exact ⟨n, hbacks'⟩
  · exact hsane
  · rw [flatMap_textures_tidy hcarries.dry]
    exact hlive
  · exact spans_tidy (spans_retired h.spans hy)
  · intro z hz hza
    apply (slotted_retired h.slotted hy z (mem_resources_tidy hz) hza).beside
    intro texture _
    exact desc?_releaseTextures y.textures p

theorem Matches.live_of_blank (h : s.Matches .blank p) : p.live = [] := by
  obtain ⟨n, hbacks⟩ := h.backs
  have halive := h.alive
  rw [hbacks.resources_of_blank] at halive
  exact List.perm_nil.mp halive

theorem Matches.owners_of_blank (h : s.Matches .blank p) : s.owners.size = 0 := by
  obtain ⟨n, hbacks⟩ := h.backs
  have hspans := congrArg List.length h.spans
  rw [hbacks.resources_of_blank] at hspans
  simpa using hspans.symm

theorem Matches.close (h : s.Matches .blank p) : Matches .blank (s.close p).1 (s.close p).2 := by
  obtain ⟨n, hbacks⟩ := h.backs
  have hsame : (s.close p).2 = p := by
    simp [TextureFrames.close, hbacks.resources_of_blank, releaseTextures]
  rw [hsame]
  exact matches_blank h.sane h.live_of_blank

theorem Matches.init (h : s.Matches b p) (settings : Option TextureSettings) :
    Matches b (TextureFrames.init settings s).2 p := by
  obtain ⟨⟨n, hbacks⟩, hsane, halive, hspans, hslotted⟩ := h
  cases settings with
  | none => exact ⟨⟨n, hbacks⟩, hsane, halive, hspans, hslotted⟩
  | some settings =>
    obtain ⟨⟨howned, hlast, hfew, hheld, hdry, hlive⟩, htidy⟩ := hbacks
    exact ⟨⟨n, ⟨howned, hlast, hfew, hheld, hdry, hlive⟩, htidy⟩, hsane, halive, hspans, hslotted⟩

/-- A store of textures backs the books of its allocator. -/
theorem backing_matches : Backing TextureFrames fun _ b s p => Matches b s p where
  mono := fun _ h => h
  allocate := fun h _ _ hr => .ok (h.allocate hr)
  answers := fun _ _ _ => .ok trivial
  release := fun h hs hx => h.release hs hx
  fill := fun _ _ _ _ h => .ok h
  close := fun h => ⟨_, _, rfl, h.close⟩

/-! ### Frames -/

/-- The resource that has an identifier is the one that the table of owners tells. -/
theorem Matches.exists_owner (h : s.Matches b p) (hlow : 1 ≤ mid.value)
    (hhigh : mid.value ≤ s.owners.size) :
    ∃ i y, s.owners[mid.value - 1]? = some i ∧ s.resources[i]? = some y ∧ mid ∈ y.mids ∧
      ∀ j z, s.resources[j]? = some z → mid ∈ z.mids → j = i := by
  obtain ⟨n, hbacks⟩ := h.backs
  have hmem : mid ∈ s.resources.flatMap (·.mids) := by
    rw [h.spans, mem_consecutive]
    omega
  obtain ⟨y, hy, hm⟩ := List.mem_flatMap.mp hmem
  obtain ⟨i, hi⟩ := List.mem_iff_getElem?.mp hy
  obtain ⟨-, howner⟩ := hbacks.owned i y hi mid hm
  refine ⟨i, y, howner, hi, hm, ?_⟩
  intro j z hz hmz
  obtain ⟨-, howner'⟩ := hbacks.owned j z hz mid hmz
  exact Option.some.inj (howner'.symm.trans howner)

/-- A frame with an owner is in that resource, whose textures have a slice for it. -/
theorem Matches.mem_of_owner? (h : s.Matches b p) {i : Nat} {y : TextureResource}
    (ho : s.owner? mid = some (i, y)) : y ∈ s.resources ∧ mid ∈ y.mids ∧ y.Slotted p := by
  obtain ⟨hzero, hi, hy, ha⟩ := owner?_eq_some.mp ho
  obtain ⟨hlt, -⟩ := Array.getElem?_eq_some_iff.mp hi
  obtain ⟨j, z, hj, hz, hm, -⟩ := h.exists_owner (Nat.one_le_iff_ne_zero.mpr hzero) (by omega)
  obtain rfl : i = j := Option.some.inj (hi.symm.trans hj)
  obtain rfl : y = z := Option.some.inj (hy.symm.trans hz)
  have hmem := List.mem_of_getElem? hy
  exact ⟨hmem, hm, h.slotted y hmem ha⟩

/-- The frames that can be found on the device are those in the books. -/
theorem Matches.handle_iff (h : s.Matches b p) : (∃ x, s.handle mid = .ok x) ↔ mid ∈ b.mids := by
  obtain ⟨n, hbacks⟩ := h.backs
  constructor
  · rintro ⟨x, hx⟩
    obtain ⟨i, y, ho, -⟩ := handle_eq_ok_iff.mp hx
    obtain ⟨hy, hm, -⟩ := h.mem_of_owner? ho
    have hallocated := List.mem_filter.mpr ⟨hy, (owner?_eq_some.mp ho).2.2.2⟩
    have hheld := hbacks.held.subset (List.mem_map_of_mem hallocated)
    obtain ⟨response, hr, hmids⟩ := List.mem_map.mp hheld
    exact Books.mem_mids.mpr ⟨response, hr, hmids ▸ hm⟩
  · intro hm
    obtain ⟨response, hr, hm⟩ := Books.mem_mids.mp hm
    obtain ⟨i, y, -, -, -, ho⟩ := hbacks.toCarries.exists_owner hr
    obtain ⟨-, hmy, hslotted⟩ := h.mem_of_owner? (ho mid hm)
    obtain ⟨x, -, hx, -⟩ := hslotted.handle hmy
    exact ⟨x, handle_eq_ok_iff.mpr ⟨i, y, ho mid hm, hx⟩⟩

theorem Matches.handle_slice (h : s.Matches b p) {x : NativeHandle} (hx : s.handle mid = .ok x) :
    x.texture ∈ p.live ∧ ∃ desc, p.desc? x.texture = some desc ∧ x.slice < desc.slices := by
  obtain ⟨i, y, ho, hx⟩ := handle_eq_ok_iff.mp hx
  obtain ⟨hy, hm, hslotted⟩ := h.mem_of_owner? ho
  obtain ⟨x', desc, hx', ht, hdesc, hslice⟩ := hslotted.handle hm
  obtain rfl : x = x' := Option.some.inj (hx.symm.trans hx')
  exact ⟨h.mem_live hy ht, desc, hdesc, hslice⟩

theorem Matches.handle_inj (h : s.Matches b p) {mid' : MemId} {x : NativeHandle}
    (hx : s.handle mid = .ok x) (hx' : s.handle mid' = .ok x) : mid = mid' := by
  obtain ⟨i, y, ho, hx⟩ := handle_eq_ok_iff.mp hx
  obtain ⟨j, z, ho', hx'⟩ := handle_eq_ok_iff.mp hx'
  obtain ⟨hy, hm, hslotted⟩ := h.mem_of_owner? ho
  obtain ⟨hz, hm', hslotted'⟩ := h.mem_of_owner? ho'
  obtain ⟨hn, hapart⟩ := List.nodup_flatMap.mp (h.alive.nodup_iff.mp h.sane.nodup)
  have hsame : y = z := by
    have hsymm : Std.Symm fun y z : TextureResource => List.Disjoint y.textures z.textures :=
      ⟨fun _ _ hd _ hy hz => hd hz hy⟩
    by_contra hne
    obtain ⟨w, -, hw, ht, -⟩ := hslotted.handle hm
    obtain ⟨w', -, hw', ht', -⟩ := hslotted'.handle hm'
    obtain rfl : x = w := Option.some.inj (hx.symm.trans hw)
    obtain rfl : x = w' := Option.some.inj (hx'.symm.trans hw')
    exact hapart.forall hy hz hne ht ht'
  subst hsame
  exact hslotted.handle_inj (hn y hy) hm hm' hx hx'

end TextureFrames

end Multiview
