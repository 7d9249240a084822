import Multiview.Proofs.Memory.Stores

/-!
Slices of textures. As long as a texture is alive it has the slices that it was created with. A resource
deals its frames out to the slices of its textures, so that each frame has a slice of its own.
-/

namespace Multiview

/-- What a texture was created for, if this is where it was created. -/
def Event.desc? (texture : TextureHandle) : Event → Option TextureDesc
  | device (.createTexture desc answer) => if answer = some texture then some desc else none
  | _ => none

namespace Platform

/-- What a texture was last created for. -/
def desc? (texture : TextureHandle) (p : Platform) : Option TextureDesc :=
  p.journal.findSome? (Event.desc? texture)

variable {p : Platform} {texture : TextureHandle}

theorem desc?_createTexture (h : p.Sane) (desc : TextureDesc) (ht : texture ∈ p.live) :
    (p.createTexture desc).2.desc? texture = p.desc? texture := by
  unfold createTexture
  cases hd : p.device with
  | none => rfl
  | some d =>
    have hlive : p.live = d.live := by simp [live, hd]
    have hnew : (d.create desc).1 ≠ some texture := fun hc =>
      (h.anew d hd).not_mem hc (hlive ▸ ht)
    simp [desc?, record, Event.desc?, hnew]

theorem desc?_created {desc : TextureDesc} (h : (p.createTexture desc).1 = some texture) :
    (p.createTexture desc).2.desc? texture = some desc := by
  unfold createTexture at h ⊢
  cases hd : p.device with
  | none => simp [hd] at h
  | some d =>
    simp only [hd] at h
    simp [desc?, record, Event.desc?, h]

theorem desc?_releaseTextures (textures : List TextureHandle) (p : Platform) :
    (p.releaseTextures textures).desc? texture = p.desc? texture := by
  unfold releaseTextures
  induction textures generalizing p with
  | nil => rfl
  | cons t textures ih =>
    rw [List.foldl_cons, ih]
    exact List.findSome?_cons_of_isNone rfl

/-- New textures are created for what was asked, and those that are alive are still what they were. -/
theorem desc?_createTextures (h : p.Sane) (desc : TextureDesc) (n : Nat)
    {made : List TextureHandle} (hmade : ∀ t ∈ made, t ∈ p.live ∧ p.desc? t = some desc) :
    (∀ t ∈ p.live, (createTextures desc n made p).2.desc? t = p.desc? t) ∧
      ∀ textures, (createTextures desc n made p).1 = some textures →
        ∀ t ∈ textures, (createTextures desc n made p).2.desc? t = some desc := by
  induction n generalizing p made with
  | zero =>
    constructor
    · intro t _
      rfl
    · rintro textures ⟨⟩ t ht
      exact (hmade t (List.mem_reverse.mp ht)).2
  | succ n ih =>
    have hone := gains_createTexture p desc h
    have hold : ∀ t ∈ p.live, (p.createTexture desc).2.desc? t = p.desc? t := fun t ht =>
      desc?_createTexture h desc ht
    unfold createTextures
    split
    · rename_i p' heq
      rw [heq] at hold
      constructor
      · intro t ht
        rw [desc?_releaseTextures, hold t ht]
      · rintro textures ⟨⟩
    · rename_i texture p' heq
      have hnew : (p.createTexture desc).2.desc? texture = some desc :=
        desc?_created (by rw [heq])
      rw [heq] at hone hold hnew
      obtain ⟨hsane, hlive⟩ := hone
      have hmade' : ∀ t ∈ texture :: made, t ∈ p'.live ∧ p'.desc? t = some desc := by
        rw [List.forall_mem_cons, hlive]
        constructor
        · exact ⟨by simp, hnew⟩
        · intro t ht
          obtain ⟨ht, hdesc⟩ := hmade t ht
          exact ⟨List.mem_append_left _ ht, (hold t ht).trans hdesc⟩
      obtain ⟨hkeep, hcreated⟩ := ih hsane hmade'
      constructor
      · intro t ht
        rw [hkeep t (hlive ▸ List.mem_append_left _ ht), hold t ht]
      · exact hcreated

/-- Textures were created for `desc`, or else none were; those that were alive before still are. -/
structure Created (desc : TextureDesc) (n : Nat) (p p' : Platform)
    (made : Option (List TextureHandle)) : Prop where
  sane : p'.Sane
  live : p'.live = p.live ++ made.getD []
  kept : ∀ t ∈ p.live, p'.desc? t = p.desc? t
  length : ∀ textures, made = some textures → textures.length = n
  new : ∀ textures, made = some textures → ∀ t ∈ textures, p'.desc? t = some desc

theorem createTextures_created (h : p.Sane) {desc : TextureDesc} {n : Nat} {p' : Platform}
    {made : Option (List TextureHandle)} (hmade : createTextures desc n [] p = (made, p')) :
    Created desc n p p' made := by
  have hgains : p.Gains (createTextures desc n [] p).2 ((createTextures desc n [] p).1.getD []) :=
    gains_createTextures desc n (Gains.refl p)
  have hlength : ∀ textures, (createTextures desc n [] p).1 = some textures →
      textures.length = [].length + n := fun textures => length_createTextures desc n [] p
  have hnone : ∀ t ∈ [], t ∈ p.live ∧ p.desc? t = some desc := nofun
  have hdesc := desc?_createTextures h desc n hnone
  rw [hmade] at hgains hlength hdesc
  obtain ⟨hsane, hlive⟩ := hgains h
  obtain ⟨hkept, hnew⟩ := hdesc
  exact ⟨hsane, hlive, hkept, fun textures ht => by simpa using hlength textures ht, hnew⟩

end Platform

namespace TextureResource

/-- The frames follow one another, and the textures have slices for all of them. -/
structure Slotted (p : Platform) (y : TextureResource) : Prop where
  numbered : Consecutive y.mids.length y.mids
  present : y.textures ≠ []
  room : ∀ t ∈ y.textures, ∃ desc, p.desc? t = some desc ∧
    y.mids.length ≤ y.textures.length * desc.slices

variable {p : Platform} {y : TextureResource} {mid mid' : MemId} {x : NativeHandle}

/-- The textures are still what they were. -/
theorem Slotted.beside {p' : Platform} (h : y.Slotted p)
    (hdesc : ∀ t ∈ y.textures, p'.desc? t = p.desc? t) : y.Slotted p' where
  numbered := h.numbered
  present := h.present
  room := by
    intro t ht
    rw [hdesc t ht]
    exact h.room t ht

/-- A frame is in a slice of one of the textures. -/
theorem Slotted.handle (h : y.Slotted p) (hm : mid ∈ y.mids) :
    ∃ x desc, y.handle mid = some x ∧ x.texture ∈ y.textures ∧
      p.desc? x.texture = some desc ∧ x.slice < desc.slices := by
  obtain ⟨start, hstart⟩ := h.numbered
  obtain ⟨-, hlt, heq⟩ := handle_eq hstart hm
  have hpos := List.length_pos_iff.mpr h.present
  have hmod := Nat.mod_lt (mid.value - start) hpos
  have hmem := List.getElem_mem hmod
  obtain ⟨desc, hdesc, hroom⟩ := h.room _ hmem
  refine ⟨⟨_, (mid.value - start) / y.textures.length⟩, desc, ?_, hmem, hdesc, ?_⟩
  · rw [heq, List.getElem?_eq_getElem hmod]
    rfl
  · exact Nat.div_lt_of_lt_mul (by omega)

/-- No two frames are in the same slice. -/
theorem Slotted.handle_inj (h : y.Slotted p) (hn : y.textures.Nodup) (hm : mid ∈ y.mids)
    (hm' : mid' ∈ y.mids) (hx : y.handle mid = some x) (hx' : y.handle mid' = some x) :
    mid = mid' := by
  obtain ⟨start, hstart⟩ := h.numbered
  exact TextureResource.handle_inj hstart hn hm hm' hx hx'

end TextureResource

end Multiview
