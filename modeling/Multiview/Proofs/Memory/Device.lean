import Mathlib.Data.List.Nodup
import Mathlib.Logic.Relation
import Multiview.Memory.Platform

/-!
Textures in the journal. Of a device that never answers with a texture that is alive, each texture is
alive once, and at all times it was released as often as it was created, or once less while it is alive.
-/

namespace Multiview

namespace Event

/-- The texture that was created. -/
def created? : Event → Option TextureHandle
  | device (.createTexture _ answer) => answer
  | _ => none

/-- The texture that was released. -/
def released? : Event → Option TextureHandle
  | device (.releaseTexture texture) => some texture
  | _ => none

end Event

/-- How often a texture was created. -/
def creations (texture : TextureHandle) (journal : List Event) : Nat :=
  (journal.filterMap Event.created?).count texture

/-- How often a texture was released. -/
def releases (texture : TextureHandle) (journal : List Event) : Nat :=
  (journal.filterMap Event.released?).count texture

theorem creations_cons (texture : TextureHandle) (e : Event) (journal : List Event) :
    creations texture (e :: journal) =
      e.created?.toList.count texture + creations texture journal := by
  unfold creations
  cases h : e.created? with
  | none => rw [List.filterMap_cons_none h, Option.toList_none, List.count_nil, Nat.zero_add]
  | some t =>
    rw [List.filterMap_cons_some h, Option.toList_some, ← List.singleton_append, List.count_append]

theorem releases_cons (texture : TextureHandle) (e : Event) (journal : List Event) :
    releases texture (e :: journal) =
      e.released?.toList.count texture + releases texture journal := by
  unfold releases
  cases h : e.released? with
  | none => rw [List.filterMap_cons_none h, Option.toList_none, List.count_nil, Nat.zero_add]
  | some t =>
    rw [List.filterMap_cons_some h, Option.toList_some, ← List.singleton_append, List.count_append]

namespace TextureDevice

/-- A call to the device. -/
inductive Called : TextureDevice → TextureDevice → Prop
  | create (d : TextureDevice) (desc : TextureDesc) : Called d (d.create desc).2
  | release (d : TextureDevice) (texture : TextureHandle) : Called d (d.release texture)

/-- Whatever calls were made before, the device refuses or answers with a texture that is not alive. -/
def AnswersAnew (d : TextureDevice) : Prop :=
  ∀ d', Relation.ReflTransGen Called d d' → ∀ desc texture,
    (d'.create desc).1 = some texture → texture ∉ d'.live

/-- A device that has no textures yet, and gives out none that is alive. -/
structure Fresh (d : TextureDevice) : Prop where
  live : d.live = []
  anew : d.AnswersAnew

variable {d d' : TextureDevice}

theorem AnswersAnew.called (h : d.AnswersAnew) (hc : Called d d') : d'.AnswersAnew :=
  fun d'' hd => h d'' (.head hc hd)

theorem AnswersAnew.not_mem (h : d.AnswersAnew) {desc : TextureDesc} {texture : TextureHandle}
    (ht : (d.create desc).1 = some texture) : texture ∉ d.live :=
  h d .refl desc texture ht

theorem live_create (d : TextureDevice) (desc : TextureDesc) :
    (d.create desc).2.live = d.live ++ (d.create desc).1.toList := by
  unfold create
  split
  · exact (List.append_nil _).symm
  · rfl

/-- Numbers given out before are smaller than the next one. -/
theorem counting_answersAnew (capacity : Option Nat) : (counting capacity).AnswersAnew := by
  intro d hd
  have hinv : d.answer = (counting capacity).answer ∧
      ∀ texture ∈ d.live, texture.value < 100 + d.created := by
    induction hd with
    | refl => exact ⟨rfl, nofun⟩
    | tail _ hc ih =>
      obtain ⟨hanswer, hlive⟩ := ih
      cases hc with
      | release texture => exact ⟨hanswer, fun t ht => hlive t (List.mem_filter.mp ht).1⟩
      | create desc =>
        unfold create
        split
        · exact ⟨hanswer, hlive⟩
        · rename_i texture ht
          rw [hanswer] at ht
          refine ⟨hanswer, fun t hmem => ?_⟩
          rcases List.mem_append.mp hmem with hmem | hmem
          · exact Nat.lt_succ_of_lt (hlive t hmem)
          · cases List.mem_singleton.mp hmem
            unfold counting at ht
            dsimp only at ht
            split at ht
            · cases ht
            · cases ht
              exact Nat.lt_succ_self _
  obtain ⟨hanswer, hlive⟩ := hinv
  intro desc texture ht hmem
  unfold create at ht
  rw [hanswer] at ht
  unfold counting at ht
  dsimp only at ht
  split at ht
  · cases ht
  · rename_i heq
    split at heq
    · cases heq
    · cases heq
      cases ht
      exact Nat.lt_irrefl _ (hlive _ hmem)

end TextureDevice

namespace Platform

/-- The textures alive on the device, oldest first. -/
def live (p : Platform) : List TextureHandle := (p.device.map (·.live)).getD []

/-- The journal agrees with the device on what is alive. -/
structure Sane (p : Platform) : Prop where
  anew : ∀ d, p.device = some d → d.AnswersAnew
  nodup : p.live.Nodup
  /-- At all times a texture was released as often as it was created, or once less. -/
  balanced : ∀ texture earlier, earlier <:+ p.journal →
    releases texture earlier ≤ creations texture earlier ∧
      creations texture earlier ≤ releases texture earlier + 1
  alive : ∀ texture, creations texture p.journal =
    releases texture p.journal + if texture ∈ p.live then 1 else 0

/-- Nothing is alive before anything is written in the journal. -/
theorem sane_of_fresh {p : Platform} (hd : ∀ d ∈ p.device, d.Fresh) (hj : p.journal = []) :
    p.Sane ∧ p.live = [] := by
  have hlive : p.live = [] := by
    unfold live
    cases hp : p.device with
    | none => rfl
    | some d => exact (hd d hp).live
  refine ⟨⟨fun d hp => (hd d hp).anew, ?_, fun texture earlier hs => ?_, fun texture => ?_⟩, hlive⟩
  · rw [hlive]
    exact List.nodup_nil
  · rw [hj] at hs
    cases List.suffix_nil.mp hs
    exact ⟨Nat.le_refl _, Nat.zero_le _⟩
  · rw [hj, hlive]
    rfl

/-- Textures were created, or created and released again, so that these are alive besides. -/
def Gains (p p' : Platform) (textures : List TextureHandle) : Prop :=
  p.Sane → p'.Sane ∧ p'.live = p.live ++ textures

variable {p p' q : Platform} {textures textures' : List TextureHandle}

theorem Gains.refl (p : Platform) : p.Gains p [] := fun h => ⟨h, (List.append_nil _).symm⟩

theorem Gains.trans (h : p.Gains p' textures) (h' : p'.Gains q textures') :
    p.Gains q (textures ++ textures') := by
  intro hp
  obtain ⟨hp', hlive⟩ := h hp
  obtain ⟨hq, hlive'⟩ := h' hp'
  exact ⟨hq, by rw [hlive', hlive, List.append_assoc]⟩

/-- An event in which as many textures are created and released as come alive and die. -/
theorem Sane.event (h : p.Sane) {e : Event} (hj : p'.journal = e :: p.journal)
    (ha : ∀ d, p'.device = some d → d.AnswersAnew) (hn : p'.live.Nodup)
    (hc : ∀ texture, e.created?.toList.count texture + (if texture ∈ p.live then 1 else 0) =
      e.released?.toList.count texture + if texture ∈ p'.live then 1 else 0) : p'.Sane := by
  have halive : ∀ texture, creations texture p'.journal =
      releases texture p'.journal + if texture ∈ p'.live then 1 else 0 := by
    intro texture
    have hold := h.alive texture
    have hnew := hc texture
    rw [hj, creations_cons, releases_cons]
    omega
  refine ⟨ha, hn, fun texture earlier hs => ?_, halive⟩
  rw [hj, List.suffix_cons_iff] at hs
  rcases hs with rfl | hs
  · have hall := halive texture
    rw [hj] at hall
    constructor
    · omega
    · rw [hall]
      refine Nat.add_le_add_left ?_ _
      split <;> decide
  · exact h.balanced texture earlier hs

/-- What the engine is asked is of no consequence for the device. -/
theorem gains_engine (call : EngineCall) (p : Platform) : p.Gains (p.record (.engine call)) [] :=
  fun h => ⟨h.event rfl h.anew h.nodup fun _ => rfl, (List.append_nil _).symm⟩

/-- So is what memory the host has. -/
theorem gains_asked (n : Nat) (p : Platform) : p.Gains (p.asked n) [] :=
  fun h => ⟨⟨h.anew, h.nodup, h.balanced, h.alive⟩, (List.append_nil _).symm⟩

theorem gains_createTexture (p : Platform) (desc : TextureDesc) :
    p.Gains (p.createTexture desc).2 (p.createTexture desc).1.toList := by
  intro h
  unfold createTexture
  cases hd : p.device with
  | none => exact ⟨h, (List.append_nil _).symm⟩
  | some d =>
    have hlive : p.live = d.live := by rw [live, hd]; rfl
    have hcreate := d.live_create desc
    have hanew := h.anew d hd
    dsimp only
    generalize hp' : Platform.record _ _ = p'
    have hlive' : p'.live = p.live ++ (d.create desc).1.toList := by
      rw [← hp', hlive, ← hcreate]
      rfl
    refine ⟨h.event (e := .device (.createTexture desc (d.create desc).1)) ?_ ?_ ?_ ?_, hlive'⟩
    · rw [← hp']
      rfl
    · intro d' hd'
      rw [← hp'] at hd'
      cases hd'
      exact hanew.called (.create d desc)
    · rw [hlive']
      cases ht : (d.create desc).1 with
      | none =>
        rw [Option.toList_none, List.append_nil]
        exact h.nodup
      | some texture =>
        refine h.nodup.append (List.nodup_singleton _) ?_
        rw [Option.toList_some, List.disjoint_singleton, hlive]
        exact hanew.not_mem ht
    · intro texture
      rw [hlive', hlive]
      cases ht : (d.create desc).1 with
      | none => simp [Event.created?, Event.released?]
      | some made =>
        have hnew := hanew.not_mem ht
        by_cases heq : texture = made
        · subst heq
          simp [Event.created?, Event.released?, hnew]
        · simp [Event.created?, Event.released?, heq, Ne.symm heq]

theorem live_releaseTexture (p : Platform) (texture : TextureHandle) :
    (p.releaseTexture texture).live = p.live.filter (· ≠ texture) := by
  unfold releaseTexture live
  cases p.device <;> rfl

theorem Sane.releaseTexture (h : p.Sane) {texture : TextureHandle} (ht : texture ∈ p.live) :
    (p.releaseTexture texture).Sane := by
  have hlive := live_releaseTexture p texture
  refine h.event (e := .device (.releaseTexture texture)) rfl ?_ ?_ ?_
  · intro d hd
    obtain ⟨d', hd', rfl⟩ := Option.map_eq_some_iff.mp hd
    exact (h.anew d' hd').called (.release d' texture)
  · rw [hlive]
    exact h.nodup.filter _
  · intro t
    rw [hlive]
    by_cases heq : t = texture
    · subst heq
      simp [Event.created?, Event.released?, ht]
    · simp [Event.created?, Event.released?, heq, Ne.symm heq]

/-- Textures that are alive can be released. -/
theorem Sane.releaseTextures (h : p.Sane) (hn : textures.Nodup) (hs : textures ⊆ p.live) :
    (p.releaseTextures textures).Sane ∧
      (p.releaseTextures textures).live = p.live.filter (· ∉ textures) := by
  unfold Platform.releaseTextures
  induction textures generalizing p with
  | nil => exact ⟨h, by simp⟩
  | cons texture textures ih =>
    obtain ⟨hnot, hn⟩ := List.nodup_cons.mp hn
    have hlive := live_releaseTexture p texture
    have hrest : textures ⊆ (p.releaseTexture texture).live := by
      intro t ht
      rw [hlive, List.mem_filter]
      refine ⟨hs (List.mem_cons_of_mem _ ht), decide_eq_true fun he => hnot (he ▸ ht)⟩
    obtain ⟨hsane, heq⟩ := ih (h.releaseTexture (hs List.mem_cons_self)) hn hrest
    refine ⟨hsane, heq.trans ?_⟩
    rw [hlive, List.filter_filter]
    refine List.filter_congr fun t _ => ?_
    simp only [List.mem_cons, not_or, Bool.decide_and, Bool.and_comm]

/-- All textures are created, or else none are left over. -/
theorem gains_createTextures (desc : TextureDesc) (n : Nat) {made : List TextureHandle}
    (h : p.Gains q made.reverse) :
    p.Gains (createTextures desc n made q).2 ((createTextures desc n made q).1.getD []) := by
  induction n generalizing made q with
  | zero => exact h
  | succ n ih =>
    have hone := gains_createTexture q desc
    unfold createTextures
    split
    · rename_i q' heq
      rw [heq] at hone
      intro hp
      obtain ⟨hq, hlive⟩ := (h.trans hone) hp
      rw [Option.toList_none, List.append_nil] at hlive
      have hnodup := hlive ▸ hq.nodup
      obtain ⟨hn, hm, hdisj⟩ := List.nodup_append'.mp hnodup
      obtain ⟨hsane, hleft⟩ := hq.releaseTextures hm (hlive ▸ List.subset_append_right _ _)
      refine ⟨hsane, hleft.trans ?_⟩
      rw [hlive, List.filter_append, Option.getD_none, List.append_nil]
      have hkeep : p.live.filter (· ∉ made.reverse) = p.live :=
        List.filter_eq_self.mpr fun t ht => decide_eq_true (hdisj ht)
      have hgone : made.reverse.filter (· ∉ made.reverse) = [] :=
        List.filter_eq_nil_iff.mpr fun t ht hnot => of_decide_eq_true hnot ht
      rw [hkeep, hgone, List.append_nil]
    · rename_i texture q' heq
      rw [heq] at hone
      refine ih ?_
      rw [List.reverse_cons]
      exact h.trans hone

theorem length_createTextures (desc : TextureDesc) (n : Nat) (made : List TextureHandle)
    (p : Platform) {textures : List TextureHandle}
    (h : (createTextures desc n made p).1 = some textures) :
    textures.length = made.length + n := by
  induction n generalizing made p with
  | zero =>
    cases h
    exact List.length_reverse
  | succ n ih =>
    unfold createTextures at h
    split at h
    · cases h
    · rw [ih _ _ h, List.length_cons]
      omega

end Platform

end Multiview
