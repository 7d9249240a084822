import Multiview.Proofs.Memory.Service

/-!
What no operation of a store breaks lasts through all calls of an allocator. Layouts of frames in host
memory are such: a frame is laid out for the request that it was allocated for, and identifiers are never
issued again, so it keeps its layout for as long as it is there. The table of owners of a store of textures
is another: all that it tells are places of resources.
-/

namespace Multiview

open Outcome

/-! ## Properties that last -/

/-- A property of stores that no operation breaks. -/
structure Lasting {β : Type} [FrameStore β] (q : β → Prop) : Prop where
  allocate : ∀ {s} r p, q s → Yields (FrameStore.allocate r s p) fun x => q x.2.1
  release : ∀ {s} mids p, q s → q (FrameStore.release mids s p).2.1
  fill : ∀ {s} mid start stop value, q s → Yields (FrameStore.fill mid start stop value s) q
  close : ∀ {s} p, q s → q (FrameStore.close s p).2.1

namespace Lasting

variable {β : Type} [FrameStore β] {q : β → Prop}

theorem releaseAll (h : Lasting q) (responses : List Response) (answer : Except AllocError Unit)
    {s : β} (p : Platform) (hs : q s) : q (Allocator.releaseAll responses answer s p).2.1 := by
  induction responses generalizing answer s p with
  | nil => exact hs
  | cons x rest ih =>
    have hrelease := h.release x.mids p hs
    unfold Allocator.releaseAll
    split
    · rename_i e s' p' heq
      rw [heq] at hrelease
      exact ih (.error e) p' hrelease
    · rename_i s' p' heq
      rw [heq] at hrelease
      exact ih answer p' hrelease

theorem closed (h : Lasting q) {a : Allocator β} (p : Platform) (ha : q a.store) :
    q (a.close p).2.1.store :=
  h.close _ (h.releaseAll (a.external ++ a.oneShot) (.ok ()) p ha)

/-- One call of an allocator leaves the store with the property. -/
theorem perform (h : Lasting q) (call : AllocatorCall) {s : Service β} (hs : q s.allocator.store) :
    Yields (s.perform call) fun t => q t.allocator.store := by
  cases call with
  | allocate r =>
    exact (Allocator.allocate_store hs (h.allocate r s.platform hs)).bind fun _ ha => .pure ha
  | free given => exact .ok (Allocator.free_store hs fun mids => h.release mids s.platform hs)
  | view mid => exact .ok hs
  | endView mid => exact .ok hs
  | handle mid => exact .ok hs
  | fill mid start stop value =>
    have hfill : Yields (s.allocator.fill mid start stop value) fun a => q a.store :=
      (h.fill mid start stop value hs).bind fun _ hq => .pure hq
    exact hfill.bind fun _ ha => .pure ha
  | close => exact .ok (h.closed s.platform hs)

/-- So does any number of calls. -/
theorem run (h : Lasting q) (calls : List AllocatorCall) {s : Service β}
    (hs : q s.allocator.store) : Yields (s.run calls) fun t => q t.allocator.store :=
  Yields.foldlM (q := fun t : Service β => q t.allocator.store)
    (fun _ call ht => h.perform call ht) hs

end Lasting

/-- A response is one that is held, or comes with frames that the store has just allocated. -/
theorem Allocator.allocate_cases {β : Type} [FrameStore β] (a : Allocator β) (r : Request)
    (p : Platform) :
    Yields (a.allocate r p) fun x => ∀ response, x.1 = .ok response → response ∈ a.external ∨
      FrameStore.allocate r a.store p = .ok (.ok response.mids, x.2.1.store, x.2.2) := by
  rcases allocate_split r a p with ⟨e, heq⟩ | ⟨held, hheld, -, heq⟩ | ⟨-, -, heq⟩
  · rw [heq]
    exact .ok nofun
  · rw [heq]
    refine .ok fun response hr => .inl ?_
    cases hr
    exact hheld
  · rw [heq]
    refine .map fun x hx response hr => .inr ?_
    rw [hx, takeOver_store, takeOver_platform, ← takeOver_eq_ok hr]

/-! ## Layouts that last -/

namespace HostFrames

variable {info : FrameInfo} {mid : MemId} {r : Request} {s : HostFrames}

/-- As long as the frame is there it is laid out for `info`, and its identifier is not issued again. -/
structure Laid (info : FrameInfo) (mid : MemId) (s : HostFrames) : Prop where
  issued : mid.value ≤ hostIdBase + s.issued
  frame : ∀ f, s.frames[mid.value]? = some f → f.LaidFor info

theorem Laid.lapsed {s' : HostFrames} {k : Nat} (h : s.Laid info mid) (hs : s.Lapsed k s') :
    s'.Laid info mid where
  issued := by
    have hissued := hs.issued
    have hbefore := h.issued
    omega
  frame := by
    intro f hf
    rw [hs.frames] at hf
    split at hf
    · cases hf
    · exact h.frame f hf

theorem Laid.stocked (h : s.Laid info mid) (f : HostFrame) (n : Nat) :
    (s.stocked f (s.nextIds n)).Laid info mid where
  issued := Nat.le_trans h.issued (Nat.add_le_add_left (Nat.le_add_right _ _) _)
  frame := by
    intro g hg
    have hold : mid.value ∉ (s.nextIds n).map (·.value) := fun hk => by
      have hnext := mem_consecutive.mp (MixedAllocator.mem_map_value.mp hk)
      have hissued := h.issued
      omega
    rw [getElem?_stocked, if_neg hold] at hg
    exact h.frame g hg

theorem laid_stocked {f : HostFrame} (hf : f.LaidFor info) {n : Nat} (hm : mid ∈ s.nextIds n) :
    (s.stocked f (s.nextIds n)).Laid info mid where
  issued := by
    have hnext := mem_consecutive.mp hm
    have hissued : (s.stocked f (s.nextIds n)).issued = s.issued + n :=
      congrArg (s.issued + ·) (s.length_nextIds n)
    omega
  frame := by
    intro g hg
    rw [getElem?_stocked, if_pos (List.mem_map_of_mem hm)] at hg
    cases hg
    exact hf

theorem Laid.release (h : s.Laid info mid) (mids : List MemId) : (s.release mids).Laid info mid where
  issued := h.issued
  frame := by
    intro f hf
    rw [getElem?_release] at hf
    split at hf
    · cases hf
    · exact h.frame f hf

theorem Laid.fill (h : s.Laid info mid) (mid' : MemId) (start stop : Nat) (value : UInt8) :
    Yields (s.fill mid' start stop value) (Laid info mid) := by
  unfold HostFrames.fill
  split
  · exact .ok h
  · rename_i f hf
    refine (f.buffer.fill_sound start stop value).yields.bind fun buffer hbuffer => .pure ?_
    refine ⟨h.issued, fun g hg => ?_⟩
    rw [Std.TreeMap.getElem?_insert] at hg
    split at hg
    · rename_i heq
      have heq : mid'.value = mid.value := by simpa using heq
      have hlaid := h.frame f (heq ▸ hf)
      cases hg
      exact ⟨hlaid.layout, hbuffer.1.trans hlaid.size, hbuffer.1 ▸ hlaid.limit⟩
    · exact h.frame g hg

theorem lasting_laid (info : FrameInfo) (mid : MemId) : Lasting (Laid info mid) where
  allocate {s} r p h := by
    refine (s.allocate_cases r p).yields.mono ?_
    rintro x (⟨e, n, s', hs, rfl⟩ | ⟨f, -, rfl⟩)
    · exact h.lapsed hs
    · exact h.stocked f _
  release mids _ h := h.release mids
  fill mid' start stop value h := h.fill mid' start stop value
  close _ h := h

/-- Frames that the store has just allocated can be mapped, and are laid out for their request. -/
theorem allocated {s' : HostFrames} {p p' : Platform} {mids : List MemId}
    (h : FrameStore.allocate r s p = .ok (.ok mids, s', p')) (hm : mid ∈ mids) :
    (∃ v, s'.view mid = .ok v) ∧ s'.Laid r.info mid := by
  have hall : Yields (FrameStore.allocate r s p) fun x => ∀ mids, x.1 = .ok mids → ∀ mid ∈ mids,
      (∃ v, x.2.1.view mid = .ok v) ∧ x.2.1.Laid r.info mid := by
    refine (s.allocate_cases r p).yields.mono ?_
    rintro x (⟨e, n, s', -, rfl⟩ | ⟨f, hf, rfl⟩) mids hmids mid hm
    · cases hmids
    · cases hmids
      exact ⟨⟨_, view_stocked hm f s⟩, laid_stocked hf hm⟩
  exact hall _ h mids rfl mid hm

end HostFrames

/-! ## Tables of owners -/

namespace TextureFrames

variable {s : TextureFrames} {mid : MemId}

/-- Every entry of the table of owners is the place of a resource. -/
def Indexed (s : TextureFrames) : Prop := ∀ i ∈ s.owners, i < s.resources.length

/-- A look-up stays within the resources: without an owner are only identifiers that the table does not
reach, and those of resources that were freed. -/
theorem Indexed.owner?_eq_none_iff (h : s.Indexed) :
    s.owner? mid = none ↔ mid.value = 0 ∨ s.owners[mid.value - 1]? = none ∨
      ∃ i y, s.owners[mid.value - 1]? = some i ∧ s.resources[i]? = some y ∧ y.allocated = false := by
  constructor
  · intro hnone
    by_contra hmore
    obtain ⟨hzero, hmore⟩ := not_or.mp hmore
    obtain ⟨htable, hfreed⟩ := not_or.mp hmore
    obtain ⟨i, hi⟩ := Option.ne_none_iff_exists'.mp htable
    have hlt := h i (Array.mem_of_getElem? hi)
    have hy := List.getElem?_eq_getElem hlt
    cases ha : s.resources[i].allocated with
    | true =>
      rw [owner?_eq_some.mpr ⟨hzero, hi, hy, ha⟩] at hnone
      cases hnone
    | false => exact hfreed ⟨i, _, hi, hy, ha⟩
  · intro hmiss
    rw [Option.eq_none_iff_forall_ne_some]
    rintro ⟨j, z⟩ howner
    obtain ⟨hzero, hj, hz, ha⟩ := owner?_eq_some.mp howner
    rcases hmiss with hmiss | hmiss | ⟨i, y, hi, hy, hfreed⟩
    · exact hzero hmiss
    · cases hmiss.symm.trans hj
    · cases hi.symm.trans hj
      cases hy.symm.trans hz
      cases ha.symm.trans hfreed

theorem Indexed.added (h : s.Indexed) (mids : List MemId) (textures : List TextureHandle) :
    (s.added mids textures).Indexed := by
  intro i hi
  have hlength : (s.added mids textures).resources.length = s.resources.length + 1 := by
    simp [TextureFrames.added]
  rw [hlength]
  rcases Array.mem_append.mp hi with hi | hi
  · exact Nat.lt_succ_of_lt (h i hi)
  · rw [(Array.mem_replicate.mp hi).2]
    exact Nat.lt_succ_self _

theorem Indexed.tidy (h : s.Indexed) : s.tidy.Indexed := by
  unfold TextureFrames.tidy
  split
  · exact h
  · exact fun i hi => absurd hi (Array.not_mem_empty i)

theorem Indexed.release (h : s.Indexed) (mids : List MemId) (p : Platform) :
    (s.release mids p).2.1.Indexed := by
  unfold TextureFrames.release
  split
  · exact h
  · split
    · exact h
    · apply Indexed.tidy
      intro i hi
      rw [List.length_set]
      exact h i hi

theorem lasting_indexed : Lasting Indexed where
  allocate {s} r p h := by
    refine .ok ?_
    rcases allocate_cases r s p with ⟨e, heq⟩ | ⟨single, made, p', -, heq⟩
    · rw [heq]
      exact h
    · rw [heq]
      cases made with
      | none => exact h
      | some textures => exact h.added _ textures
  release mids p h := h.release mids p
  fill _ _ _ _ h := .ok h
  close _ _ := fun i hi => absurd hi (Array.not_mem_empty i)

end TextureFrames

/-- What lasts in a store of textures lasts in one within a store for either kind of memory. -/
theorem Lasting.inEither {q : TextureFrames → Prop} (h : Lasting q) :
    Lasting fun s : MixedFrames => ∀ a, s.textures = some a → q a.store where
  allocate {s} r p hs := by
    change Yields (s.allocate r p) _
    unfold MixedFrames.allocate
    split
    · rename_i textures heq
      have ht : s.textures = some textures := by
        split at heq
        · exact heq
        · cases heq
      have hstore := hs textures ht
      refine (Allocator.allocate_store hstore (h.allocate r p hstore)).bind ?_
      rintro ⟨answer, a, p'⟩ ha
      cases answer <;> exact .pure fun b hb => by cases hb; exact ha
    · split
      · exact .pure hs
      · refine Yields.bind (p := fun _ => True) (fun _ _ => trivial) ?_
        rintro ⟨answer, host, p'⟩ -
        cases answer <;> exact .pure hs
  release {s} mids p hs := by
    change ∀ a, (s.release mids p).2.1.textures = some a → q a.store
    unfold MixedFrames.release
    split
    · exact hs
    · rename_i first rest
      split
      · split
        · exact hs
        · rename_i textures ht
          have hstore := hs textures ht
          have hfree : q (textures.free ⟨0, first :: rest⟩ p).2.1.store :=
            Allocator.free_store hstore fun held => h.release held p hstore
          split
          all_goals
            rename_i heq
            rw [heq] at hfree
            intro b hb
            cases hb
            exact hfree
      · split
        · exact hs
        · split <;> exact hs
  fill {s} mid start stop value hs := by
    change Yields (s.fill mid start stop value) _
    unfold MixedFrames.fill
    split
    · exact Yields.bind (p := fun _ => True) (fun _ _ => trivial) fun _ _ => .pure hs
    · exact .ok hs
  close {s} p hs := by
    have htextures : ∀ a, (s.closeTextures p).2.1.textures = some a → q a.store := by
      unfold MixedFrames.closeTextures
      split
      · exact hs
      · rename_i textures ht
        intro b hb
        cases hb
        exact h.closed p (hs textures ht)
    have hhost : ∀ (s : MixedFrames) p', (s.closeHost p').2.1.textures = s.textures := by
      intro s p'
      unfold MixedFrames.closeHost
      split <;> rfl
    change ∀ a, (s.close p).2.1.textures = some a → q a.store
    unfold MixedFrames.close
    split
    · rename_i heq
      rw [heq] at htextures
      exact htextures
    · rename_i t p' heq
      rw [heq] at htextures
      have hclosed := hhost t p'
      split
      all_goals
        rename_i heq'
        rw [heq'] at hclosed
        exact fun b hb => htextures b (hclosed.symm.trans hb)

namespace Service

/-- However an allocator of textures is used, its look-ups stay within the resources. -/
theorem run_indexed (settings : Option TextureSettings) (p : Platform) (calls : List AllocatorCall) :
    Yields ((inTextures settings p).run calls) (fun s => s.allocator.store.Indexed) ∧
    Yields ((inEither settings p).run calls) (fun s =>
      ∀ a, s.allocator.store.textures = some a → a.store.Indexed) := by
  have hblank : ∀ settings : Option TextureSettings,
      ({ settings := settings } : TextureFrames).Indexed :=
    fun _ i hi => absurd hi (Array.not_mem_empty i)
  constructor
  · refine TextureFrames.lasting_indexed.run calls ?_
    cases settings with
    | none => exact hblank none
    | some settings => exact hblank (some settings)
  · refine TextureFrames.lasting_indexed.inEither.run calls ?_
    intro a ha
    cases settings with
    | none => cases ha
    | some settings =>
      cases ha
      exact hblank (some settings)

end Service

end Multiview
