import Multiview.Proofs.Memory.Stores

/-!
Frames in either kind of memory. The responses are divided between the allocator for textures and the
one for host memory: both have their own books, which together are those of the allocator above them.
The table of origins tells for each frame whose book it is in. Identifiers of textures stay below
`hostIdBase` and those on the host lie above it, so that no frame is in both books.
-/

namespace Multiview

open Outcome Platform

namespace Books

/-- The entries are those of two other books. -/
structure Divided (b t h : Books) : Prop where
  external : b.external.Perm (t.external ++ h.external)
  oneShot : b.oneShot.Perm (t.oneShot ++ h.oneShot)

variable {b t h : Books} {x : Response} {r : Request}

theorem Divided.symm (hd : b.Divided t h) : b.Divided h t :=
  ⟨hd.external.trans List.perm_append_comm, hd.oneShot.trans List.perm_append_comm⟩

theorem Divided.held (hd : b.Divided t h) : b.held.Perm (t.held ++ h.held) := by
  refine (hd.external.append hd.oneShot).trans ?_
  unfold Books.held
  rw [List.append_assoc, List.append_assoc]
  refine List.Perm.append_left _ ?_
  rw [← List.append_assoc, ← List.append_assoc]
  exact List.perm_append_comm.append_right _

theorem Divided.mids (hd : b.Divided t h) : b.mids.Perm (t.mids ++ h.mids) := by
  unfold Books.mids
  rw [← List.flatMap_append]
  exact hd.held.flatMap_right _

theorem Divided.unknown (hd : b.Divided t h) (hr : b.Unknown r) : t.Unknown r :=
  fun hext y hy => hr hext y (hd.external.symm.subset (List.mem_append_left _ hy))

theorem Divided.enter (hd : b.Divided t h) (r : Request) (mids : List MemId) :
    (b.enter r mids).Divided (t.enter r mids) h := by
  unfold Books.enter
  split
  · refine ⟨(hd.external.append_right _).trans ?_, hd.oneShot⟩
    rw [List.append_assoc, List.append_assoc]
    exact List.perm_append_comm.append_left _
  · refine ⟨hd.external, (hd.oneShot.append_right _).trans ?_⟩
    rw [List.append_assoc, List.append_assoc]
    exact List.perm_append_comm.append_left _

theorem erase_append_of_not_mem {l l' : List Response} (hx : x ∉ l') :
    (l ++ l').erase x = l.erase x ++ l' := by
  by_cases hl : x ∈ l
  · rw [List.erase_append_left _ hl]
  · rw [List.erase_append_right _ hl, List.erase_of_not_mem hx, List.erase_of_not_mem hl]

theorem Divided.strike (hd : b.Divided t h) (hs : b.Sound) (hx : x ∈ t.held) :
    (b.strike x).Divided (t.strike x) h := by
  have hnot : x ∉ h.held := fun hh =>
    (List.nodup_append'.mp (hd.held.nodup_iff.mp hs.nodup_held)).2.2 hx hh
  have hext : x ∉ h.external := fun hh => hnot (List.mem_append_left _ hh)
  have hone : x ∉ h.oneShot := fun hh => hnot (List.mem_append_right _ hh)
  exact ⟨erase_append_of_not_mem hext ▸ hd.external.erase x,
    erase_append_of_not_mem hone ▸ hd.oneShot.erase x⟩

theorem Divided.eq_blank (hd : blank.Divided t h) : t = .blank ∧ h = .blank := by
  obtain ⟨htext, hhext⟩ := List.append_eq_nil_iff.mp (List.nil_perm.mp hd.external)
  obtain ⟨htone, hhone⟩ := List.append_eq_nil_iff.mp (List.nil_perm.mp hd.oneShot)
  cases t
  cases h
  exact ⟨congrArg₂ Books.mk htext htone, congrArg₂ Books.mk hhext hhone⟩

end Books

theorem Platform.live_of_device_eq {p p' : Platform} (h : p'.device = p.device) :
    p'.live = p.live := by
  unfold live
  rw [h]

theorem TextureFrames.Backs.le {others : List TextureHandle} {n : Nat} {b : Books}
    {s : TextureFrames} {p : Platform} {mid : MemId} (h : s.Backs others n b p)
    (hm : mid ∈ b.mids) : mid.value ≤ n :=
  Nat.le_trans (h.bounds hm).2 h.few

namespace MixedFrames

/-- The books of the allocator for one kind of memory. -/
def part (kind : MemoryKind) (s : MixedFrames) : Books :=
  match kind with
  | .video => (s.textures.map Allocator.books).getD .blank
  | .system => (s.host.map Allocator.books).getD .blank

/-- Both allocators together have the responses in the books, and the table of origins tells for each
frame which of them has it. -/
structure Filed (b : Books) (s : MixedFrames) : Prop where
  divided : b.Divided (s.part .video) (s.part .system)
  origins : ∀ k kind, s.origins[k]? = some kind ↔ k ∈ (s.part kind).mids.map (·.value)

variable {others : List TextureHandle} {n : Nat} {b : Books} {s s' : MixedFrames} {p : Platform}
  {r : Request} {x : Response} {mid : MemId} {mids : List MemId} {kind : MemoryKind}

theorem Filed.mem_iff (h : s.Filed b) : mid ∈ b.mids ↔ ∃ kind, mid ∈ (s.part kind).mids := by
  rw [h.divided.mids.mem_iff, List.mem_append]
  constructor
  · rintro (hv | hh)
    · exact ⟨.video, hv⟩
    · exact ⟨.system, hh⟩
  · rintro ⟨kind, hk⟩
    cases kind with
    | video => exact Or.inl hk
    | system => exact Or.inr hk

theorem Filed.mem_held_iff (h : s.Filed b) : x ∈ b.held ↔ ∃ kind, x ∈ (s.part kind).held := by
  rw [h.divided.held.mem_iff, List.mem_append]
  constructor
  · rintro (hv | hh)
    · exact ⟨.video, hv⟩
    · exact ⟨.system, hh⟩
  · rintro ⟨kind, hk⟩
    cases kind with
    | video => exact Or.inl hk
    | system => exact Or.inr hk

theorem Filed.origin (h : s.Filed b) (hm : mid ∈ (s.part kind).mids) : s.origin mid = kind := by
  unfold MixedFrames.origin
  rw [(h.origins _ kind).mpr (List.mem_map_of_mem hm)]
  rfl

/-- Only the books count, and the table of origins. -/
theorem Filed.congr (h : s.Filed b) (hpart : ∀ kind, s'.part kind = s.part kind)
    (horigins : s'.origins = s.origins) : s'.Filed b where
  divided := by
    rw [hpart, hpart]
    exact h.divided
  origins := fun k kind => by
    rw [hpart, horigins]
    exact h.origins k kind

/-- New frames are entered in the book of the allocator that has them. -/
theorem Filed.enter (h : s.Filed b) (hpart : s'.part kind = (s.part kind).enter r mids)
    (hrest : ∀ other, other ≠ kind → s'.part other = s.part other)
    (horigins : s'.origins = (s.remember mids kind).origins) (hnew : ∀ mid ∈ mids, mid ∉ b.mids) :
    s'.Filed (b.enter r mids) where
  divided := by
    cases kind with
    | video =>
      rw [hpart, hrest .system nofun]
      exact h.divided.enter r mids
    | system =>
      rw [hpart, hrest .video nofun]
      exact (h.divided.symm.enter r mids).symm
  origins := by
    intro k other
    rw [horigins, remember]
    dsimp only
    rw [getElem?_foldl_insert]
    by_cases hother : other = kind
    · rw [hother, hpart, ((Books.mids_enter r mids _).map _).mem_iff, List.map_append,
        List.mem_append]
      split
      · rename_i hk
        exact iff_of_true rfl (Or.inl hk)
      · rename_i hk
        rw [h.origins, or_iff_right hk]
    · rw [hrest other hother]
      split
      · rename_i hk
        obtain ⟨mid, hm, rfl⟩ := List.mem_map.mp hk
        refine iff_of_false (fun heq => hother (Option.some.inj heq).symm) fun hold => ?_
        exact hnew mid hm (h.mem_iff.mpr ⟨other, MixedAllocator.mem_map_value.mp hold⟩)
      · exact h.origins k other

/-- A response that is given back is struck out of the book that it is in. -/
theorem Filed.strike (h : s.Filed b) (hs : b.Sound) (hx : x ∈ (s.part kind).held)
    (hpart : s'.part kind = (s.part kind).strike x)
    (hsound : (s.part kind).Sound)
    (hrest : ∀ other, other ≠ kind → s'.part other = s.part other)
    (horigins : s'.origins = (s.forget x.mids).origins) :
    s'.Filed (b.strike x) where
  divided := by
    cases kind with
    | video =>
      rw [hpart, hrest .system nofun]
      exact h.divided.strike hs hx
    | system =>
      rw [hpart, hrest .video nofun]
      exact (h.divided.symm.strike hs hx).symm
  origins := by
    intro k other
    rw [horigins, forget]
    dsimp only
    rw [getElem?_foldl_erase]
    by_cases hother : other = kind
    · have hleft := (hsound.mids_strike hx).map (·.value)
      rw [List.map_append] at hleft
      rw [hother, hpart]
      split
      · rename_i hk
        obtain ⟨mid, hm, rfl⟩ := List.mem_map.mp hk
        refine iff_of_false nofun fun hold => ?_
        exact hsound.not_mem_strike hx hm (MixedAllocator.mem_map_value.mp hold)
      · rename_i hk
        rw [h.origins, hleft.mem_iff, List.mem_append, or_iff_right hk]
    · rw [hrest other hother]
      split
      · rename_i hk
        obtain ⟨mid, hm, rfl⟩ := List.mem_map.mp hk
        refine iff_of_false nofun fun hold => hother ?_
        rw [← h.origin (MixedAllocator.mem_map_value.mp hold)]
        exact h.origin (Books.mem_mids.mpr ⟨x, hx, hm⟩)
      · exact h.origins k other

/-- Questions about the frame are answered by the allocator. -/
structure Reaches {β : Type} [FrameStore β] (mid : MemId) (s : MixedFrames) (a : Allocator β) :
    Prop where
  view : FrameStore.view mid s = a.view mid
  endView : FrameStore.endView mid s = a.endView mid
  handle : FrameStore.handle mid s = a.handle mid

theorem reaches_textures {t : TextureAllocator} (ht : s.textures = some t)
    (ho : s.origin mid = .video) : s.Reaches mid t := by
  have hask : ∀ (α : Type) (f : TextureAllocator → Except AllocError α)
      (g : HostAllocator → Except AllocError α), s.ask mid f g = f t := fun α f g => by
    unfold ask
    rw [ho, ht]
  exact ⟨hask _ _ _, hask _ _ _, hask _ _ _⟩

theorem reaches_host {host : HostAllocator} (hh : s.host = some host)
    (ho : s.origin mid = .system) : s.Reaches mid host := by
  have hask : ∀ (α : Type) (f : TextureAllocator → Except AllocError α)
      (g : HostAllocator → Except AllocError α), s.ask mid f g = g host := fun α f g => by
    unfold ask
    rw [ho, hh]
  exact ⟨hask _ _ _, hask _ _ _, hask _ _ _⟩

theorem Reaches.untouched {β : Type} [FrameStore β] {a a' : Allocator β} (h : s.Reaches mid a)
    (h' : s'.Reaches mid a') (hu : Untouched mid a.store a'.store) : Untouched mid s s' :=
  ⟨h'.view.trans (hu.view.trans h.view.symm), h'.handle.trans (hu.handle.trans h.handle.symm)⟩

/-- Another allocator for textures that has left every frame where it was. -/
theorem untouched_with_textures {t t' : TextureAllocator} (ht : s.textures = some t)
    (hu : ∀ mid, Untouched mid t.store t'.store) (mid : MemId) :
    Untouched mid s { s with textures := some t' } := by
  cases ho : s.origin mid with
  | video => exact (reaches_textures ht ho).untouched (reaches_textures rfl ho) (hu mid)
  | system =>
    have ho' : origin mid { s with textures := some t' } = .system := ho
    have hask : ∀ (α : Type) (f : TextureAllocator → Except AllocError α)
        (g : HostAllocator → Except AllocError α),
        ask mid { s with textures := some t' } f g = s.ask mid f g := fun α f g => by
      unfold ask
      rw [ho, ho']
    exact ⟨hask _ _ _, hask _ _ _⟩

/-- Another allocator for host memory that has left every frame where it was. -/
theorem untouched_with_host {host host' : HostAllocator} (hh : s.host = some host)
    (hu : ∀ mid, Untouched mid host.store host'.store) (mid : MemId) :
    Untouched mid s { s with host := some host' } := by
  cases ho : s.origin mid with
  | system => exact (reaches_host hh ho).untouched (reaches_host rfl ho) (hu mid)
  | video =>
    have ho' : origin mid { s with host := some host' } = .video := ho
    have hask : ∀ (α : Type) (f : TextureAllocator → Except AllocError α)
        (g : HostAllocator → Except AllocError α),
        ask mid { s with host := some host' } f g = s.ask mid f g := fun α f g => by
      unfold ask
      rw [ho, ho']
    exact ⟨hask _ _ _, hask _ _ _⟩

/-- Both allocators are sound, and their books are divided as the table of origins tells. -/
structure Backs (others : List TextureHandle) (n : Nat) (b : Books) (s : MixedFrames)
    (p : Platform) : Prop where
  filed : s.Filed b
  host : ∃ host, s.host = some host ∧ host.Kept (HostFrames.Backs (· = p.device)) n p
  textures : ∀ t, s.textures = some t → t.Kept (TextureFrames.Backs others) n p
  quiet : s.textures = none → ∀ texture ∈ p.live, texture ∈ others

theorem part_video {t : TextureAllocator} (ht : s.textures = some t) :
    s.part .video = t.books := by
  unfold part
  rw [ht]
  rfl

theorem part_system {host : HostAllocator} (hh : s.host = some host) :
    s.part .system = host.books := by
  unfold part
  rw [hh]
  rfl

/-- Only the allocator for textures has changed. -/
theorem part_of_host_eq (h : s'.host = s.host) (other : MemoryKind) (hother : other ≠ .video) :
    s'.part other = s.part other := by
  cases other with
  | video => exact absurd rfl hother
  | system => exact congrArg (fun host => (host.map Allocator.books).getD .blank) h

/-- Only the allocator for host memory has changed. -/
theorem part_of_textures_eq (h : s'.textures = s.textures) (other : MemoryKind)
    (hother : other ≠ .system) : s'.part other = s.part other := by
  cases other with
  | video => exact congrArg (fun t => (t.map Allocator.books).getD .blank) h
  | system => exact absurd rfl hother

theorem kept_beside {q q' : Option TextureDevice → Prop} {p' : Platform} {host : HostAllocator}
    (h : host.Kept (HostFrames.Backs q) n p) (hq : q' p'.device) :
    host.Kept (HostFrames.Backs q') n p' :=
  ⟨h.sound, h.backed.beside hq⟩

theorem Backs.exists_textures (h : s.Backs others n b p) (hm : mid ∈ (s.part .video).mids) :
    ∃ t, s.textures = some t ∧ mid ∈ t.books.mids ∧ s.Reaches mid t := by
  cases ht : s.textures with
  | none =>
    unfold part at hm
    rw [ht] at hm
    cases hm
  | some t =>
    have ho := h.filed.origin hm
    rw [part_video ht] at hm
    exact ⟨t, rfl, hm, reaches_textures ht ho⟩

theorem Backs.exists_host (h : s.Backs others n b p) (hm : mid ∈ (s.part .system).mids) :
    ∃ host, s.host = some host ∧ mid ∈ host.books.mids ∧ s.Reaches mid host := by
  obtain ⟨host, hh, -⟩ := h.host
  have ho := h.filed.origin hm
  rw [part_system hh] at hm
  exact ⟨host, hh, hm, reaches_host hh ho⟩

/-- Frames in textures and those on the host have different identifiers. -/
theorem Backs.le_of_video (h : s.Backs others n b p) (hm : mid ∈ (s.part .video).mids) :
    mid.value ≤ n := by
  obtain ⟨t, ht, hm, -⟩ := h.exists_textures hm
  exact (h.textures t ht).backed.le hm

theorem Backs.lt_of_system (h : s.Backs others n b p) (hm : mid ∈ (s.part .system).mids) :
    hostIdBase < mid.value := by
  obtain ⟨host, hh, hkept⟩ := h.host
  rw [part_system hh] at hm
  exact (hkept.backed.range mid hm).1

/-- A frame that is not in the books is not there. -/
theorem Backs.gone (h : s.Backs others n b p) (hm : mid ∉ b.mids) : Gone mid s := by
  have hnone : s.origins[mid.value]? = none := by
    rw [Option.eq_none_iff_forall_ne_some]
    intro kind ho
    have hk := MixedAllocator.mem_map_value.mp ((h.filed.origins _ kind).mp ho)
    exact hm (h.filed.mem_iff.mpr ⟨kind, hk⟩)
  obtain ⟨host, hh, hkept⟩ := h.host
  have horigin : s.origin mid = .system := by
    unfold MixedFrames.origin
    rw [hnone]
    rfl
  have hmid : mid ∉ host.books.mids := fun hmid =>
    hm (h.filed.mem_iff.mpr ⟨.system, (part_system hh).symm ▸ hmid⟩)
  have hreach := reaches_host hh horigin
  refine ⟨⟨.invalidHandle mid, hreach.view.trans ?_⟩, .unsupported, hreach.handle⟩
  change host.store.view mid = _
  unfold HostFrames.view
  cases hf : host.store.frames[mid.value]? with
  | none => rfl
  | some f =>
    have hk := (hkept.backed.stocks mid.value).mp (by rw [hf]; rfl)
    exact absurd (MixedAllocator.mem_map_value.mp hk) hmid

/-- Frames that both allocators left where they were. -/
theorem Backs.untouched {p' : Platform} {b' : Books} {m : Nat} (h : s.Backs others n b p)
    (h' : s'.Backs others m b' p') (hm : mid ∈ (s.part kind).mids)
    (hm' : mid ∈ (s'.part kind).mids)
    (ht : ∀ t t', s.textures = some t → s'.textures = some t' → mid ∈ t.books.mids →
      mid ∈ t'.books.mids → Untouched mid t.store t'.store)
    (hh : ∀ host host', s.host = some host → s'.host = some host' → mid ∈ host.books.mids →
      mid ∈ host'.books.mids → Untouched mid host.store host'.store) : Untouched mid s s' := by
  cases kind with
  | video =>
    obtain ⟨t, hts, hmt, hreach⟩ := h.exists_textures hm
    obtain ⟨t', hts', hmt', hreach'⟩ := h'.exists_textures hm'
    exact hreach.untouched hreach' (ht t t' hts hts' hmt hmt')
  | system =>
    obtain ⟨host, hhs, hmh, hreach⟩ := h.exists_host hm
    obtain ⟨host', hhs', hmh', hreach'⟩ := h'.exists_host hm'
    exact hreach.untouched hreach' (hh host host' hhs hhs' hmh hmh')

section Exchange

variable {m : Nat} {b' : Books} {p' : Platform} {t t' : TextureAllocator}
  {host host' : HostAllocator}

/-- Another allocator for textures takes the place of the one that was there. -/
theorem Backs.exchange_textures (h : s.Backs others n b p) (hn : n ≤ m) (hfiled : s'.Filed b')
    (hts : s'.textures = some t') (hhs : s'.host = s.host)
    (hkept : t'.Kept (TextureFrames.Backs others) m p') : s'.Backs others m b' p' := by
  obtain ⟨host, hh, hhost⟩ := h.host
  refine ⟨hfiled, ⟨host, hhs.trans hh, ?_⟩, fun t₁ ht₁ => ?_, fun hnone => ?_⟩
  · exact kept_beside (hhost.mono (HostFrames.backing _) hn) rfl
  · cases Option.some.inj (hts.symm.trans ht₁)
    exact hkept
  · cases hts.symm.trans hnone

/-- Another allocator for host memory takes the place of the one that was there. The device is none of
its business. -/
theorem Backs.exchange_host (h : s.Backs others n b p) (hn : n ≤ m) (hfiled : s'.Filed b')
    (hhs : s'.host = some host') (hts : s'.textures = s.textures)
    (hkept : host'.Kept (HostFrames.Backs (· = p.device)) m p') : s'.Backs others m b' p' := by
  have hdevice : p'.device = p.device := hkept.backed.device
  have hlive : ∀ texture ∈ p'.live, texture ∈ p.live := fun texture ht =>
    live_of_device_eq hdevice ▸ ht
  refine ⟨hfiled, ⟨host', hhs, kept_beside hkept rfl⟩, fun t ht => ?_, fun hnone texture ht => ?_⟩
  · have hkept := (h.textures t (hts.symm.trans ht)).mono (TextureFrames.backing _) hn
    exact ⟨hkept.sound, hkept.backed.beside hlive⟩
  · exact h.quiet (hts.symm.trans hnone) texture (hlive texture ht)

/-- Another allocator for textures with the same books takes the place of the one that was there. -/
theorem Backs.with_textures (h : s.Backs others n b p) (hn : n ≤ m) (ht : s.textures = some t)
    (hbooks : t'.books = t.books) (hkept : t'.Kept (TextureFrames.Backs others) m p') :
    Backs others m b { s with textures := some t' } p' := by
  refine h.exchange_textures hn (h.filed.congr (fun kind => ?_) rfl) rfl rfl hkept
  cases kind with
  | video => exact hbooks.trans (part_video ht).symm
  | system => rfl

/-- Another allocator for host memory with the same books takes the place of the one that was there. -/
theorem Backs.with_host (h : s.Backs others n b p) (hn : n ≤ m) (hh : s.host = some host)
    (hbooks : host'.books = host.books)
    (hkept : host'.Kept (HostFrames.Backs (· = p.device)) m p') :
    Backs others m b { s with host := some host' } p' := by
  refine h.exchange_host hn (h.filed.congr (fun kind => ?_) rfl) rfl rfl hkept
  cases kind with
  | video => rfl
  | system => exact hbooks.trans (part_system hh).symm

theorem Backs.untouched_textures (h : s.Backs others n b p) (h' : s'.Backs others m b' p')
    (ht : s.textures = some t) (hts : s'.textures = some t') (hhs : s'.host = s.host)
    (hu : mid ∈ t.books.mids → mid ∈ t'.books.mids → Untouched mid t.store t'.store)
    (hm : mid ∈ (s.part kind).mids) (hm' : mid ∈ (s'.part kind).mids) : Untouched mid s s' := by
  refine h.untouched h' hm hm' (fun t₁ t₂ ht₁ ht₂ hm₁ hm₂ => ?_) fun host₁ host₂ hh₁ hh₂ _ _ => ?_
  · cases Option.some.inj (ht.symm.trans ht₁)
    cases Option.some.inj (hts.symm.trans ht₂)
    exact hu hm₁ hm₂
  · cases Option.some.inj ((hh₁.symm.trans hhs.symm).trans hh₂)
    exact ⟨rfl, rfl⟩

theorem Backs.untouched_host (h : s.Backs others n b p) (h' : s'.Backs others m b' p')
    (hh : s.host = some host) (hhs : s'.host = some host') (hts : s'.textures = s.textures)
    (hu : mid ∈ host.books.mids → mid ∈ host'.books.mids → Untouched mid host.store host'.store)
    (hm : mid ∈ (s.part kind).mids) (hm' : mid ∈ (s'.part kind).mids) : Untouched mid s s' := by
  refine h.untouched h' hm hm' (fun t₁ t₂ ht₁ ht₂ _ _ => ?_) fun host₁ host₂ hh₁ hh₂ hm₁ hm₂ => ?_
  · cases Option.some.inj ((ht₁.symm.trans hts.symm).trans ht₂)
    exact ⟨rfl, rfl⟩
  · cases Option.some.inj (hh.symm.trans hh₁)
    cases Option.some.inj (hhs.symm.trans hh₂)
    exact hu hm₁ hm₂

end Exchange

/-- What is in a book stays there when new frames are entered. -/
theorem mem_part_of_enter {other : MemoryKind} (hpart : s'.part kind = (s.part kind).enter r mids)
    (hrest : ∀ other, other ≠ kind → s'.part other = s.part other)
    (hm : mid ∈ (s.part other).mids) : mid ∈ (s'.part other).mids := by
  by_cases hother : other = kind
  · subst hother
    rw [hpart]
    exact (Books.mids_enter r mids _).symm.subset (List.mem_append_right _ hm)
  · rw [hrest other hother]
    exact hm

/-! ### Allocation -/

theorem Backs.served_textures {t t' : TextureAllocator} {p' : Platform} {response : Response}
    (h : s.Backs others n b p) (ht : s.textures = some t)
    (hbooks : t'.books = t.books.enter r response.mids)
    (hserved : Allocator.Served (TextureFrames.Backs others) n r response t t' p')
    (hlt : n + response.mids.length < hostIdBase) :
    Supplied (Backs others) n b r response.mids s
      ({ s with textures := some t' }.remember response.mids .video) p' := by
  generalize hs' : ({ s with textures := some t' }.remember response.mids .video) = s'
  have hts : s'.textures = some t' := by
    rw [← hs']
    rfl
  have hhs : s'.host = s.host := by
    rw [← hs']
    rfl
  have hpart : s'.part .video = (s.part .video).enter r response.mids := by
    rw [part_video ht, part_video hts, hbooks]
  have hrest := part_of_host_eq hhs
  have hnew : ∀ mid ∈ response.mids, mid ∉ b.mids := fun mid hm hb => by
    obtain ⟨kind, hk⟩ := h.filed.mem_iff.mp hb
    cases kind with
    | video => exact hserved.new mid hm (part_video ht ▸ hk)
    | system =>
      have hmem : mid ∈ t'.books.mids := by
        rw [hbooks]
        exact (Books.mids_enter r _ _).symm.subset (List.mem_append_left _ hm)
      have hle := hserved.kept.backed.le hmem
      have hgt := h.lt_of_system hk
      omega
  have hfiled : s'.Filed (b.enter r response.mids) :=
    h.filed.enter hpart hrest (by rw [← hs']; rfl) hnew
  have hbacks : s'.Backs others (n + response.mids.length) (b.enter r response.mids) p' :=
    h.exchange_textures (Nat.le_add_right _ _) hfiled hts hhs hserved.kept
  refine ⟨hserved.nodup, hnew, hbacks, fun mid hm => ?_⟩
  obtain ⟨kind, hk⟩ := h.filed.mem_iff.mp hm
  exact h.untouched_textures hbacks ht hts hhs (fun hm₁ _ => hserved.untouched mid hm₁) hk
    (mem_part_of_enter hpart hrest hk)

theorem Backs.served_host {host host' : HostAllocator} {p' : Platform} {response : Response}
    (h : s.Backs others n b p) (hh : s.host = some host)
    (hbooks : host'.books = host.books.enter r response.mids)
    (hserved : Allocator.Served (HostFrames.Backs (· = p.device)) n r response host host' p')
    (hlt : n + response.mids.length < hostIdBase) :
    Supplied (Backs others) n b r response.mids s
      ({ s with host := some host' }.remember response.mids .system) p' := by
  generalize hs' : ({ s with host := some host' }.remember response.mids .system) = s'
  have hhs : s'.host = some host' := by
    rw [← hs']
    rfl
  have hts : s'.textures = s.textures := by
    rw [← hs']
    rfl
  have hpart : s'.part .system = (s.part .system).enter r response.mids := by
    rw [part_system hh, part_system hhs, hbooks]
  have hrest := part_of_textures_eq hts
  have hnew : ∀ mid ∈ response.mids, mid ∉ b.mids := fun mid hm hb => by
    obtain ⟨kind, hk⟩ := h.filed.mem_iff.mp hb
    cases kind with
    | system => exact hserved.new mid hm (part_system hh ▸ hk)
    | video =>
      have hmem : mid ∈ host'.books.mids := by
        rw [hbooks]
        exact (Books.mids_enter r _ _).symm.subset (List.mem_append_left _ hm)
      have hle := h.le_of_video hk
      have hgt := hserved.kept.backed.range mid hmem
      omega
  have hfiled : s'.Filed (b.enter r response.mids) :=
    h.filed.enter hpart hrest (by rw [← hs']; rfl) hnew
  have hbacks : s'.Backs others (n + response.mids.length) (b.enter r response.mids) p' :=
    h.exchange_host (Nat.le_add_right _ _) hfiled hhs hts hserved.kept
  refine ⟨hserved.nodup, hnew, hbacks, fun mid hm => ?_⟩
  obtain ⟨kind, hk⟩ := h.filed.mem_iff.mp hm
  exact h.untouched_host hbacks hh hhs hts (fun hm₁ _ => hserved.untouched mid hm₁) hk
    (mem_part_of_enter hpart hrest hk)

theorem Backs.allocate (h : s.Backs others n b p) (hr : b.Unknown r) :
    Yields (s.allocate r p) (Answered (Backs others) n b r s p) := by
  unfold MixedFrames.allocate
  split
  · rename_i t hsome
    have ht : s.textures = some t := by
      split at hsome
      · exact hsome
      · cases hsome
    have hunknown := h.filed.divided.unknown hr
    rw [part_video ht] at hunknown
    refine ((h.textures t ht).allocate (TextureFrames.backing others) r).bind ?_
    rintro ⟨answer, t', p'⟩ ha
    cases answer with
    | error e =>
      obtain ⟨hbooks, hu, hkept⟩ := ha
      exact .pure ⟨h.with_textures (Nat.le_add_right _ _) ht hbooks hkept,
        untouched_with_textures ht hu⟩
    | ok response =>
      rcases ha with ⟨hknown, -⟩ | ⟨hlen, hbooks, hserved⟩
      · exact absurd hunknown hknown
      · exact .pure ⟨hlen, fun hlt => h.served_textures ht hbooks (hserved hlt) hlt⟩
  · obtain ⟨host, hh, hhost⟩ := h.host
    have hunknown := h.filed.divided.symm.unknown hr
    rw [part_system hh] at hunknown
    rw [hh]
    refine (hhost.allocate (HostFrames.backing _) r).bind ?_
    rintro ⟨answer, host', p'⟩ ha
    cases answer with
    | error e =>
      obtain ⟨hbooks, hu, hkept⟩ := ha
      exact .pure ⟨h.with_host (Nat.le_add_right _ _) hh hbooks hkept,
        untouched_with_host hh hu⟩
    | ok response =>
      rcases ha with ⟨hknown, -⟩ | ⟨hlen, hbooks, hserved⟩
      · exact absurd hunknown hknown
      · exact .pure ⟨hlen, fun hlt => h.served_host hh hbooks (hserved hlt) hlt⟩

theorem answers (s : MixedFrames) (p : Platform) (hr : r.Fits) :
    Returns (FrameStore.allocate r s p) fun _ => True := by
  have hall : Returns (s.allocate r p) fun _ => True := by
    unfold MixedFrames.allocate
    split
    · refine (Allocator.allocate_returns ((TextureFrames.backing []).answers _ p hr)).bind ?_
      rintro ⟨answer, t, p'⟩ -
      cases answer with
      | error e => exact .pure trivial
      | ok response => exact .pure trivial
    · split
      · exact .pure trivial
      · refine (Allocator.allocate_returns ((HostFrames.backing (· = p.device)).answers _ p hr)).bind ?_
        rintro ⟨answer, host, p'⟩ -
        cases answer with
        | error e => exact .pure trivial
        | ok response => exact .pure trivial
  exact hall

/-! ### Release -/

theorem mem_part_of_strike {other : MemoryKind} (hpart : s'.part kind = (s.part kind).strike x)
    (hsound : (s.part kind).Sound) (hx : x ∈ (s.part kind).held)
    (hrest : ∀ other, other ≠ kind → s'.part other = s.part other)
    (hm : mid ∈ (s'.part other).mids) : mid ∈ (s.part other).mids := by
  by_cases hother : other = kind
  · subst hother
    rw [hpart] at hm
    exact (hsound.mids_strike hx).symm.subset (List.mem_append_right _ hm)
  · rw [← hrest other hother]
    exact hm

/-- A response goes back to the allocator for textures. -/
theorem Backs.release_textures {t : TextureAllocator} (h : s.Backs others n b p) (hs : b.Sound)
    (ht : s.textures = some t) (hx : x ∈ t.held) :
    ∃ t' p', t.free ⟨0, x.mids⟩ p = (.ok (), t', p') ∧ t'.books = t.books.strike x ∧
      s.release x.mids p = (.ok (), { s with textures := some t' }.forget x.mids, p') ∧
      ({ s with textures := some t' }.forget x.mids).Backs others n (b.strike x) p' ∧
      ∀ mid ∈ (b.strike x).mids, Untouched mid s ({ s with textures := some t' }.forget x.mids) := by
  have hkept := h.textures t ht
  have hpresent := hkept.sound.present x hx
  have hmatches : x.matches ⟨0, x.mids⟩ = true := Response.matches_of_mids hpresent rfl
  obtain ⟨t', p', hfree, hkept', hbooks, -, hothers⟩ :=
    hkept.free (TextureFrames.backing others) hx hmatches
  refine ⟨t', p', hfree, hbooks, ?_, ?_⟩
  · obtain ⟨first, rest, hfirst⟩ := List.exists_cons_of_ne_nil hpresent
    have horigin : s.origin first = .video := by
      refine h.filed.origin ?_
      rw [part_video ht]
      exact Books.mem_mids.mpr ⟨x, hx, hfirst ▸ List.mem_cons_self⟩
    rw [hfirst] at hfree ⊢
    unfold MixedFrames.release
    dsimp only
    rw [horigin, ht]
    dsimp only
    rw [hfree]
  · generalize hs' : { s with textures := some t' }.forget x.mids = s'
    have hts : s'.textures = some t' := by
      rw [← hs']
      rfl
    have hhs : s'.host = s.host := by
      rw [← hs']
      rfl
    have hxp : x ∈ (s.part .video).held := by
      rw [part_video ht]
      exact hx
    have hsound : (s.part .video).Sound := by
      rw [part_video ht]
      exact hkept.sound
    have hpart : s'.part .video = (s.part .video).strike x := by
      rw [part_video ht, part_video hts, hbooks]
    have hrest := part_of_host_eq hhs
    have hfiled : s'.Filed (b.strike x) :=
      h.filed.strike hs hxp hpart hsound hrest (by rw [← hs']; rfl)
    have hbacks : s'.Backs others n (b.strike x) p' :=
      h.exchange_textures (Nat.le_refl n) hfiled hts hhs hkept'
    refine ⟨hbacks, fun mid hm => ?_⟩
    obtain ⟨kind, hk⟩ := hbacks.filed.mem_iff.mp hm
    exact h.untouched_textures hbacks ht hts hhs (fun _ hm₂ => hothers mid (hbooks ▸ hm₂))
      (mem_part_of_strike hpart hsound hxp hrest hk) hk

/-- A response goes back to the allocator for host memory. -/
theorem Backs.release_host {host : HostAllocator} (h : s.Backs others n b p) (hs : b.Sound)
    (hh : s.host = some host) (hx : x ∈ host.held) :
    ∃ host' p', host.free ⟨0, x.mids⟩ p = (.ok (), host', p') ∧
      host'.books = host.books.strike x ∧
      s.release x.mids p = (.ok (), { s with host := some host' }.forget x.mids, p') ∧
      ({ s with host := some host' }.forget x.mids).Backs others n (b.strike x) p' ∧
      ∀ mid ∈ (b.strike x).mids, Untouched mid s ({ s with host := some host' }.forget x.mids) := by
  obtain ⟨host₀, hh₀, hkept⟩ := h.host
  cases Option.some.inj (hh.symm.trans hh₀)
  have hpresent := hkept.sound.present x hx
  have hmatches : x.matches ⟨0, x.mids⟩ = true := Response.matches_of_mids hpresent rfl
  obtain ⟨host', p', hfree, hkept', hbooks, -, hothers⟩ :=
    hkept.free (HostFrames.backing _) hx hmatches
  refine ⟨host', p', hfree, hbooks, ?_, ?_⟩
  · obtain ⟨first, rest, hfirst⟩ := List.exists_cons_of_ne_nil hpresent
    have horigin : s.origin first = .system := by
      refine h.filed.origin ?_
      rw [part_system hh]
      exact Books.mem_mids.mpr ⟨x, hx, hfirst ▸ List.mem_cons_self⟩
    rw [hfirst] at hfree ⊢
    unfold MixedFrames.release
    dsimp only
    rw [horigin, hh]
    dsimp only
    rw [hfree]
  · generalize hs' : { s with host := some host' }.forget x.mids = s'
    have hhs : s'.host = some host' := by
      rw [← hs']
      rfl
    have hts : s'.textures = s.textures := by
      rw [← hs']
      rfl
    have hxp : x ∈ (s.part .system).held := by
      rw [part_system hh]
      exact hx
    have hsound : (s.part .system).Sound := by
      rw [part_system hh]
      exact hkept.sound
    have hpart : s'.part .system = (s.part .system).strike x := by
      rw [part_system hh, part_system hhs, hbooks]
    have hrest := part_of_textures_eq hts
    have hfiled : s'.Filed (b.strike x) :=
      h.filed.strike hs hxp hpart hsound hrest (by rw [← hs']; rfl)
    have hbacks : s'.Backs others n (b.strike x) p' :=
      h.exchange_host (Nat.le_refl n) hfiled hhs hts hkept'
    refine ⟨hbacks, fun mid hm => ?_⟩
    obtain ⟨kind, hk⟩ := hbacks.filed.mem_iff.mp hm
    exact h.untouched_host hbacks hh hhs hts (fun _ hm₂ => hothers mid (hbooks ▸ hm₂))
      (mem_part_of_strike hpart hsound hxp hrest hk) hk

theorem Backs.release (h : s.Backs others n b p) (hs : b.Sound) (hx : x ∈ b.held) :
    ∃ s' p', s.release x.mids p = (.ok (), s', p') ∧ s'.Backs others n (b.strike x) p' ∧
      (∀ mid ∈ x.mids, Gone mid s') ∧ ∀ mid ∈ (b.strike x).mids, Untouched mid s s' := by
  have hleft : ∀ mid ∈ x.mids, mid ∉ (b.strike x).mids := fun mid hm => hs.not_mem_strike hx hm
  obtain ⟨kind, hk⟩ := h.filed.mem_held_iff.mp hx
  cases kind with
  | video =>
    cases ht : s.textures with
    | none =>
      unfold part at hk
      rw [ht] at hk
      cases hk
    | some t =>
      rw [part_video ht] at hk
      obtain ⟨t', p', -, -, hrelease, hbacks, hothers⟩ := h.release_textures hs ht hk
      exact ⟨_, p', hrelease, hbacks, fun mid hm => hbacks.gone (hleft mid hm), hothers⟩
  | system =>
    obtain ⟨host, hh, -⟩ := h.host
    rw [part_system hh] at hk
    obtain ⟨host', p', -, -, hrelease, hbacks, hothers⟩ := h.release_host hs hh hk
    exact ⟨_, p', hrelease, hbacks, fun mid hm => hbacks.gone (hleft mid hm), hothers⟩

/-! ### Closing -/

theorem part_blank (h : s.Filed .blank) (kind : MemoryKind) : s.part kind = .blank := by
  obtain ⟨hv, hh⟩ := h.divided.eq_blank
  cases kind with
  | video => exact hv
  | system => exact hh

theorem Backs.close (h : s.Backs others n .blank p) :
    ∃ s' p', s.close p = (.ok (), s', p') ∧ s'.Backs others n .blank p' ∧ s'.origins = {} := by
  have htextures : ∃ s₁ p₁, s.closeTextures p = (.ok (), s₁, p₁) ∧
      s₁.Backs others n .blank p₁ := by
    unfold closeTextures
    cases ht : s.textures with
    | none => exact ⟨s, p, rfl, h⟩
    | some t =>
      obtain ⟨t', p', hclose, hkept, hbooks⟩ := (h.textures t ht).close (TextureFrames.backing _)
      have hblank : t.books = .blank := part_video ht ▸ part_blank h.filed .video
      dsimp only
      rw [hclose]
      exact ⟨_, p', rfl, h.with_textures (Nat.le_refl n) ht (hbooks.trans hblank.symm) hkept⟩
  obtain ⟨s₁, p₁, hclose₁, h₁⟩ := htextures
  obtain ⟨host, hh, hhost⟩ := h₁.host
  obtain ⟨host', p₂, hclose₂, hkept, hbooks⟩ := hhost.close (HostFrames.backing _)
  have hblank : host.books = .blank := part_system hh ▸ part_blank h₁.filed .system
  have h₂ := h₁.with_host (Nat.le_refl n) hh (hbooks.trans hblank.symm) hkept
  have hall : s.close p = (.ok (), { s₁ with host := some host', origins := {} }, p₂) := by
    unfold MixedFrames.close
    rw [hclose₁]
    dsimp only
    unfold closeHost
    rw [hh]
    dsimp only
    rw [hclose₂]
  refine ⟨_, p₂, hall, ⟨⟨h₂.filed.divided, fun k kind => ?_⟩, h₂.host, h₂.textures, h₂.quiet⟩, rfl⟩
  have hnone : part kind { s₁ with host := some host', origins := {} } = .blank :=
    part_blank h₂.filed kind
  rw [hnone]
  exact iff_of_false (by simp) nofun

/-- Without responses nothing is left, in either kind of memory. -/
theorem Backs.vacant (h : s.Backs others n .blank p) :
    s.Vacant ∧ ∀ texture ∈ p.live, texture ∈ others := by
  have hpart := fun kind => part_blank h.filed kind
  have hblank : ∀ (β : Type) (a : Allocator β), a.books = .blank → a.held = [] := fun β a ha =>
    congrArg Books.held ha
  obtain ⟨host, hh, hkept⟩ := h.host
  refine ⟨⟨fun t ht => ?_, fun host' hh' => ?_⟩, ?_⟩
  · have hbooks := part_video ht ▸ hpart .video
    have hbacked := (h.textures t ht).backed
    rw [hbooks] at hbacked
    exact ⟨hblank _ t hbooks, hbacked.resources_of_blank⟩
  · cases Option.some.inj (hh.symm.trans hh')
    have hbooks := part_system hh ▸ hpart .system
    have hbacked := hkept.backed
    rw [hbooks] at hbacked
    exact ⟨hblank _ host hbooks, hbacked.stocks⟩
  · cases ht : s.textures with
    | none => exact h.quiet ht
    | some t =>
      have hbooks := part_video ht ▸ hpart .video
      have hbacked := (h.textures t ht).backed
      rw [hbooks] at hbacked
      exact fun texture hlive => hbacked.live_of_blank hlive

theorem Backs.fill (h : s.Backs others n b p) (mid : MemId) (start stop : Nat) (value : UInt8) :
    Yields (s.fill mid start stop value) fun s' => s'.Backs others n b p := by
  unfold MixedFrames.fill
  split
  · rename_i host _ hh
    obtain ⟨host₀, hh₀, hkept⟩ := h.host
    cases Option.some.inj (hh.symm.trans hh₀)
    refine (hkept.fill (HostFrames.backing _) mid start stop value).bind ?_
    rintro host' ⟨hkept', hbooks⟩
    exact .pure (h.with_host (Nat.le_refl n) hh hbooks hkept')
  · exact .ok h

theorem Backs.mono {m : Nat} (h : s.Backs others n b p) (hm : n ≤ m) : s.Backs others m b p := by
  obtain ⟨host, hh, hkept⟩ := h.host
  exact ⟨h.filed, ⟨host, hh, hkept.mono (HostFrames.backing _) hm⟩,
    fun t ht => (h.textures t ht).mono (TextureFrames.backing _) hm, h.quiet⟩

theorem backing (others : List TextureHandle) : Backing MixedFrames (Backs others) where
  mono := fun hn h => h.mono hn
  allocate := fun h _ hr _ => h.allocate hr
  answers := answers
  release := fun h hs hx => h.release hs hx
  fill := fun mid start stop value h => h.fill mid start stop value
  close := fun h => by
    obtain ⟨s', p', hclose, hbacks, -⟩ := h.close
    exact ⟨s', p', hclose, hbacks⟩

theorem backs_init (settings : Option TextureSettings) (p : Platform) :
    Backs p.live 0 .blank (init settings {}) p := by
  have hpart : ∀ kind, (init settings {}).part kind = .blank := fun kind => by
    cases settings <;> cases kind <;> rfl
  refine ⟨⟨?_, fun k kind => ?_⟩, ⟨⟨{}, [], []⟩, ?_, ?_⟩, fun t ht => ?_, fun _ _ ht => ht⟩
  · rw [hpart, hpart]
    exact ⟨.refl _, .refl _⟩
  · rw [hpart]
    refine iff_of_false ?_ nofun
    cases settings <;> simp [init]
  · cases settings <;> rfl
  · exact ⟨Books.sound_blank, HostFrames.backs_blank 0 rfl⟩
  · cases settings with
    | none => cases ht
    | some settings =>
      cases ht
      exact ⟨Books.sound_blank, TextureFrames.backs_blank _ 0 p⟩

end MixedFrames

end Multiview
