import Mathlib.Data.List.Nodup
import Multiview.Engine.Resources
import Multiview.Proofs.Memory.Allocation

/-!
What is written in frames. A frame that was allocated in host memory can be mapped, with its luma
plane inside of its buffer; filling the plane leaves one value there and touches no other frame.
-/

namespace Multiview

open Outcome

/-! ## Buffers -/

theorem HostBuffer.fill_sound (b : HostBuffer) (start stop : Nat) (value : UInt8) :
    Sound (b.fill start stop value) fun b' =>
      b'.size = b.size ∧ ∀ i, start ≤ i → i < stop → b'.byteAt i = value := by
  unfold fill
  split
  · refine .ok ⟨rfl, fun i hi hj => ?_⟩
    have hin : (decide (start ≤ i) && decide (i < stop)) = true := by simp [hi, hj]
    simp only [byteAt, List.find?_cons, hin]
  · exact .error nofun

theorem HostLayout.chromaOffset_le_size (l : HostLayout) : l.chromaOffset ≤ l.size :=
  Nat.le_add_right _ _

/-! ## Views of frames -/

/-- Ways to look at the frames of an allocator. -/
abbrev Views := MemId → Except AllocError FrameView

/-- The frame can be mapped, and its luma plane is inside of its buffer. -/
def Views.Maps (views : Views) (mid : MemId) : Prop :=
  ∃ v, views mid = .ok v ∧ v.offsets.2 ≤ v.buffer.size

/-- The luma plane of the frame holds nothing but one value. -/
def Views.Shows (views : Views) (mid : MemId) (value : UInt8) : Prop :=
  ∃ v, views mid = .ok v ∧ v.offsets.2 ≤ v.buffer.size ∧
    ∀ i, v.offsets.1 ≤ i → i < v.offsets.2 → v.buffer.byteAt i = value

/-- A range of one frame was filled. -/
structure Views.Filled (mid : MemId) (start stop : Nat) (value : UInt8) (views views' : Views) :
    Prop where
  others : ∀ mid', mid' ≠ mid → views' mid' = views mid'
  itself : ∀ v, views mid = .ok v → ∃ b, views' mid = .ok { v with buffer := b } ∧
    b.size = v.buffer.size ∧ ∀ i, start ≤ i → i < stop → b.byteAt i = value

namespace Views.Filled

variable {mid : MemId} {start stop : Nat} {value : UInt8} {views views' : Views}

theorem maps (h : Filled mid start stop value views views') {mid' : MemId}
    (hm : views.Maps mid') : views'.Maps mid' := by
  obtain ⟨v, hv, hle⟩ := hm
  by_cases heq : mid' = mid
  · subst heq
    obtain ⟨b, hb, hsize, _⟩ := h.itself v hv
    exact ⟨_, hb, hsize ▸ hle⟩
  · exact ⟨v, (h.others mid' heq).trans hv, hle⟩

theorem shows_of_ne (h : Filled mid start stop value views views') {mid' : MemId} {value' : UInt8}
    (hne : mid' ≠ mid) (hs : views.Shows mid' value') : views'.Shows mid' value' := by
  obtain ⟨v, hv, hrest⟩ := hs
  exact ⟨v, (h.others mid' hne).trans hv, hrest⟩

end Views.Filled

theorem HostFrames.fill_sound (mid : MemId) (start stop : Nat) (value : UInt8) (s : HostFrames) :
    Sound (s.fill mid start stop value) fun s' =>
      Views.Filled mid start stop value (fun m => s.view m) fun m => s'.view m := by
  unfold fill
  split
  · rename_i hnone
    refine .ok ⟨fun _ _ => rfl, fun v hv => ?_⟩
    simp [view, hnone] at hv
  · rename_i f hsome
    refine (f.buffer.fill_sound start stop value).bind ?_
    intro b ⟨hsize, hbytes⟩
    refine Sound.pure ⟨?_, ?_⟩
    · intro mid' hne
      have hval : mid.value ≠ mid'.value := fun he => hne (congrArg MemId.mk he.symm)
      simp [view, Std.TreeMap.getElem?_insert, hval]
    · intro v hv
      simp only [view, hsome] at hv
      cases hv
      exact ⟨b, by simp [view], hsize, hbytes⟩

/-- An allocator fills frames like the store below it. -/
theorem Allocator.fill_sound {β : Type} [FrameStore β] {mid : MemId} {start stop : Nat}
    {value : UInt8} {a : Allocator β}
    (h : Sound (FrameStore.fill mid start stop value a.store) fun s =>
      Views.Filled mid start stop value (fun m => FrameStore.view m a.store)
        fun m => FrameStore.view m s) :
    Sound (a.fill mid start stop value) fun a' =>
      Views.Filled mid start stop value (fun m => a.view m) fun m => a'.view m :=
  h.bind fun _ hs => Sound.pure hs

/-- Only frames in host memory are ever filled, and no others can be mapped. -/
theorem MixedFrames.fill_sound (mid : MemId) (start stop : Nat) (value : UInt8) (s : MixedFrames) :
    Sound (s.fill mid start stop value) fun s' =>
      Views.Filled mid start stop value (fun m => FrameStore.view m s)
        fun m => FrameStore.view m s' := by
  have hview : ∀ (s : MixedFrames) (m : MemId), (FrameStore.view m s : Except AllocError FrameView) =
      s.ask m (·.view m) (·.view m) := fun _ _ => rfl
  unfold fill
  split
  · rename_i host horigin hhost
    have hfill := Allocator.fill_sound (host.store.fill_sound mid start stop value)
    refine hfill.bind ?_
    intro host' ⟨hothers, hitself⟩
    refine Sound.pure ⟨?_, ?_⟩
    · intro mid' hne
      simp only [hview, ask, origin, hhost]
      split
      · rfl
      · exact hothers mid' hne
    · intro v hv
      simp only [hview, ask, horigin, hhost] at hv
      obtain ⟨b, hb, hrest⟩ := hitself v hv
      refine ⟨b, ?_, hrest⟩
      have horigin' : origin mid { s with host := some host' } = .system := horigin
      simp only [hview, ask, horigin']
      exact hb
  · rename_i hnot
    refine .ok ⟨fun _ _ => rfl, fun v hv => ?_⟩
    simp only [hview, ask] at hv
    split at hv
    · split at hv
      · cases hv
      · cases hv
    · rename_i horigin
      split at hv
      · cases hv
      · rename_i host hhost
        exact absurd hhost (hnot host horigin)

/-! ## Allocation -/

theorem getElem?_foldl_insert {α : Type} (mids : List MemId) (x : α) (m : Std.TreeMap Nat α)
    (k : Nat) :
    (mids.foldl (fun m mid => m.insert mid.value x) m)[k]? =
      if k ∈ mids.map (·.value) then some x else m[k]? := by
  induction mids generalizing m with
  | nil => simp
  | cons mid mids ih =>
    rw [List.foldl_cons, ih, Std.TreeMap.getElem?_insert]
    by_cases hk : k ∈ mids.map (·.value)
    · have hk' : k ∈ (mid :: mids).map (·.value) := List.mem_cons_of_mem _ hk
      rw [if_pos hk, if_pos hk']
    · by_cases he : mid.value = k
      · simp [he, hk]
      · have hk' : k ∉ (mid :: mids).map (·.value) := by
          simp only [List.map_cons, List.mem_cons, not_or]
          exact ⟨Ne.symm he, hk⟩
        rw [if_neg hk, if_neg hk']
        simp [he]

theorem getElem?_foldl_erase {α : Type} (mids : List MemId) (m : Std.TreeMap Nat α) (k : Nat) :
    (mids.foldl (fun m mid => m.erase mid.value) m)[k]? =
      if k ∈ mids.map (·.value) then none else m[k]? := by
  induction mids generalizing m with
  | nil => simp
  | cons mid mids ih =>
    rw [List.foldl_cons, ih, Std.TreeMap.getElem?_erase]
    by_cases hk : k ∈ mids.map (·.value)
    · have hk' : k ∈ (mid :: mids).map (·.value) := List.mem_cons_of_mem _ hk
      rw [if_pos hk, if_pos hk']
    · rw [if_neg hk]
      by_cases he : mid.value = k
      · simp [he]
      · have hk' : k ∉ (mid :: mids).map (·.value) := by
          simp only [List.map_cons, List.mem_cons, not_or]
          exact ⟨Ne.symm he, hk⟩
        rw [if_neg hk']
        simp [he]

/-- Identifiers of `n` frames, one after another. -/
def Consecutive (n : Nat) (mids : List MemId) : Prop :=
  ∃ start, mids = (List.range' start n).map MemId.mk

theorem Consecutive.nodup {n : Nat} {mids : List MemId} (h : Consecutive n mids) : mids.Nodup := by
  obtain ⟨start, rfl⟩ := h
  exact (List.nodup_range' ..).map fun _ _ h => congrArg MemId.value h

theorem Consecutive.length {n : Nat} {mids : List MemId} (h : Consecutive n mids) :
    mids.length = n := by
  obtain ⟨start, rfl⟩ := h
  rw [List.length_map, List.length_range']

theorem mem_consecutive {start n : Nat} {mid : MemId} :
    mid ∈ (List.range' start n).map MemId.mk ↔ start ≤ mid.value ∧ mid.value < start + n := by
  refine List.mem_map.trans ⟨?_, fun h => ⟨mid.value, List.mem_range'_1.mpr h, rfl⟩⟩
  rintro ⟨k, hk, rfl⟩
  exact List.mem_range'_1.mp hk

/-- An allocator that holds nothing takes frames from its store. -/
theorem Allocator.allocate_fresh {β : Type} [FrameStore β] {a : Allocator β} (h : a.external = [])
    (r : Request) (p : Platform) {q : List MemId → β → Prop}
    (hs : Sound (FrameStore.allocate r a.store p) fun x => ∀ mids, x.1 = .ok mids → q mids x.2.1) :
    Sound (a.allocate r p) fun x =>
      ∀ response, x.1 = .ok response → q response.mids x.2.1.store := by
  rcases allocate_split r a p with ⟨e, heq⟩ | ⟨x, hx, -, -⟩ | ⟨-, -, heq⟩
  · rw [heq]
    exact .ok nofun
  · rw [h] at hx
    cases hx
  · rw [heq]
    refine .map (hs.mono fun x hx response hresponse => ?_)
    rw [takeOver_store]
    exact hx _ (takeOver_eq_ok hresponse)

/-! ### Blocks of host memory -/

/-- Of the blocks asked for from now on, the one in place `i` can be had, if it has `size` bytes. -/
def HostMemory.Grants (size i : Nat) (m : HostMemory) : Prop :=
  max size 1 ≤ HostBuffer.largest ∧ m.grants (m.requests + i) (max size 1)

theorem HostMemory.grants_asked {size i : Nat} {m : HostMemory} :
    (m.asked 1).Grants size i ↔ m.Grants size (i + 1) := by
  unfold Grants asked
  rw [Nat.add_assoc, Nat.add_comm 1 i]

theorem Platform.asked_asked (n : Nat) (p : Platform) : (p.asked 1).asked n = p.asked (n + 1) := by
  unfold asked HostMemory.asked
  dsimp only
  rw [Nat.add_assoc, Nat.add_comm 1 n]

theorem Platform.allocateBuffer_granted {size : Nat} {p : Platform} (h : p.memory.Grants size 0) :
    p.allocateBuffer size = (.ok ⟨max size 1, []⟩, p.asked 1) :=
  congrArg (Prod.mk · (p.asked 1)) (if_pos h)

theorem Platform.allocateBuffer_refused {size : Nat} {p : Platform}
    (h : ¬ p.memory.Grants size 0) : p.allocateBuffer size = (.error .memory, p.asked 1) :=
  congrArg (Prod.mk · (p.asked 1)) (if_neg h)

/-- The frame is laid out for `info`, in a buffer of its own. -/
structure HostFrame.LaidFor (info : FrameInfo) (f : HostFrame) : Prop where
  layout : f.layout = HostLayout.ofInfo info
  size : f.buffer.size = max f.layout.size 1
  limit : f.buffer.size < wordLimit

namespace HostFrames

/-- The identifiers of the next `n` frames. -/
def nextIds (s : HostFrames) (n : Nat) : List MemId :=
  (List.range' (hostIdBase + s.issued + 1) n).map MemId.mk

/-- The store with frames like `f` under the next identifiers. -/
def stocked (f : HostFrame) (mids : List MemId) (s : HostFrames) : HostFrames :=
  ⟨mids.foldl (fun m mid => m.insert mid.value f) s.frames, s.issued + mids.length⟩

theorem length_nextIds (s : HostFrames) (n : Nat) : (s.nextIds n).length = n := by
  rw [nextIds, List.length_map, List.length_range']

theorem nextIds_succ (f : HostFrame) (s : HostFrames) (n : Nat) :
    s.nextIds (n + 1) = s.nextId :: (s.add f).nextIds n := rfl

theorem stocked_nextIds_succ (f : HostFrame) (s : HostFrames) (n : Nat) :
    s.stocked f (s.nextIds (n + 1)) = (s.add f).stocked f ((s.add f).nextIds n) := by
  unfold stocked
  rw [length_nextIds, length_nextIds, nextIds_succ f, List.foldl_cons]
  unfold add
  dsimp only
  rw [Nat.add_assoc, Nat.add_comm 1 n]

/-- Frames are made one after another, up to the first one that there is no block for. -/
theorem takeFrames_cases (layout : HostLayout) (size n : Nat) (made : List MemId) (s : HostFrames)
    (p : Platform) :
    (∀ i < n, p.memory.Grants size i) ∧ takeFrames layout size n made s p =
      (.ok (made.reverse ++ s.nextIds n), s.stocked ⟨layout, ⟨max size 1, []⟩⟩ (s.nextIds n),
        p.asked n) ∨
    ∃ k < n, (∀ i < k, p.memory.Grants size i) ∧ ¬ p.memory.Grants size k ∧
      takeFrames layout size n made s p = (.error .memory,
        (s.stocked ⟨layout, ⟨max size 1, []⟩⟩ (s.nextIds k)).release (made.reverse ++ s.nextIds k),
        p.asked (k + 1)) := by
  induction n generalizing made s p with
  | zero =>
    refine .inl ⟨nofun, ?_⟩
    rw [takeFrames, nextIds, List.range'_zero, List.map_nil, List.append_nil]
    rfl
  | succ n ih =>
    by_cases hfirst : p.memory.Grants size 0
    · have hstep : takeFrames layout size (n + 1) made s p = takeFrames layout size n
          (s.nextId :: made) (s.add ⟨layout, ⟨max size 1, []⟩⟩) (p.asked 1) := by
        rw [takeFrames, Platform.allocateBuffer_granted hfirst]
      have hgrants : ∀ k, (∀ i < k, (p.asked 1).memory.Grants size i) →
          ∀ i < k + 1, p.memory.Grants size i := by
        rintro k hk (_ | i) hi
        · exact hfirst
        · exact HostMemory.grants_asked.mp (hk i (Nat.lt_of_succ_lt_succ hi))
      have hmids : ∀ k, (s.nextId :: made).reverse ++
          (s.add ⟨layout, ⟨max size 1, []⟩⟩).nextIds k = made.reverse ++ s.nextIds (k + 1) := by
        intro k
        rw [List.reverse_cons, List.append_assoc, List.singleton_append,
          nextIds_succ ⟨layout, ⟨max size 1, []⟩⟩]
      rw [hstep]
      rcases ih (s.nextId :: made) (s.add ⟨layout, ⟨max size 1, []⟩⟩) (p.asked 1) with
        ⟨hall, heq⟩ | ⟨k, hk, hall, hnot, heq⟩
      · refine .inl ⟨hgrants n hall, ?_⟩
        rw [heq, hmids, ← stocked_nextIds_succ, Platform.asked_asked]
      · refine .inr ⟨k + 1, Nat.succ_lt_succ hk, hgrants k hall,
          fun h => hnot (HostMemory.grants_asked.mpr h), ?_⟩
        rw [heq, hmids, ← stocked_nextIds_succ, Platform.asked_asked]
    · refine .inr ⟨0, Nat.succ_pos n, nofun, hfirst, ?_⟩
      rw [takeFrames, Platform.allocateBuffer_refused hfirst, nextIds, List.range'_zero,
        List.map_nil, List.append_nil]
      rfl

theorem getElem?_release (mids : List MemId) (s : HostFrames) (m : Nat) :
    (s.release mids).frames[m]? = if m ∈ mids.map (·.value) then none else s.frames[m]? :=
  getElem?_foldl_erase mids s.frames m

/-- A store that has made `k` frames for a request and given them up. -/
structure Lapsed (k : Nat) (s s' : HostFrames) : Prop where
  issued : s'.issued = s.issued + k
  frames : ∀ m, s'.frames[m]? = if m ∈ (s.nextIds k).map (·.value) then none else s.frames[m]?

theorem lapsed_self (s : HostFrames) : s.Lapsed 0 s := ⟨rfl, fun _ => (if_neg nofun).symm⟩

theorem getElem?_stocked (f : HostFrame) (mids : List MemId) (s : HostFrames) (k : Nat) :
    (s.stocked f mids).frames[k]? = if k ∈ mids.map (·.value) then some f else s.frames[k]? :=
  getElem?_foldl_insert mids f s.frames k

/-- The frames made are given up again. -/
theorem lapsed_stocked (f : HostFrame) (k : Nat) (s : HostFrames) :
    s.Lapsed k ((s.stocked f (s.nextIds k)).release (s.nextIds k)) where
  issued := congrArg (s.issued + ·) (s.length_nextIds k)
  frames m := by
    rw [getElem?_release, getElem?_stocked]
    split
    · rfl
    · rfl

/-- A request is refused, or served with frames that are laid out for it. -/
theorem allocate_cases (r : Request) (s : HostFrames) (p : Platform) :
    Sound (s.allocate r p) fun x =>
      (∃ e n s', s.Lapsed (n - 1) s' ∧ x = (.error e, s', p.asked n)) ∨
      ∃ f : HostFrame, f.LaidFor r.info ∧ x = (.ok (s.nextIds r.suggested.toNat),
        s.stocked f (s.nextIds r.suggested.toNat), p.asked r.suggested.toNat) := by
  unfold allocate
  split
  · exact .ok (.inl ⟨_, 0, s, s.lapsed_self, rfl⟩)
  · refine (below_sound _ _).itself.bind fun size hsize => .pure ?_
    obtain ⟨hlt, rfl⟩ := below_eq_ok_iff.mp hsize.2
    rcases takeFrames_cases (HostLayout.ofInfo r.info) (HostLayout.ofInfo r.info).size
      r.suggested.toNat [] s p with ⟨-, heq⟩ | ⟨k, -, -, -, heq⟩
    · exact .inr ⟨_, ⟨rfl, rfl, Nat.max_lt.mpr ⟨hlt, by decide⟩⟩, heq⟩
    · exact .inl ⟨_, k + 1, _, lapsed_stocked _ k s, heq⟩

theorem view_stocked {mids : List MemId} {mid : MemId} (hm : mid ∈ mids) (f : HostFrame)
    (s : HostFrames) :
    (s.stocked f mids).view mid =
      .ok ⟨f.layout.pitch, (0, f.layout.chromaOffset), f.buffer⟩ := by
  unfold view
  rw [getElem?_stocked, if_pos (List.mem_map_of_mem hm)]

theorem allocate_sound (r : Request) (s : HostFrames) (p : Platform) :
    Sound (s.allocate r p) fun x => ∀ mids, x.1 = .ok mids → Consecutive r.suggested.toNat mids ∧
      ∀ mid ∈ mids, Views.Maps (fun m => x.2.1.view m) mid := by
  refine (s.allocate_cases r p).mono ?_
  rintro x (⟨e, n, s', -, rfl⟩ | ⟨f, hf, rfl⟩) mids hm
  · cases hm
  · cases hm
    refine ⟨⟨_, rfl⟩, fun mid hmem => ?_⟩
    have hfit : f.layout.chromaOffset ≤ f.buffer.size := by
      rw [hf.size]
      exact Nat.le_trans f.layout.chromaOffset_le_size (Nat.le_max_left _ _)
    exact ⟨⟨f.layout.pitch, (0, f.layout.chromaOffset), f.buffer⟩, view_stocked hmem f s, hfit⟩

end HostFrames

theorem TextureFrames.allocate_consecutive (r : Request) (s : TextureFrames) (p : Platform)
    (mids : List MemId) (h : (s.allocate r p).1 = .ok mids) :
    Consecutive r.suggested.toNat mids := by
  unfold allocate at h
  split at h
  · cases h
  · split at h
    · cases h
    · dsimp only at h
      split at h
      · cases h
      · cases h
        exact ⟨_, rfl⟩

/-- Frames known to be in host memory are those of the allocator there. -/
theorem MixedFrames.maps_remember {mids : List MemId} {mid : MemId} (hmem : mid ∈ mids)
    {host : HostAllocator} (s : MixedFrames) (h : Views.Maps (fun m => host.view m) mid) :
    Views.Maps (fun m => FrameStore.view m
      (remember mids .system { s with host := some host })) mid := by
  have horigin : origin mid (remember mids .system { s with host := some host }) = .system := by
    unfold origin remember
    rw [getElem?_foldl_insert, if_pos (List.mem_map_of_mem hmem)]
    rfl
  obtain ⟨v, hv, hle⟩ := h
  refine ⟨v, ?_, hle⟩
  change ask mid _ _ _ = _
  unfold ask
  rw [horigin]
  exact hv

theorem MixedFrames.allocate_sound (settings : Option TextureSettings) (r : Request)
    (p : Platform) :
    Sound (MixedFrames.allocate r (MixedFrames.init settings {}) p) fun x =>
      ∀ mids, x.1 = .ok mids → Consecutive r.suggested.toNat mids ∧
        (settings = none → ∀ mid ∈ mids, Views.Maps (fun m => FrameStore.view m x.2.1) mid) := by
  unfold allocate
  split
  · rename_i textures ht
    have hfresh : textures.external = [] ∧ settings ≠ none := by
      cases settings with
      | none =>
        split at ht
        · cases ht
        · cases ht
      | some settings =>
        split at ht
        · cases ht
          exact ⟨rfl, nofun⟩
        · cases ht
    have hall : Sound (FrameStore.allocate r textures.store p) fun x =>
        ∀ mids, x.1 = .ok mids → Consecutive r.suggested.toNat mids :=
      .ok (TextureFrames.allocate_consecutive r textures.store p)
    refine (Allocator.allocate_fresh hfresh.1 r p
      (q := fun mids _ => Consecutive r.suggested.toNat mids) hall).bind ?_
    rintro ⟨answer, textures', p'⟩ hq
    cases answer with
    | error e => exact .ok nofun
    | ok response =>
      refine Sound.pure fun mids hm => ?_
      cases hm
      exact ⟨hq response rfl, fun h => absurd h hfresh.2⟩
  · split
    · exact .ok nofun
    · rename_i host hh
      have hfresh : host.external = [] := by
        cases settings with
        | none =>
          cases hh
          rfl
        | some settings =>
          cases hh
          rfl
      have hmaps : Sound (FrameStore.allocate r host.store p) fun x => ∀ mids, x.1 = .ok mids →
          Consecutive r.suggested.toNat mids ∧ ∀ mid ∈ mids, Views.Maps (fun m => x.2.1.view m) mid :=
        host.store.allocate_sound r p
      refine (Allocator.allocate_fresh hfresh r p (q := fun mids store =>
        Consecutive r.suggested.toNat mids ∧
          ∀ mid ∈ mids, Views.Maps (fun m => store.view m) mid) hmaps).bind ?_
      rintro ⟨answer, host', p'⟩ hq
      cases answer with
      | error e => exact .ok nofun
      | ok response =>
        refine Sound.pure fun mids hm => ?_
        cases hm
        obtain ⟨hall, hmaps⟩ := hq response rfl
        exact ⟨hall, fun _ mid hmem => maps_remember hmem _ (hmaps mid hmem)⟩

/-- The frames of a new allocator are numbered one after another, and those in host memory can be
mapped. -/
theorem MixedAllocator.allocate_sound (settings : Option TextureSettings) (r : Request)
    (p : Platform) :
    Sound ((MixedAllocator.empty.init settings).allocate r p) fun x =>
      ∀ response, x.1 = .ok response → Consecutive r.suggested.toNat response.mids ∧
        (settings = none → ∀ mid ∈ response.mids, Views.Maps (fun m => x.2.1.view m) mid) :=
  Allocator.allocate_fresh rfl r p (q := fun mids store => Consecutive r.suggested.toNat mids ∧
    (settings = none → ∀ mid ∈ mids, Views.Maps (fun m => FrameStore.view m store) mid))
    (MixedFrames.allocate_sound settings r p)

/-! ## Frames of the engine -/

/-- The same allocators, of which some frames may have been filled. -/
inductive Refilled : List MixedAllocator → List MixedAllocator → Prop
  | refl (as : List MixedAllocator) : Refilled as as
  | fill {as bs : List MixedAllocator} {id : AllocatorId} {a a' : MixedAllocator} {mid : MemId}
      {start stop : Nat} {value : UInt8} (h : Refilled as bs) (ha : bs[id]? = some a)
      (hf : a.fill mid start stop value = .ok a') : Refilled as (bs.set id a')

theorem Refilled.of_eq {as bs : List MixedAllocator} (h : bs = as) : Refilled as bs := by
  subst h
  exact .refl bs

theorem Refilled.trans {as bs cs : List MixedAllocator} (h : Refilled as bs)
    (h' : Refilled bs cs) : Refilled as cs := by
  induction h' with
  | refl => exact h
  | fill _ ha hf ih => exact .fill ih ha hf

/-- The luma plane of one frame of an allocator was filled, if there is an allocator. -/
structure Painted (allocator : Option AllocatorId) (mid : MemId) (value : UInt8)
    (r r' : Resources) : Prop where
  length : r'.allocators.length = r.allocators.length
  others : ∀ id, allocator ≠ some id → r'.allocators[id]? = r.allocators[id]?
  itself : ∀ id a, allocator = some id → r.allocators[id]? = some a →
    ∃ a', r'.allocators[id]? = some a' ∧
      (∀ mid', Views.Maps (fun m => a.view m) mid' → Views.Maps (fun m => a'.view m) mid') ∧
      (∀ mid' v, mid' ≠ mid → Views.Shows (fun m => a.view m) mid' v →
        Views.Shows (fun m => a'.view m) mid' v) ∧
      (Views.Maps (fun m => a.view m) mid → Views.Shows (fun m => a'.view m) mid value)
  refilled : Refilled r.allocators r'.allocators

/-- Nothing has to be filled without an allocator, or without a frame that can be mapped. -/
theorem Painted.of_eq {allocator : Option AllocatorId} {mid : MemId} {value : UInt8}
    {r r' : Resources} (ha : r'.allocators = r.allocators)
    (hm : ∀ id a, allocator = some id → r.allocators[id]? = some a →
      ¬ Views.Maps (fun m => a.view m) mid) :
    Painted allocator mid value r r' where
  length := by rw [ha]
  others := fun _ _ => by rw [ha]
  itself := fun id a hid hget =>
    ⟨a, by rw [ha, hget], fun _ h => h, fun _ _ _ h => h, fun h => absurd h (hm id a hid hget)⟩
  refilled := .of_eq ha

/-- Only the allocators count. -/
theorem Painted.of_allocators {allocator : Option AllocatorId} {mid : MemId} {value : UInt8}
    {r r' r₀ : Resources} (h : Painted allocator mid value r r')
    (he : r.allocators = r₀.allocators) : Painted allocator mid value r₀ r' where
  length := he ▸ h.length
  others := he ▸ h.others
  itself := he ▸ h.itself
  refilled := he ▸ h.refilled

/-- Every frame that the engine did not write to stays as it is, and the other one shows what was
written. -/
theorem Painted.view {allocator : Option AllocatorId} {mid : MemId} {value : UInt8}
    {r r' : Resources} (h : Painted allocator mid value r r') {id : AllocatorId}
    {a : MixedAllocator} (ha : r.allocators[id]? = some a) :
    ∃ a', r'.allocators[id]? = some a' ∧
      (∀ mid', Views.Maps (fun m => a.view m) mid' → Views.Maps (fun m => a'.view m) mid') ∧
      (∀ mid' v, (allocator = some id → mid' ≠ mid) → Views.Shows (fun m => a.view m) mid' v →
        Views.Shows (fun m => a'.view m) mid' v) ∧
      (allocator = some id → Views.Maps (fun m => a.view m) mid →
        Views.Shows (fun m => a'.view m) mid value) := by
  by_cases hid : allocator = some id
  · obtain ⟨a', ha', hmaps, hothers, hitself⟩ := h.itself id a hid ha
    exact ⟨a', ha', hmaps, fun mid' v hne => hothers mid' v (hne hid), fun _ => hitself⟩
  · exact ⟨a, (h.others id hid).trans ha, fun _ hm => hm, fun _ _ _ hs => hs,
      fun he => absurd he hid⟩

theorem Resources.fillLuma_sound (id : AllocatorId) (mid : MemId) (value : UInt8) (r : Resources) :
    Sound (r.fillLuma id mid value) fun r' =>
      r'.locks = r.locks ∧ Painted (some id) mid value r r' := by
  unfold fillLuma
  split
  · rename_i hnone
    refine .ok ⟨rfl, .of_eq rfl fun id' a hid ha => ?_⟩
    cases hid
    rw [hnone] at ha
    cases ha
  · rename_i a ha
    split
    · rename_i e he
      refine .ok ⟨rfl, .of_eq rfl ?_⟩
      rintro id' a' hid ha' ⟨v, hv, _⟩
      cases hid
      rw [ha] at ha'
      cases ha'
      dsimp only at hv
      rw [he] at hv
      cases hv
    · rename_i v hv
      have hfill := Allocator.fill_sound (a.store.fill_sound mid v.offsets.1
        (min v.offsets.2 v.buffer.size) value)
      refine hfill.itself.bind ?_
      intro a' ⟨hfilled, hresult⟩
      have hlt : id < r.allocators.length := (List.getElem?_eq_some_iff.mp ha).1
      refine Sound.pure ⟨rfl, ?_, ?_, ?_, .fill (.refl _) ha hresult⟩
      · simp [setAllocator]
      · intro id' hne
        have hne : id ≠ id' := fun he => hne (congrArg some he)
        simp [setAllocator, hne]
      · intro id' a₀ hid ha₀
        cases hid
        rw [ha] at ha₀
        cases ha₀
        refine ⟨a', by simp [setAllocator, hlt], fun _ h => hfilled.maps h,
          fun _ _ hne h => hfilled.shows_of_ne hne h, ?_⟩
        rintro ⟨w, hw, hle⟩
        dsimp only at hw
        rw [hv] at hw
        cases hw
        obtain ⟨b, hb, hsize, hbytes⟩ := hfilled.itself v hv
        refine ⟨_, hb, hsize ▸ hle, fun i hi hj => hbytes i hi ?_⟩
        rw [Nat.min_eq_left hle]
        exact hj

end Multiview
