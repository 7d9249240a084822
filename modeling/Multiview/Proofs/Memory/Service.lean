import Multiview.Proofs.Memory.Division

/-!
Allocators in use. However an allocator is called, and wherever the device or the memory of the host
refuses, its books stay sound as long as identifiers last. So responses are told apart, each of them can
be freed once and takes only its own frames along, and a request that is refused changes no response and
no frame. An allocator for either kind of memory agrees with the two that it hands requests to.
-/

namespace Multiview

open Outcome Platform

inductive AllocatorCall where
  | allocate (r : Request)
  | free (given : Response)
  | view (mid : MemId)
  | endView (mid : MemId)
  | handle (mid : MemId)
  | fill (mid : MemId) (start stop : Nat) (value : UInt8)
  | close

/-- An allocator beside a device. -/
structure Service (β : Type) where
  allocator : Allocator β
  platform : Platform
  /-- Frames made so far, with those that were given up as their request was refused. -/
  issued : Nat := 0

namespace Service

variable {β : Type} [FrameStore β]

def perform (call : AllocatorCall) (s : Service β) : Outcome (Service β) :=
  match call with
  | .allocate r => do
    let (answer, a, p) ← s.allocator.allocate r s.platform
    let made := match answer with
      | .ok _ => a.books.mids.length - s.allocator.books.mids.length
      | .error _ => s.platform.wasted p
    return ⟨a, p, s.issued + made⟩
  | .free given =>
    let (_, a, p) := s.allocator.free given s.platform
    .ok { s with allocator := a, platform := p }
  | .view _ | .endView _ | .handle _ => .ok s
  | .fill mid start stop value => do
    let a ← s.allocator.fill mid start stop value
    return { s with allocator := a }
  | .close =>
    let (_, a, p) := s.allocator.close s.platform
    .ok { s with allocator := a, platform := p }

def run (calls : List AllocatorCall) (s : Service β) : Outcome (Service β) :=
  calls.foldlM (fun s call => s.perform call) s

/-- The books are sound, unless identifiers have run out. -/
def Sound (backs : Nat → Books → β → Platform → Prop) (s : Service β) : Prop :=
  s.issued < hostIdBase → s.allocator.Kept backs s.issued s.platform

variable {backs : Nat → Books → β → Platform → Prop} {s : Service β}

theorem Sound.free (h : s.Sound backs) (hb : Backing β backs) (given : Response)
    (hlt : s.issued < hostIdBase) :
    (s.allocator.free given s.platform).2.1.Kept backs s.issued
      (s.allocator.free given s.platform).2.2 := by
  have hkept := h hlt
  by_cases hm : ∃ x ∈ s.allocator.held, x.matches given = true
  · obtain ⟨x, hx, hxg⟩ := hm
    obtain ⟨a', p', hfree, hkept', -⟩ := hkept.free hb hx hxg
    rw [hfree]
    exact hkept'
  · rw [Allocator.free_of_not_matches fun x hx hxg => hm ⟨x, hx, hxg⟩]
    exact hkept

theorem Sound.close (h : s.Sound backs) (hb : Backing β backs) (hlt : s.issued < hostIdBase) :
    (s.allocator.close s.platform).2.1.Kept backs s.issued
      (s.allocator.close s.platform).2.2 := by
  obtain ⟨a', p', hclose, hkept, -⟩ := (h hlt).close hb
  rw [hclose]
  exact hkept

theorem Sound.allocate (h : s.Sound backs) (hb : Backing β backs) (r : Request) :
    Yields (s.perform (.allocate r)) (Sound backs) := by
  by_cases hlt : s.issued < hostIdBase
  · refine ((h hlt).allocate hb r).bind ?_
    rintro ⟨answer, a, p⟩ ha
    refine .pure fun hlt' => ?_
    cases answer with
    | error e => exact ha.2.2
    | ok response =>
      rcases ha with ⟨-, -, rfl, rfl⟩ | ⟨-, hbooks, hserved⟩
      · exact (h hlt).mono hb (Nat.le_add_right _ _)
      · have hgain : a.books.mids.length - s.allocator.books.mids.length =
            response.mids.length := by
          have hperm := Books.mids_enter r response.mids s.allocator.books
          have hbooks : a.books = _ := hbooks
          rw [hbooks, hperm.length_eq, List.length_append, Nat.add_sub_cancel]
        dsimp only at hlt' ⊢
        rw [hgain] at hlt' ⊢
        exact (hserved hlt').kept
  · refine Yields.bind (p := fun _ => True) (fun _ _ => trivial) ?_
    rintro ⟨answer, a, p⟩ -
    exact .pure fun hlt' => absurd (Nat.lt_of_le_of_lt (Nat.le_add_right _ _) hlt') hlt

/-- One call leaves the books sound. -/
theorem Sound.perform (h : s.Sound backs) (hb : Backing β backs) (call : AllocatorCall) :
    Yields (s.perform call) (Sound backs) := by
  cases call with
  | allocate r => exact h.allocate hb r
  | free given => exact .ok fun hlt => h.free hb given hlt
  | view mid => exact .ok h
  | endView mid => exact .ok h
  | handle mid => exact .ok h
  | fill mid start stop value =>
    have hfill : Yields (s.allocator.fill mid start stop value) fun a =>
        s.issued < hostIdBase → a.Kept backs s.issued s.platform :=
      fun a ha hlt => ((h hlt).fill hb mid start stop value a ha).1
    exact hfill.bind fun a ha => .pure ha
  | close => exact .ok fun hlt => h.close hb hlt

/-- So does any number of calls. -/
theorem Sound.run (h : s.Sound backs) (hb : Backing β backs) (calls : List AllocatorCall) :
    Yields (s.run calls) (Sound backs) :=
  Yields.foldlM (fun _ call hs => hs.perform hb call) h

end Service

/-! ## Every kind of allocator -/

/-- Responses are told apart, by their requesters and by their frames. A requester that comes back gets
the frames it has, if they are enough. A response can be freed, and takes its own frames along. A request
that is refused leaves all responses and all frames as they are. -/
structure Bookkept {β : Type} [FrameStore β] (a : Allocator β) (p : Platform) : Prop where
  requesters : (a.external.map (·.allocId)).Nodup
  present : ∀ x ∈ a.held, x.mids ≠ []
  apart : (a.held.flatMap (·.mids)).Nodup
  repeated : ∀ r, ∀ x ∈ a.external, FrameStore.accepts β r = true → r.suggested ≠ 0 →
    r.isExternal = true → x.allocId = r.allocId →
    a.allocate r p =
      .ok (if x.mids.length < r.suggested.toNat then .error .memory else .ok x, a, p)
  answered : ∀ r, r.Fits → ∃ y, a.allocate r p = .ok y
  refused : ∀ r e a' p', a.allocate r p = .ok (.error e, a', p') →
    a'.external = a.external ∧ a'.oneShot = a.oneShot ∧ ∀ mid, Untouched mid a.store a'.store
  itself : ∀ x ∈ a.held, x.matches x = true
  freed : ∀ x ∈ a.held, ∀ given, x.matches given = true → ∃ a' p',
    a.free given p = (.ok (), a', p') ∧ a'.held = a.held.erase x ∧
      (∀ mid ∈ x.mids, Gone mid a'.store) ∧
      ∀ mid ∈ a'.held.flatMap (·.mids), Untouched mid a.store a'.store
  unknown : ∀ given e a' p', a.free given p = (.error e, a', p') → a' = a ∧ p' = p

namespace Allocator

variable {β : Type} [FrameStore β] {backs : Nat → Books → β → Platform → Prop} {n : Nat}
  {a : Allocator β} {p : Platform} {x : Response} {r : Request}

/-- A requester that has frames is not handed any others. -/
theorem allocate_of_mem (h : a.books.Sound) (hx : x ∈ a.external)
    (ha : FrameStore.accepts β r = true) (hs : r.suggested ≠ 0) (hr : r.isExternal = true)
    (hid : x.allocId = r.allocId) :
    a.allocate r p =
      .ok (if x.mids.length < r.suggested.toNat then .error .memory else .ok x, a, p) := by
  have hfind : a.heldFor r.allocId = some x := by
    refine find?_of_unique hx (by simpa using hid) fun y hy hyid => ?_
    refine List.inj_on_of_nodup_map h.requesters hy hx ?_
    exact (by simpa using hyid : y.allocId = r.allocId).trans hid.symm
  unfold allocate
  rw [if_neg hs, ha, if_pos hr, hfind]
  by_cases hlt : x.mids.length < r.suggested.toNat
  · simp [hlt]
  · simp [hlt]

theorem Kept.bookkept (h : a.Kept backs n p) (hb : Backing β backs) : Bookkept a p where
  requesters := h.sound.requesters
  present := h.sound.present
  apart := h.sound.apart
  repeated := fun r x hx ha hs hr hid => allocate_of_mem h.sound hx ha hs hr hid
  answered := fun r hr => by
    obtain ⟨y, hy, -⟩ := allocate_returns (hb.answers a.store p hr)
    exact ⟨y, hy⟩
  refused := by
    intro r e a' p' ha
    obtain ⟨hbooks, hu, -⟩ := h.allocate hb r _ ha
    exact ⟨congrArg Books.external hbooks, congrArg Books.oneShot hbooks, hu⟩
  itself := fun x hx => Response.matches_of_mids (h.sound.present x hx) rfl
  freed := by
    intro x hx given hm
    obtain ⟨a', p', hfree, -, hbooks, hgone, hothers⟩ := h.free hb hx hm
    have hheld : a'.held = a.held.erase x :=
      (congrArg Books.held hbooks).trans (held_erase h.sound x)
    refine ⟨a', p', hfree, hheld, hgone, fun mid hmid => hothers mid ?_⟩
    rw [hheld, ← held_erase h.sound x] at hmid
    exact hmid
  unknown := by
    intro given e a' p' hfree
    by_cases hm : ∃ x ∈ a.held, x.matches given = true
    · obtain ⟨x, hx, hxg⟩ := hm
      obtain ⟨b, q, hok, -⟩ := h.free hb hx hxg
      cases hfree.symm.trans hok
    · rw [free_of_not_matches fun x hx hxg => hm ⟨x, hx, hxg⟩] at hfree
      cases hfree
      exact ⟨rfl, rfl⟩

end Allocator

namespace Service

/-- A new allocator for host memory. -/
def onHost (p : Platform) : Service HostFrames := ⟨⟨{}, [], []⟩, p, 0⟩

/-- A new allocator for textures. -/
def inTextures (settings : Option TextureSettings) (p : Platform) : Service TextureFrames :=
  ⟨⟨(TextureFrames.init settings {}).2, [], []⟩, p, 0⟩

/-- A new allocator for either kind of memory. -/
def inEither (settings : Option TextureSettings) (p : Platform) : Service MixedFrames :=
  ⟨MixedAllocator.empty.init settings, p, 0⟩

variable (settings : Option TextureSettings) (p : Platform)

theorem sound_onHost : (onHost p).Sound (HostFrames.Backs fun _ => True) :=
  fun _ => ⟨Books.sound_blank, HostFrames.backs_blank 0 trivial⟩

theorem sound_inTextures : (inTextures settings p).Sound (TextureFrames.Backs p.live) := by
  intro _
  cases settings with
  | none => exact ⟨Books.sound_blank, TextureFrames.backs_blank none 0 p⟩
  | some settings => exact ⟨Books.sound_blank, TextureFrames.backs_blank (some settings) 0 p⟩

theorem sound_inEither : (inEither settings p).Sound (MixedFrames.Backs p.live) :=
  fun _ => ⟨Books.sound_blank, MixedFrames.backs_init settings p⟩

def smallFrame : FrameInfo := { fourcc := .nv12, width := 16, height := 16 }

/-- Two requesters and three requests without one. The first of these is served and freed in the end. -/
def mixedCalls : List AllocatorCall :=
  [.allocate ⟨7, smallFrame, .union (.union .externalFrame .fromDecode) .decoderTarget, 1, 2⟩,
    .allocate ⟨0, smallFrame, .union .fromDecode .systemMemory, 1, 1⟩,
    .allocate ⟨0, smallFrame, .union .fromDecode .decoderTarget, 1, 2⟩,
    .allocate ⟨0, smallFrame, .union .fromDecode .systemMemory, 1, 2⟩,
    .allocate ⟨8, smallFrame, .union (.union .externalFrame .fromDecode) .systemMemory, 1, 3⟩,
    .allocate ⟨7, smallFrame, .union (.union .externalFrame .fromDecode) .decoderTarget, 1, 1⟩,
    .free ⟨0, [⟨hostIdBase + 1⟩]⟩]

/-- The device has room for one texture. The third block of host memory is refused, when there is one for
the first frame of the request already. -/
def mixedRun : Outcome (Service MixedFrames) :=
  (inEither (some ⟨true⟩)
    { device := some (.counting (some 1)), memory := ⟨fun n _ => n ≠ 2, 0⟩ }).run mixedCalls

theorem mixedRun_held : ∃ s, mixedRun = .ok s ∧ s.issued = 7 ∧
    s.allocator.held = [⟨7, [⟨1⟩, ⟨2⟩]⟩,
      ⟨8, [⟨hostIdBase + 3⟩, ⟨hostIdBase + 4⟩, ⟨hostIdBase + 5⟩]⟩] := by
  have hrun : mixedRun.toOption.map (fun s => (s.issued, s.allocator.held)) =
      some (7, [⟨7, [⟨1⟩, ⟨2⟩]⟩,
        ⟨8, [⟨hostIdBase + 3⟩, ⟨hostIdBase + 4⟩, ⟨hostIdBase + 5⟩]⟩]) := by decide +kernel
  cases hs : mixedRun with
  | error fault =>
    rw [hs] at hrun
    cases hrun
  | ok s =>
    rw [hs] at hrun
    obtain ⟨hissued, hheld⟩ := Prod.mk.inj (Option.some.inj hrun)
    exact ⟨s, rfl, hissued, hheld⟩

/-- However an allocator is used, its responses are kept apart, freed one by one, and not touched by
requests that are refused. -/
theorem run_bookkept (calls : List AllocatorCall) :
    Yields ((onHost p).run calls) (fun s =>
      s.issued < hostIdBase → Bookkept s.allocator s.platform) ∧
    Yields ((inTextures settings p).run calls) (fun s =>
      s.issued < hostIdBase → Bookkept s.allocator s.platform) ∧
    Yields ((inEither settings p).run calls) (fun s =>
      s.issued < hostIdBase → Bookkept s.allocator s.platform) := by
  have hhost := HostFrames.backing fun _ => True
  have htextures := TextureFrames.backing p.live
  have hmixed := MixedFrames.backing p.live
  refine ⟨?_, ?_, ?_⟩
  · exact ((sound_onHost p).run hhost calls).mono fun s hs hlt => (hs hlt).bookkept hhost
  · exact ((sound_inTextures settings p).run htextures calls).mono fun s hs hlt =>
      (hs hlt).bookkept htextures
  · exact ((sound_inEither settings p).run hmixed calls).mono fun s hs hlt =>
      (hs hlt).bookkept hmixed

/-- Two responses are left, of which one is in textures. -/
theorem mixedRun_bookkept : ∃ s, mixedRun = .ok s ∧ s.allocator.held.length = 2 ∧
    s.issued < hostIdBase ∧ Bookkept s.allocator s.platform := by
  obtain ⟨s, hs, hissued, hheld⟩ := mixedRun_held
  have hlt : s.issued < hostIdBase := by
    rw [hissued]
    decide
  exact ⟨s, hs, by rw [hheld]; rfl, hlt, (run_bookkept _ _ mixedCalls).2.2 s hs hlt⟩

end Service

/-! ## The allocator for either kind of memory -/

/-- The response `x` is held by the allocator `inner` too. That one is asked about its frames, and has
them back when the response is freed. `put` tells where `inner` is in the store. -/
structure Delegates {β : Type} [FrameStore β] (x : Response) (inner : Allocator β)
    (put : Allocator β → MixedFrames) (a : MixedAllocator) (p : Platform) : Prop where
  held : x ∈ inner.held
  reached : ∀ mid ∈ x.mids, a.store.Reaches mid inner
  freed : ∀ given, x.matches given = true → ∃ a' inner' p',
    a.free given p = (.ok (), a', p') ∧ inner.free ⟨0, x.mids⟩ p = (.ok (), inner', p') ∧
      a'.store = (put inner').forget x.mids ∧
      a'.held = a.held.erase x ∧ inner'.held = inner.held.erase x

/-- The responses are those of the allocators for textures and for host memory, no frame is in both, and
the table of origins tells for exactly their frames which of the two has it. Nothing is left once all of
them are closed, not even a texture that was not there before. -/
structure Concordant (others : List TextureHandle) (a : MixedAllocator) (p : Platform) : Prop where
  divided : a.held.Perm ((a.store.part .video).held ++ (a.store.part .system).held)
  apart : (a.held.flatMap (·.mids)).Nodup
  origins : ∀ k kind,
    a.store.origins[k]? = some kind ↔ k ∈ (a.store.part kind).mids.map (·.value)
  low : ∀ mid ∈ (a.store.part .video).mids, mid.value < hostIdBase
  high : ∀ mid ∈ (a.store.part .system).mids, hostIdBase ≤ mid.value
  itself : ∀ x ∈ a.held, x.matches x = true
  textures : ∀ x ∈ (a.store.part .video).held, ∃ t, a.store.textures = some t ∧
    Delegates x t (fun t' => { a.store with textures := some t' }) a p
  host : ∀ x ∈ (a.store.part .system).held, ∃ host, a.store.host = some host ∧
    Delegates x host (fun host' => { a.store with host := some host' }) a p
  close : ∃ (a' : MixedAllocator) (p' : Platform), a.close p = (.ok (), a', p') ∧ a'.Vacant ∧
    a'.store.origins = {} ∧ ∀ texture ∈ p'.live, texture ∈ others

namespace MixedAllocator

variable {others : List TextureHandle} {n : Nat} {a : MixedAllocator} {p : Platform}
  {x given : Response}

theorem free_eq {s : MixedFrames} {p' : Platform} (h : a.books.Sound) (hx : x ∈ a.held)
    (hm : x.matches given = true) (hrelease : a.store.release x.mids p = (.ok (), s, p')) :
    ∃ a', a.free given p = (.ok (), a', p') ∧ a'.store = s ∧ a'.held = a.held.erase x := by
  have hrelease : FrameStore.release x.mids a.store p = (.ok (), s, p') := hrelease
  rw [Allocator.free_of_matches h hx hm, hrelease]
  exact ⟨_, rfl, rfl, Allocator.held_erase h x⟩

theorem delegates_textures (h : a.Kept (MixedFrames.Backs others) n p)
    (hx : x ∈ (a.store.part .video).held) :
    ∃ t, a.store.textures = some t ∧
      Delegates x t (fun t' => { a.store with textures := some t' }) a p := by
  have hheld : x ∈ a.held := h.backed.filed.mem_held_iff.mpr ⟨.video, hx⟩
  cases ht : a.store.textures with
  | none =>
    unfold MixedFrames.part at hx
    rw [ht] at hx
    cases hx
  | some t =>
    have hxt : x ∈ t.books.held := MixedFrames.part_video ht ▸ hx
    refine ⟨t, rfl, hxt, fun mid hm => ?_, fun given hg => ?_⟩
    · have horigin := h.backed.filed.origin (Books.mem_mids.mpr ⟨x, hx, hm⟩)
      exact MixedFrames.reaches_textures ht horigin
    · obtain ⟨t', p', hfree, hbooks, hrelease, -⟩ := h.backed.release_textures h.sound ht hxt
      obtain ⟨a', hfree', hstore, hrest⟩ := free_eq h.sound hheld hg hrelease
      refine ⟨a', t', p', hfree', hfree, hstore, hrest, ?_⟩
      exact (congrArg Books.held hbooks).trans
        (Allocator.held_erase (h.backed.textures t ht).sound x)

theorem delegates_host (h : a.Kept (MixedFrames.Backs others) n p)
    (hx : x ∈ (a.store.part .system).held) :
    ∃ host, a.store.host = some host ∧
      Delegates x host (fun host' => { a.store with host := some host' }) a p := by
  have hheld : x ∈ a.held := h.backed.filed.mem_held_iff.mpr ⟨.system, hx⟩
  obtain ⟨host, hh, hkept⟩ := h.backed.host
  have hxh : x ∈ host.books.held := MixedFrames.part_system hh ▸ hx
  refine ⟨host, hh, hxh, fun mid hm => ?_, fun given hg => ?_⟩
  · have horigin := h.backed.filed.origin (Books.mem_mids.mpr ⟨x, hx, hm⟩)
    exact MixedFrames.reaches_host hh horigin
  · obtain ⟨host', p', hfree, hbooks, hrelease, -⟩ := h.backed.release_host h.sound hh hxh
    obtain ⟨a', hfree', hstore, hrest⟩ := free_eq h.sound hheld hg hrelease
    refine ⟨a', host', p', hfree', hfree, hstore, hrest, ?_⟩
    exact (congrArg Books.held hbooks).trans (Allocator.held_erase hkept.sound x)

theorem close_vacant (h : a.Kept (MixedFrames.Backs others) n p) :
    ∃ (a' : MixedAllocator) (p' : Platform), a.close p = (.ok (), a', p') ∧ a'.Vacant ∧
      a'.store.origins = {} ∧ ∀ texture ∈ p'.live, texture ∈ others := by
  obtain ⟨s₁, p₁, hall, hbacks₁⟩ :=
    Allocator.releaseAll_ok (MixedFrames.backing others) h.sound h.backed (.refl a.books.held)
  obtain ⟨s₂, p₂, hclose, hbacks₂, horigins⟩ := hbacks₁.close
  have hclose : FrameStore.close s₁ p₁ = (.ok (), s₂, p₂) := hclose
  have hall : Allocator.releaseAll (a.external ++ a.oneShot) (.ok ()) a.store p =
      (.ok (), s₁, p₁) := hall
  refine ⟨⟨s₂, [], []⟩, p₂, ?_, ⟨rfl, hbacks₂.vacant.1⟩, horigins, hbacks₂.vacant.2⟩
  unfold Allocator.close
  rw [hall]
  dsimp only
  rw [hclose]

theorem concordant (h : a.Kept (MixedFrames.Backs others) n p) (hlt : n < hostIdBase) :
    Concordant others a p where
  divided := h.backed.filed.divided.held
  apart := h.sound.apart
  origins := h.backed.filed.origins
  low := fun _ hm => Nat.lt_of_le_of_lt (h.backed.le_of_video hm) hlt
  high := fun _ hm => Nat.le_of_lt (h.backed.lt_of_system hm)
  itself := fun x hx => Response.matches_of_mids (h.sound.present x hx) rfl
  textures := fun _ hx => delegates_textures h hx
  host := fun _ hx => delegates_host h hx
  close := close_vacant h

end MixedAllocator

namespace Service

variable (settings : Option TextureSettings) (p : Platform)

/-- However an allocator for either kind of memory is used, it agrees with the allocators below it. -/
theorem run_concordant (calls : List AllocatorCall) :
    Yields ((inEither settings p).run calls) fun s =>
      s.issued < hostIdBase → Concordant p.live s.allocator s.platform :=
  ((sound_inEither settings p).run (MixedFrames.backing p.live) calls).mono fun _ hs hlt =>
    MixedAllocator.concordant (hs hlt) hlt

theorem mixedRun_concordant : ∃ s, mixedRun = .ok s ∧ s.allocator.held.length = 2 ∧
    s.issued < hostIdBase ∧ Concordant [] s.allocator s.platform := by
  obtain ⟨s, hs, hissued, hheld⟩ := mixedRun_held
  have hlt : s.issued < hostIdBase := by
    rw [hissued]
    decide
  exact ⟨s, hs, by rw [hheld]; rfl, hlt, run_concordant _ _ mixedCalls s hs hlt⟩

end Service

end Multiview
