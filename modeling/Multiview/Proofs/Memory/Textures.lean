import Multiview.Proofs.Memory.Correspondence

/-!
An allocator of textures in use. It may be made ready for either way of placing frames as often as one
likes, and the device may refuse at any time. In whatever state it gets, identifiers, resources and
textures correspond, and closing it leaves nothing alive.
-/

namespace Multiview

open Outcome

inductive TextureCall where
  | init (settings : Option TextureSettings)
  | allocate (r : Request)
  | free (given : Response)
  | close

/-- An allocator of textures beside a device. -/
structure TextureUse where
  allocator : TextureAllocator := ⟨{}, [], []⟩
  platform : Platform
  /-- Identifiers in answers since the table of owners was empty. -/
  issued : List MemId := []

namespace TextureUse

/-- The identifiers of a response. -/
def answered : Except AllocError Response → List MemId
  | .ok response => response.mids
  | .error _ => []

/-- What a call leaves behind, with the identifiers that it answered with. -/
def after (u : TextureUse) (mids : List MemId) (a : TextureAllocator) (p : Platform) : TextureUse :=
  ⟨a, p, if a.store.owners.isEmpty then [] else u.issued ++ mids⟩

def perform (call : TextureCall) (u : TextureUse) : Outcome TextureUse :=
  match call with
  | .init settings =>
    let (_, store) := TextureFrames.init settings u.allocator.store
    .ok { u with allocator := { u.allocator with store := store } }
  | .allocate r => do
    let (answer, a, p) ← u.allocator.allocate r u.platform
    return u.after (answered answer) a p
  | .free given =>
    let (_, a, p) := u.allocator.free given u.platform
    .ok (u.after [] a p)
  | .close =>
    let (_, a, p) := u.allocator.close u.platform
    .ok (u.after [] a p)

def run (calls : List TextureCall) (u : TextureUse) : Outcome TextureUse :=
  calls.foldlM (fun u call => u.perform call) u

/-- A new allocator that nobody has made ready. -/
def start (d : TextureDevice) : TextureUse := { platform := { device := some d } }

end TextureUse

/-- Identifiers, resources and textures of an allocator correspond. -/
structure Corresponds (a : TextureAllocator) (p : Platform) (issued : List MemId) : Prop where
  /-- What is alive are the textures of the allocated resources, each of them once. -/
  alive : p.live.Perm ((a.store.resources.filter (·.allocated)).flatMap (·.textures))
  nodup : p.live.Nodup
  /-- The table of owners tells which resource has an identifier. -/
  owners : ∀ mid ∈ issued, 1 ≤ mid.value ∧ ∃ i y, a.store.owners[mid.value - 1]? = some i ∧
    a.store.resources[i]? = some y ∧ mid ∈ y.mids ∧
    ∀ j z, a.store.resources[j]? = some z → mid ∈ z.mids → j = i
  /-- The frames that are held, and no others, are found on the device. -/
  found : ∀ mid, (∃ x, a.handle mid = .ok x) ↔ mid ∈ a.held.flatMap (·.mids)
  placed : ∀ mid x, a.handle mid = .ok x → x.texture ∈ p.live ∧
    ∃ desc, p.desc? x.texture = some desc ∧ x.slice < desc.slices
  apart : ∀ mid mid' x, a.handle mid = .ok x → a.handle mid' = .ok x → mid = mid'
  /-- At all times a texture was released as often as it was created, or once less. -/
  balanced : ∀ texture earlier, earlier <:+ p.journal →
    releases texture earlier ≤ creations texture earlier ∧
      creations texture earlier ≤ releases texture earlier + 1
  closes : ∃ a' p', a.close p = (.ok (), a', p') ∧ p'.live = [] ∧
    ∀ texture, creations texture p'.journal = releases texture p'.journal

namespace TextureUse

/-- The store matches the books, and the table of owners reaches up to the latest identifier. -/
structure Matched (u : TextureUse) : Prop where
  kept : u.allocator.Kept (fun _ b s p => s.Matches b p) 0 u.platform
  issued : ∀ mid ∈ u.issued, 1 ≤ mid.value ∧ mid.value ≤ u.allocator.store.owners.size

variable {u : TextureUse} {a : TextureAllocator} {p : Platform}

theorem Matched.after (h : u.Matched) (ha : a.Kept (fun _ b s p => s.Matches b p) 0 p)
    (hold : a.store.owners = #[] ∨ u.allocator.store.owners.size ≤ a.store.owners.size)
    {mids : List MemId} (hmids : ∀ mid ∈ mids, mid ∈ a.books.mids) : (u.after mids a p).Matched where
  kept := ha
  issued := by
    intro mid hm
    change mid ∈ (if a.store.owners.isEmpty then [] else u.issued ++ mids) at hm
    change 1 ≤ mid.value ∧ mid.value ≤ a.store.owners.size
    split at hm
    · cases hm
    · rename_i hsome
      rcases List.mem_append.mp hm with hm | hm
      · have hbound := h.issued mid hm
        have hgrown := hold.resolve_left (by simpa using hsome)
        omega
      · obtain ⟨n, hbacks⟩ := ha.backed.backs
        exact hbacks.bounds (hmids mid hm)

theorem owners_allocate (r : Request) (s : TextureFrames) (p : Platform) :
    s.owners.size ≤ (s.allocate r p).2.1.owners.size := by
  rcases TextureFrames.allocate_cases r s p with ⟨e, heq⟩ | ⟨single, made, p', -, heq⟩
  · simp [heq]
  · rw [heq]
    cases made with
    | none => exact Nat.le_refl _
    | some textures => simp [TextureFrames.size_owners_added]

theorem owners_release (mids : List MemId) (s : TextureFrames) (p : Platform) :
    (s.release mids p).2.1.owners = #[] ∨
      s.owners.size ≤ (s.release mids p).2.1.owners.size := by
  unfold TextureFrames.release TextureFrames.tidy
  grind

theorem Matched.init (h : u.Matched) (settings : Option TextureSettings) :
    Returns (u.perform (.init settings)) Matched := by
  have howners : (TextureFrames.init settings u.allocator.store).2.owners =
      u.allocator.store.owners := by
    cases settings <;> rfl
  refine .ok ⟨⟨h.kept.sound, h.kept.backed.init settings⟩, ?_⟩
  intro mid hm
  change 1 ≤ mid.value ∧
    mid.value ≤ (TextureFrames.init settings u.allocator.store).2.owners.size
  rw [howners]
  exact h.issued mid hm

theorem Matched.allocate (h : u.Matched) (r : Request) :
    Returns (u.perform (.allocate r)) Matched := by
  have hreturns : Returns (u.allocator.allocate r u.platform) fun _ => True :=
    Allocator.allocate_returns (.ok trivial)
  have hhandled := h.kept.allocate TextureFrames.backing_matches r
  have hgrown := Allocator.allocate_store (r := r) (p := u.platform) (a := u.allocator)
    (q := fun s : TextureFrames => u.allocator.store.owners.size ≤ s.owners.size)
    (Nat.le_refl _) (.ok (owners_allocate r _ _))
  apply ((hreturns.and hhandled).and hgrown).bind
  rintro ⟨answer, a, p⟩ ⟨⟨-, ha⟩, hsize⟩
  apply Returns.pure
  cases answer with
  | error e =>
    obtain ⟨-, -, hkept⟩ := ha
    exact h.after ⟨hkept.sound, hkept.backed⟩ (.inr hsize) (by simp [answered])
  | ok response =>
    rcases ha with ⟨-, hmem, rfl, rfl⟩ | ⟨hlen, hbooks, hserved⟩
    · apply h.after h.kept (.inr hsize)
      intro mid hm
      exact Books.mem_mids.mpr ⟨response, List.mem_append_left _ hmem, hm⟩
    · have hfew : 0 + response.mids.length < hostIdBase := by
        have hword := r.suggested.toNat_lt
        have hbase : 2 ^ 16 ≤ hostIdBase := by decide
        omega
      have hkept := (hserved hfew).kept
      apply h.after ⟨hkept.sound, hkept.backed⟩ (.inr hsize)
      intro mid hm
      have hbooks : a.books = _ := hbooks
      rw [hbooks]
      exact (Books.mids_enter _ _ _).symm.subset (List.mem_append_left _ hm)

theorem Matched.free (h : u.Matched) (given : Response) :
    Returns (u.perform (.free given)) Matched := by
  have hsound : Service.Sound (fun _ b s p => TextureFrames.Matches b s p)
      ⟨u.allocator, u.platform, 0⟩ := fun _ => h.kept
  have hkept := hsound.free TextureFrames.backing_matches given (show 0 < hostIdBase by decide)
  have howners : (u.allocator.free given u.platform).2.1.store.owners = #[] ∨
      u.allocator.store.owners.size ≤
        (u.allocator.free given u.platform).2.1.store.owners.size :=
    Allocator.free_store
      (q := fun s : TextureFrames => s.owners = #[] ∨ u.allocator.store.owners.size ≤ s.owners.size)
      (.inr (Nat.le_refl _)) fun mids => owners_release mids _ _
  exact .ok (h.after hkept howners (by simp))

theorem Matched.close (h : u.Matched) : Returns (u.perform .close) Matched := by
  obtain ⟨a, p, hclose, hkept, hblank⟩ := h.kept.close TextureFrames.backing_matches
  have hnone : a.store.owners.size = 0 := by
    have hbacked := hkept.backed
    rw [hblank] at hbacked
    exact hbacked.owners_of_blank
  simp only [perform, hclose]
  exact .ok (h.after hkept (.inl (Array.size_eq_zero_iff.mp hnone)) (by simp))

/-- Every call is answered, and leaves the store matching the books. -/
theorem Matched.perform (h : u.Matched) (call : TextureCall) :
    Returns (u.perform call) Matched := by
  cases call with
  | init settings => exact h.init settings
  | allocate r => exact h.allocate r
  | free given => exact h.free given
  | close => exact h.close

theorem Matched.run (h : u.Matched) (calls : List TextureCall) : Returns (u.run calls) Matched := by
  induction calls generalizing u with
  | nil => exact .ok h
  | cons call calls ih => exact (h.perform call).bind fun u' hu' => ih hu'

theorem Matched.corresponds (h : u.Matched) : Corresponds u.allocator u.platform u.issued := by
  have hmatches := h.kept.backed
  obtain ⟨n, hbacks⟩ := hmatches.backs
  constructor
  · rw [TextureFrames.flatMap_textures_allocated hbacks.dry]
    exact hmatches.alive
  · exact hmatches.sane.nodup
  · intro mid hm
    obtain ⟨hlow, hhigh⟩ := h.issued mid hm
    exact ⟨hlow, hmatches.exists_owner hlow hhigh⟩
  · intro mid
    exact hmatches.handle_iff
  · intro mid x hx
    exact hmatches.handle_slice hx
  · intro mid mid' x hx hx'
    exact hmatches.handle_inj hx hx'
  · exact hmatches.sane.balanced
  · obtain ⟨a, p, hclose, hkept, hblank⟩ := h.kept.close TextureFrames.backing_matches
    have hbacked := hkept.backed
    rw [hblank] at hbacked
    refine ⟨a, p, hclose, hbacked.live_of_blank, fun texture => ?_⟩
    rw [hbacked.sane.alive texture, hbacked.live_of_blank]
    rfl

theorem matched_start {d : TextureDevice} (hd : d.Fresh) : (start d).Matched where
  kept := by
    have hfresh : ∀ d' ∈ some d, d'.Fresh := by
      rintro d' ⟨⟩
      exact hd
    obtain ⟨hsane, hlive⟩ := Platform.sane_of_fresh (p := (start d).platform) hfresh rfl
    exact ⟨Books.sound_blank, TextureFrames.matches_blank hsane hlive⟩
  issued := nofun

/-- However an allocator of textures is used, every call is answered, and identifiers, resources and
textures correspond afterwards. -/
theorem run_corresponds {d : TextureDevice} (hd : d.Fresh) (calls : List TextureCall) :
    ∃ u, (start d).run calls = .ok u ∧ Corresponds u.allocator u.platform u.issued := by
  obtain ⟨u, hrun, hu⟩ := (matched_start hd).run calls
  exact ⟨u, hrun, hu.corresponds⟩

/-- A texture with three slices for one requester, then one texture for each of two frames. There is
none for the third request, and the first response is freed. -/
def modesCalls : List TextureCall :=
  [.init (some ⟨true⟩),
    .allocate ⟨7, Service.smallFrame, .union (.union .externalFrame .fromDecode) .decoderTarget, 1, 3⟩,
    .init (some ⟨false⟩),
    .allocate ⟨0, Service.smallFrame, .union .fromDecode .decoderTarget, 1, 2⟩,
    .allocate ⟨0, Service.smallFrame, .union .fromDecode .decoderTarget, 1, 2⟩,
    .free ⟨7, [⟨1⟩, ⟨2⟩, ⟨3⟩]⟩]

/-- Of five identifiers the last two are held, each in a texture of its own. -/
theorem modesRun_corresponds :
    (TextureDevice.counting (some 4)).Fresh ∧
    ∃ u, (start (.counting (some 4))).run modesCalls = .ok u ∧
      u.allocator.held = [⟨0, [⟨4⟩, ⟨5⟩]⟩] ∧ u.issued = [⟨1⟩, ⟨2⟩, ⟨3⟩, ⟨4⟩, ⟨5⟩] ∧
      u.platform.live = [⟨101⟩, ⟨102⟩] ∧ u.allocator.handle ⟨5⟩ = .ok ⟨⟨102⟩, 0⟩ ∧
      Corresponds u.allocator u.platform u.issued := by
  have hfresh : (TextureDevice.counting (some 4)).Fresh :=
    ⟨rfl, TextureDevice.counting_answersAnew _⟩
  obtain ⟨u, hrun, hu⟩ := run_corresponds hfresh modesCalls
  have hfacts : ((start (.counting (some 4))).run modesCalls).toOption.map (fun u =>
      (u.allocator.held, u.issued, u.platform.live, (u.allocator.handle ⟨5⟩).toOption)) =
      some ([⟨0, [⟨4⟩, ⟨5⟩]⟩], [⟨1⟩, ⟨2⟩, ⟨3⟩, ⟨4⟩, ⟨5⟩], [⟨101⟩, ⟨102⟩], some ⟨⟨102⟩, 0⟩) := by
    decide +kernel
  rw [hrun] at hfacts
  simp only [Except.toOption, Option.map_some, Option.some.injEq, Prod.mk.injEq] at hfacts
  obtain ⟨hheld, hissued, hlive, hhandle⟩ := hfacts
  refine ⟨hfresh, u, hrun, hheld, hissued, hlive, ?_, hu⟩
  cases hx : u.allocator.handle ⟨5⟩ with
  | error e =>
    rw [hx] at hhandle
    cases hhandle
  | ok x =>
    rw [hx] at hhandle
    cases hhandle
    rfl

end TextureUse

end Multiview
