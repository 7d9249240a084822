import Mathlib.Tactic.Ring
import Multiview.Proofs.Memory.Stores
import Multiview.Proofs.Rounding

/-!
Sizes of frames in host memory. Both dimensions are rounded up to even numbers at least, so that a frame
takes three halves of their product. That product is not always a word: frames of a size that no word can
count are asked for in vain, without an answer. Every other request is answered, and all frames that are
handed out have the size of their request.
-/

namespace Multiview

open Outcome

/-! ## Sizes -/

namespace HostLayout

variable (info : FrameInfo)

theorem width_le_pitch : info.width.toNat ≤ (ofInfo info).pitch := le_roundUp (by decide) _

theorem height_le_rows : info.height.toNat ≤ (ofInfo info).rows := le_roundUp (by decide) _

theorem pitch_even : (ofInfo info).pitch % 2 = 0 :=
  Nat.mod_eq_zero_of_dvd (Nat.dvd_trans (by decide) (dvd_roundUp info.width.toNat alignment))

theorem rows_even : (ofInfo info).rows % 2 = 0 :=
  Nat.mod_eq_zero_of_dvd (Nat.dvd_trans (by decide) (dvd_roundUp info.height.toNat alignment))

theorem size_eq {l : HostLayout} (h : l.pitch % 2 = 0) :
    l.size = l.rows * l.pitch + l.rows / 2 * l.pitch := by
  have hhalf : 2 * (l.pitch / 2) = l.pitch := by omega
  rw [size, hhalf, Nat.mul_comm l.pitch, Nat.mul_comm l.pitch]

/-- Chroma takes half as much as luma. -/
theorem two_mul_size : 2 * (ofInfo info).size = 3 * ((ofInfo info).pitch * (ofInfo info).rows) := by
  have hrows := rows_even info
  have hhalf : 2 * ((ofInfo info).rows / 2) = (ofInfo info).rows := by omega
  calc 2 * (ofInfo info).size
    _ = 2 * ((ofInfo info).rows * (ofInfo info).pitch) +
          2 * ((ofInfo info).rows / 2) * (ofInfo info).pitch := by
        rw [size_eq (pitch_even info)]
        ring
    _ = 3 * ((ofInfo info).pitch * (ofInfo info).rows) := by
        rw [hhalf]
        ring

variable {info}

theorem pitch_le {n : Nat} (hn : alignment ∣ n) (h : info.width.toNat ≤ n) : (ofInfo info).pitch ≤ n :=
  roundUp_le (by decide) hn h

theorem rows_le {n : Nat} (hn : alignment ∣ n) (h : info.height.toNat ≤ n) : (ofInfo info).rows ≤ n :=
  roundUp_le (by decide) hn h

end HostLayout

section Fits

variable {r : Request}

theorem Request.fits_iff :
    r.Fits ↔ 3 * ((HostLayout.ofInfo r.info).pitch * (HostLayout.ofInfo r.info).rows) < 2 ^ 65 := by
  have hsize := HostLayout.two_mul_size r.info
  have hlimit : wordLimit = 2 ^ 64 := rfl
  unfold Fits
  omega

/-- As long as one of the dimensions is not in the upper half of its range, the other one may be anything. -/
theorem Request.fits_of_le (h : r.info.width.toNat ≤ 2 ^ 31 ∨ r.info.height.toNat ≤ 2 ^ 31) : r.Fits := by
  have hwidth := r.info.width.toNat_lt
  have hheight := r.info.height.toNat_lt
  have hproduct : (HostLayout.ofInfo r.info).pitch * (HostLayout.ofInfo r.info).rows ≤
      2 ^ 31 * 2 ^ 32 := by
    rcases h with h | h
    · exact Nat.mul_le_mul (HostLayout.pitch_le (by decide) h)
        (HostLayout.rows_le (by decide) (by omega))
    · rw [Nat.mul_comm (2 ^ 31)]
      exact Nat.mul_le_mul (HostLayout.pitch_le (by decide) (by omega))
        (HostLayout.rows_le (by decide) h)
  rw [Request.fits_iff]
  omega

end Fits

/-! ## Allocation in a store -/

namespace HostFrames

variable {r : Request}

theorem view_empty (mid : MemId) : view mid {} = .error (.invalidHandle mid) := by
  simp [view]

theorem allocate_unsupported (h : r.info.fourcc ≠ .nv12) (s : HostFrames) (p : Platform) :
    s.allocate r p = .ok (.error .unsupported, s, p) := by
  unfold allocate
  rw [if_pos h]
  rfl

theorem allocate_overflow (h : r.info.fourcc = .nv12) (hf : ¬ r.Fits) (s : HostFrames)
    (p : Platform) : s.allocate r p = .error .overflow := by
  have hsize : below wordLimit (HostLayout.ofInfo r.info).size = .error .overflow := if_neg hf
  unfold allocate
  rw [if_neg (not_not_intro h)]
  dsimp only
  rw [hsize]
  rfl

/-- Frames of a size that is a word are a matter of the memory that is left. -/
theorem allocate_fits (h : r.info.fourcc = .nv12) (hf : r.Fits) (s : HostFrames) (p : Platform) :
    s.allocate r p = .ok (takeFrames (HostLayout.ofInfo r.info) (HostLayout.ofInfo r.info).size
      r.suggested.toNat [] s p) := by
  have hsize : below wordLimit (HostLayout.ofInfo r.info).size =
      .ok (HostLayout.ofInfo r.info).size := if_pos hf
  unfold allocate
  rw [if_neg (not_not_intro h)]
  dsimp only
  rw [hsize]
  rfl

end HostFrames

/-! ## Requests of any size -/

/-- Asks for frames that there can be in host memory. -/
structure Request.ForHost (r : Request) : Prop where
  some : r.suggested ≠ 0
  accepted : HostFrames.accepts r = true
  format : r.info.fourcc = .nv12

namespace HostAllocator

/-- An allocator that has not been asked for anything. -/
def empty : HostAllocator := ⟨{}, [], []⟩

/-- Answers to a request for frames of `rows` lines of `pitch` bytes, depending on the blocks that the memory
of the host grants for them. -/
inductive Answers (r : Request) (pitch rows : Nat) (m : HostMemory) :
    Except AllocError Response → HostAllocator → Prop
  | refused (h : ¬ r.ForHost) :
      Answers r pitch rows m (.error (if r.suggested = 0 then .memory else .unsupported)) empty
  | exhausted {a : HostAllocator} (k : Nat) (h : r.ForHost) (hk : k < r.suggested.toNat)
      (hgranted : ∀ i < k, m.Grants (pitch * rows + 2 * (pitch / 2) * (rows / 2)) i)
      (hrefused : ¬ m.Grants (pitch * rows + 2 * (pitch / 2) * (rows / 2)) k)
      (hheld : a.held = []) (hgone : ∀ mid, a.view mid = .error (.invalidHandle mid)) :
      Answers r pitch rows m (.error .memory) a
  | served {response : Response} {a : HostAllocator} (h : r.ForHost)
      (hgranted : ∀ i < r.suggested.toNat,
        m.Grants (pitch * rows + 2 * (pitch / 2) * (rows / 2)) i)
      (hlength : response.mids.length = r.suggested.toNat) (hnodup : response.mids.Nodup)
      (hviews : ∀ mid ∈ response.mids, a.view mid = .ok ⟨pitch, (0, pitch * rows),
        ⟨max 1 (pitch * rows + 2 * (pitch / 2) * (rows / 2)), []⟩⟩) :
      Answers r pitch rows m (.ok response) a

variable {r : Request}

/-- What is acceptable goes to the store, as nothing is held. -/
theorem allocate_empty (hs : r.suggested ≠ 0) (ha : HostFrames.accepts r = true) (p : Platform) :
    empty.allocate r p = Allocator.takeOver r empty <$> HostFrames.allocate r {} p := by
  have hunknown : empty.books.Unknown r := fun _ x hx => absurd hx List.not_mem_nil
  exact Allocator.allocate_anew hs ha (Allocator.heldFor_eq_none_iff.mpr hunknown) p

theorem allocate_refused (h : ¬ r.ForHost) (p : Platform) :
    empty.allocate r p =
      .ok (.error (if r.suggested = 0 then .memory else .unsupported), empty, p) := by
  by_cases hs : r.suggested = 0
  · rw [if_pos hs]
    exact if_pos hs
  · rw [if_neg hs]
    by_cases ha : HostFrames.accepts r = true
    · have hformat : r.info.fourcc ≠ .nv12 := fun hf => h ⟨hs, ha, hf⟩
      rw [allocate_empty hs ha, HostFrames.allocate_unsupported hformat]
      rfl
    · have hrefused : (!FrameStore.accepts HostFrames r) = true := by
        simpa [FrameStore.accepts] using ha
      unfold Allocator.allocate
      rw [if_neg hs, if_pos hrefused]

theorem allocate_overflow (h : r.ForHost) (hf : ¬ r.Fits) (p : Platform) :
    empty.allocate r p = .error .overflow := by
  rw [allocate_empty h.some h.accepted, HostFrames.allocate_overflow h.format hf]
  rfl

/-- Frames whose size is a word are handed out, unless there is no block for one of them. -/
theorem allocate_fits (h : r.ForHost) (hf : r.Fits) (p : Platform) :
    ∃ answer a p', empty.allocate r p = .ok (answer, a, p') ∧
      Answers r (HostLayout.ofInfo r.info).pitch (HostLayout.ofInfo r.info).rows p.memory answer
        a := by
  rw [allocate_empty h.some h.accepted, HostFrames.allocate_fits h.format hf]
  rcases HostFrames.takeFrames_cases (HostLayout.ofInfo r.info) (HostLayout.ofInfo r.info).size
    r.suggested.toNat [] {} p with ⟨hgranted, heq⟩ | ⟨k, hk, hgranted, hrefused, heq⟩
  · rw [heq, Nat.max_comm]
    obtain ⟨response, a, htaken, hmids, ha, -⟩ := Allocator.takeOver_ok r empty
      (HostFrames.nextIds {} r.suggested.toNat) (HostFrames.stocked
        ⟨HostLayout.ofInfo r.info, ⟨max 1 (HostLayout.ofInfo r.info).size, []⟩⟩
        (HostFrames.nextIds {} r.suggested.toNat) {}) (p.asked r.suggested.toNat)
    have hconsecutive : Consecutive r.suggested.toNat response.mids := ⟨_, hmids⟩
    refine ⟨_, a, _, congrArg Except.ok htaken,
      .served h hgranted hconsecutive.length hconsecutive.nodup fun mid hm => ?_⟩
    have hview : a.view mid = a.store.view mid := rfl
    rw [hview, ha]
    exact HostFrames.view_stocked (hmids ▸ hm) _ _
  · rw [heq]
    refine ⟨_, _, _, rfl, .exhausted k h hk hgranted hrefused rfl fun mid => ?_⟩
    have hlapsed := HostFrames.lapsed_stocked ⟨HostLayout.ofInfo r.info,
      ⟨max (HostLayout.ofInfo r.info).size 1, []⟩⟩ k {}
    have hblank := HostFrames.backs_blank (q := fun _ => True) (p := p) 0 trivial
    exact ((hblank.lapsed hlapsed p trivial).2 mid).view.trans (HostFrames.view_empty mid)

/-- Whatever memory the host has, a new allocator answers all requests but those for frames so large that
three times the product of their dimensions, rounded up, is not below twice the limit of a word. The size of
such frames overflows. -/
theorem allocate_any_size (r : Request) (p : Platform) : ∃ pitch rows : Nat,
    IsLeast {m | 32 ∣ m ∧ r.info.width.toNat ≤ m} pitch ∧
    IsLeast {m | 32 ∣ m ∧ r.info.height.toNat ≤ m} rows ∧
    ((r.ForHost ∧ 2 ^ 65 ≤ 3 * (pitch * rows)) ∧ empty.allocate r p = .error .overflow ∨
      ¬ (r.ForHost ∧ 2 ^ 65 ≤ 3 * (pitch * rows)) ∧
        ∃ answer a p', empty.allocate r p = .ok (answer, a, p') ∧
          Answers r pitch rows p.memory answer a) := by
  refine ⟨(HostLayout.ofInfo r.info).pitch, (HostLayout.ofInfo r.info).rows,
    isLeast_roundUp (by decide) _, isLeast_roundUp (by decide) _, ?_⟩
  rw [← Nat.not_lt, ← Request.fits_iff]
  by_cases h : r.ForHost
  · by_cases hf : r.Fits
    · exact .inr ⟨fun hnot => hnot.2 hf, allocate_fits h hf p⟩
    · exact .inl ⟨⟨h, hf⟩, allocate_overflow h hf p⟩
  · exact .inr ⟨fun hnot => h hnot.1, _, _, _, allocate_refused h p, .refused h⟩

/-- A request for one frame in host memory, both dimensions of which are as large as they can be. -/
def largest : Request :=
  { info := { fourcc := .nv12, width := 4294967295, height := 4294967295 }
    memType := .union .fromDecode .systemMemory
    suggested := 1 }

/-- It is not answered, not even that there is not enough memory. -/
theorem largest_overflows : largest.ForHost ∧ empty.allocate largest {} = .error .overflow :=
  ⟨⟨by decide, by decide, rfl⟩, by rfl⟩

end HostAllocator

end Multiview
