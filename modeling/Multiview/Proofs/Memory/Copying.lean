import Multiview.Frame.Planes
import Multiview.Proofs.Outcome

/-!
Copies of planes. The lines of a plane come one after another in its copy, so that a byte of the copy is
told by its line and its column. A copy comes about if each of the lines ends within the source.
-/

namespace Multiview

open Outcome

/-! ## Lines -/

/-- The first `rows` lines of `plane`, which begin `stride` bytes apart. -/
def lines (width stride : Nat) : Nat → Bytes → List Bytes
  | 0, _ => []
  | rows + 1, plane => plane.take width :: lines width stride rows (plane.drop stride)

/-- Each of the lines ends within `plane`. -/
def HasLines (width stride rows : Nat) (plane : Bytes) : Prop :=
  ∀ row < rows, row * stride + width ≤ plane.length

/-- A part of a line is within its plane. -/
theorem line_le {row rows width pitch : Nat} (hrow : row < rows) (hwidth : width ≤ pitch) :
    row * pitch + width ≤ rows * pitch := by
  have hmul := Nat.mul_le_mul_right pitch (Nat.succ_le_of_lt hrow)
  rw [Nat.succ_mul] at hmul
  omega

section Lines

variable {width stride rows : Nat} {plane : Bytes}

theorem HasLines.first (h : HasLines width stride (rows + 1) plane) : width ≤ plane.length := by
  have hle := h 0 (Nat.succ_pos rows)
  omega

theorem HasLines.rest (h : HasLines width stride (rows + 1) plane) :
    HasLines width stride rows (plane.drop stride) := by
  intro row hrow
  have hle := h (row + 1) (Nat.succ_lt_succ hrow)
  rw [Nat.succ_mul] at hle
  rw [List.length_drop]
  omega

theorem takeRows_returns (h : HasLines width stride rows plane) (taken : List Bytes) :
    Returns (takeRows width stride rows plane taken) fun r =>
      r = (lines width stride rows plane).reverse ++ taken := by
  induction rows generalizing plane taken with
  | zero => exact .ok rfl
  | succ rows ih =>
    refine (takeExactly_returns h.first).bind ?_
    rintro row rfl
    refine (ih h.rest (plane.take width :: taken)).mono ?_
    rintro r rfl
    rw [lines, List.reverse_cons, List.append_assoc, List.singleton_append]

theorem length_lines (h : HasLines width stride rows plane) :
    (lines width stride rows plane).flatten.length = rows * width := by
  induction rows generalizing plane with
  | zero => rw [Nat.zero_mul]; rfl
  | succ rows ih =>
    rw [lines, List.flatten_cons, List.length_append, ih h.rest,
      List.length_take_of_le h.first, Nat.succ_mul, Nat.add_comm]

theorem getElem?_lines (h : HasLines width stride rows plane) {row col : Nat} (hrow : row < rows)
    (hcol : col < width) :
    (lines width stride rows plane).flatten[row * width + col]? = plane[row * stride + col]? := by
  induction rows generalizing plane row with
  | zero => exact absurd hrow (Nat.not_lt_zero row)
  | succ rows ih =>
    have hfirst : (plane.take width).length = width := List.length_take_of_le h.first
    rw [lines, List.flatten_cons]
    cases row with
    | zero =>
      rw [Nat.zero_mul, Nat.zero_mul, Nat.zero_add, List.getElem?_append_left (by omega),
        List.getElem?_take_of_lt hcol]
    | succ row =>
      have hcopy : (row + 1) * width + col - width = row * width + col := by
        rw [Nat.succ_mul]
        omega
      have hplane : stride + (row * stride + col) = (row + 1) * stride + col := by
        rw [Nat.succ_mul]
        omega
      rw [List.getElem?_append_right (by rw [Nat.succ_mul]; omega), hfirst, hcopy,
        ih h.rest (Nat.lt_of_succ_lt_succ hrow), List.getElem?_drop, hplane]

end Lines

/-! ## Planes -/

/-- The planes of `src` begin at `offsets` and have all lines that are visible. -/
structure HasPlanes (width height : Nat) (strides offsets : Nat × Nat) (src : Bytes) : Prop where
  lumaOffset : offsets.1 ≤ src.length
  chromaOffset : offsets.2 ≤ src.length
  luma : HasLines width strides.1 height (src.drop offsets.1)
  chroma : HasLines (width + width % 2) strides.2 ((height + height % 2) / 2)
    (src.drop offsets.2)

/-- The bytes of `out` are those of the visible lines of both planes of `src`. -/
structure CopyOf (width height : Nat) (strides offsets : Nat × Nat) (src out : Bytes) : Prop where
  luma : ∀ row < height, ∀ col < width,
    out[row * width + col]? = src[offsets.1 + (row * strides.1 + col)]?
  chroma : ∀ row < (height + height % 2) / 2, ∀ col < width + width % 2,
    out[width * height + row * (width + width % 2) + col]? =
      src[offsets.2 + (row * strides.2 + col)]?

/-- Bytes in both planes of a copy. -/
def copySize (width height : Nat) : Nat :=
  width * height + (width + width % 2) * ((height + height % 2) / 2)

section Planes

variable {width height : Nat} {strides offsets : Nat × Nat} {src : Bytes}

theorem length_planes (h : HasPlanes width height strides offsets src) :
    ((lines width strides.1 height (src.drop offsets.1)).flatten ++
      (lines (width + width % 2) strides.2 ((height + height % 2) / 2)
        (src.drop offsets.2)).flatten).length = copySize width height := by
  rw [List.length_append, length_lines h.luma, length_lines h.chroma, Nat.mul_comm height,
    Nat.mul_comm (_ / 2), copySize]

theorem copyOf_planes (h : HasPlanes width height strides offsets src) :
    CopyOf width height strides offsets src
      ((lines width strides.1 height (src.drop offsets.1)).flatten ++
        (lines (width + width % 2) strides.2 ((height + height % 2) / 2)
          (src.drop offsets.2)).flatten) where
  luma := by
    intro row hrow col hcol
    have hlt : row * width + (col + 1) ≤ height * width := line_le hrow hcol
    rw [List.getElem?_append_left (by rw [length_lines h.luma]; exact hlt),
      getElem?_lines h.luma hrow hcol, List.getElem?_drop]
  chroma := by
    intro row hrow col hcol
    have hluma := length_lines h.luma
    rw [Nat.mul_comm] at hluma
    rw [List.getElem?_append_right (by omega), hluma, Nat.add_assoc, Nat.add_sub_cancel_left,
      getElem?_lines h.chroma hrow hcol, List.getElem?_drop]

theorem visibleSamples_returns (h : HasPlanes width height strides offsets src)
    (hwidth : width + width % 2 < wordLimit) (hheight : height + height % 2 < wordLimit) :
    Returns (visibleSamples src width height strides offsets) fun samples =>
      samples.length = copySize width height ∧
        CopyOf width height strides offsets src samples := by
  refine (dropExactly_returns h.lumaOffset).bind fun luma hluma => ?_
  subst hluma
  refine (takeRows_returns h.luma []).bind ?_
  rintro rows rfl
  refine (below_returns hwidth).bind ?_
  rintro chromaWidth rfl
  refine (below_returns hheight).bind ?_
  rintro chromaHeight rfl
  refine (dropExactly_returns h.chromaOffset).bind fun chroma hchroma => ?_
  subst hchroma
  refine (takeRows_returns h.chroma _).bind ?_
  rintro rows rfl
  refine .pure ?_
  rw [List.append_nil, List.reverse_append, List.reverse_reverse, List.reverse_reverse,
    List.flatten_append]
  exact ⟨length_planes h, copyOf_planes h⟩

/-- The copy fills its destination, and each byte of it comes from its line and column. -/
theorem copyPlanes_returns (h : HasPlanes width height strides offsets src)
    (hwidth : width + width % 2 < wordLimit) (hheight : height + height % 2 < wordLimit)
    {dst : Bytes} (hdst : dst.length = copySize width height) :
    Returns (copyPlanes src dst width height strides offsets) fun out =>
      out.length = dst.length ∧ CopyOf width height strides offsets src out := by
  refine (visibleSamples_returns h hwidth hheight).bind ?_
  rintro samples ⟨hlength, hcopy⟩
  have hall : samples.length = dst.length := by rw [hlength, hdst]
  refine (dropExactly_returns (Nat.le_of_eq hall)).bind fun rest hrest => ?_
  -- Nothing of the destination is left as it was.
  rw [hrest, List.drop_of_length_le (Nat.le_of_eq hall.symm), List.append_nil]
  exact .pure ⟨hall, hcopy⟩

end Planes

end Multiview
