import Multiview.Proofs.Memory.Copying
import Multiview.Proofs.Memory.Layouts
import Multiview.Proofs.Memory.Sizes

/-!
The visible part of a frame in host memory. Both dimensions of a frame are rounded up to even numbers at
least, so that the visible part is within the planes, also where its corners or its sides are odd. It can
be copied out byte by byte, whatever has been done with the allocator since the frame was allocated.
-/

namespace Multiview

open Outcome

/-! ## The visible part -/

/-- There is a visible part, and it is within the frame. -/
structure FrameInfo.CropInside (info : FrameInfo) : Prop where
  width : 0 < info.cropWidth.toNat
  height : 0 < info.cropHeight.toNat
  right : info.cropX.toNat + info.cropWidth.toNat ≤ info.width.toNat
  bottom : info.cropY.toNat + info.cropHeight.toNat ≤ info.height.toNat

/-- The two planes of a frame, with room for one of these dimensions: `rows` lines of luma, and half as
many of chroma behind them. -/
structure FrameView.Planar (width height rows : Nat) (v : FrameView) : Prop where
  pitch_even : v.pitch % 2 = 0
  rows_even : rows % 2 = 0
  wide : width ≤ v.pitch
  high : height ≤ rows
  offsets : v.offsets = (0, rows * v.pitch)
  size : v.buffer.size = rows * v.pitch + rows / 2 * v.pitch
  limit : v.buffer.size < wordLimit

/-- Where the visible part begins in both planes. Chroma samples belong to two columns and two rows. -/
def FrameView.cropStart (info : FrameInfo) (v : FrameView) : Nat × Nat :=
  (info.cropY.toNat * v.pitch + info.cropX.toNat,
    v.offsets.2 + info.cropY.toNat / 2 * v.pitch + (info.cropX.toNat - info.cropX.toNat % 2))

variable {info : FrameInfo} {v : FrameView}

theorem HostFrame.LaidFor.planar {f : HostFrame} (h : f.LaidFor info) (hc : info.CropInside) :
    FrameView.Planar info.width.toNat info.height.toNat f.layout.rows
      ⟨f.layout.pitch, (0, f.layout.chromaOffset), f.buffer⟩ := by
  have hwide : info.width.toNat ≤ f.layout.pitch := h.layout ▸ HostLayout.width_le_pitch info
  have hhigh : info.height.toNat ≤ f.layout.rows := h.layout ▸ HostLayout.height_le_rows info
  have heven : f.layout.pitch % 2 = 0 := h.layout ▸ HostLayout.pitch_even info
  have heven' : f.layout.rows % 2 = 0 := h.layout ▸ HostLayout.rows_even info
  have hsize : f.buffer.size = f.layout.rows * f.layout.pitch +
      f.layout.rows / 2 * f.layout.pitch := by
    have hvisible := hc.width
    have hvisible' := hc.height
    have hright := hc.right
    have hbottom := hc.bottom
    have hpos : 0 < f.layout.rows * f.layout.pitch := Nat.mul_pos (by omega) (by omega)
    rw [h.size, HostLayout.size_eq heven]
    omega
  exact ⟨heven, heven', hwide, hhigh, by rw [HostLayout.chromaOffset, Nat.mul_comm], hsize, h.limit⟩

/-- A copy `out` of the visible part of `v`, of which the bytes are `src`, has every byte from its place
within its plane. -/
structure FrameInfo.CroppedCopy (info : FrameInfo) (v : FrameView) (src out : Bytes) : Prop where
  luma : ∀ row < info.cropHeight.toNat, ∀ col < info.cropWidth.toNat,
    (info.cropY.toNat + row) * v.pitch + info.cropX.toNat + col < v.offsets.2 ∧
      out[row * info.cropWidth.toNat + col]? =
        src[(info.cropY.toNat + row) * v.pitch + info.cropX.toNat + col]?
  chroma : ∀ row < (info.cropHeight.toNat + info.cropHeight.toNat % 2) / 2,
    ∀ col < info.cropWidth.toNat + info.cropWidth.toNat % 2,
      v.offsets.2 + (info.cropY.toNat / 2 + row) * v.pitch +
          (info.cropX.toNat - info.cropX.toNat % 2) + col < v.buffer.size ∧
        out[info.cropWidth.toNat * info.cropHeight.toNat +
            row * (info.cropWidth.toNat + info.cropWidth.toNat % 2) + col]? =
          src[v.offsets.2 + (info.cropY.toNat / 2 + row) * v.pitch +
            (info.cropX.toNat - info.cropX.toNat % 2) + col]?

namespace FrameView.Planar

variable {rows : Nat}

theorem luma_le (h : v.Planar info.width.toNat info.height.toNat rows) (hc : info.CropInside)
    (row : Nat) (hrow : row < info.cropHeight.toNat) :
    (info.cropY.toNat + row) * v.pitch + (info.cropX.toNat + info.cropWidth.toNat) ≤
      rows * v.pitch := by
  have hbottom := hc.bottom
  have hhigh := h.high
  exact line_le (by omega) (Nat.le_trans hc.right h.wide)

theorem chroma_le (h : v.Planar info.width.toNat info.height.toNat rows) (hc : info.CropInside)
    (row : Nat) (hrow : row < (info.cropHeight.toNat + info.cropHeight.toNat % 2) / 2) :
    (info.cropY.toNat / 2 + row) * v.pitch + (info.cropX.toNat - info.cropX.toNat % 2 +
      (info.cropWidth.toNat + info.cropWidth.toNat % 2)) ≤ rows / 2 * v.pitch := by
  have hrows := h.rows_even
  have hbottom := hc.bottom
  have hhigh := h.high
  have hpitch := h.pitch_even
  have hright := hc.right
  have hwide := h.wide
  -- An odd corner moves up and left, and an odd side gets one more. The dimensions of the frame are even,
  -- so neither reaches beyond them.
  exact line_le (by omega) (by omega)

theorem cropOffsets_returns (h : v.Planar info.width.toNat info.height.toNat rows)
    (hc : info.CropInside) :
    Returns (cropOffsets v.pitch v.offsets info) fun offsets =>
      offsets = v.cropStart info := by
  have hheight := hc.height
  have hluma := h.luma_le hc 0 hheight
  have hchroma := h.chroma_le hc 0 (by omega)
  have hsize := h.size
  have hlimit := h.limit
  have hfirst : v.offsets.1 = 0 := by rw [h.offsets]
  have hsecond : v.offsets.2 = rows * v.pitch := by rw [h.offsets]
  rw [Nat.add_zero] at hluma hchroma
  refine (below_returns (by omega)).bind ?_
  rintro luma rfl
  refine (below_returns (by omega)).bind ?_
  rintro chroma rfl
  refine .pure ?_
  rw [hfirst, Nat.zero_add, FrameView.cropStart]

theorem hasPlanes (h : v.Planar info.width.toNat info.height.toNat rows) (hc : info.CropInside)
    {src : Bytes} (hsrc : src.length = v.buffer.size) :
    HasPlanes info.cropWidth.toNat info.cropHeight.toNat (v.pitch, v.pitch)
      (v.cropStart info) src := by
  have hheight := hc.height
  have hsize := h.size
  have hsecond : v.offsets.2 = rows * v.pitch := by rw [h.offsets]
  -- Each line ends within its plane, so the first ones bound the offsets.
  have hluma := h.luma_le hc
  have hchroma := h.chroma_le hc
  simp only [Nat.add_mul] at hluma hchroma
  have hfirst := hluma 0 hheight
  have hfirst' := hchroma 0 (by omega)
  unfold FrameView.cropStart
  refine ⟨?_, ?_, fun row hrow => ?_, fun row hrow => ?_⟩
  · dsimp only
    omega
  · dsimp only
    omega
  · have hle := hluma row hrow
    rw [List.length_drop]
    dsimp only
    omega
  · have hle := hchroma row hrow
    rw [List.length_drop]
    dsimp only
    omega

theorem croppedCopy (h : v.Planar info.width.toNat info.height.toNat rows) (hc : info.CropInside)
    {src out : Bytes}
    (hcopy : CopyOf info.cropWidth.toNat info.cropHeight.toNat (v.pitch, v.pitch)
      (v.cropStart info) src out) :
    info.CroppedCopy v src out where
  luma := by
    intro row hrow col hcol
    have hle := h.luma_le hc row hrow
    have hsecond : v.offsets.2 = rows * v.pitch := by rw [h.offsets]
    refine ⟨by omega, (hcopy.luma row hrow col hcol).trans ?_⟩
    have hplace : info.cropY.toNat * v.pitch + info.cropX.toNat + (row * v.pitch + col) =
        (info.cropY.toNat + row) * v.pitch + info.cropX.toNat + col := by
      rw [Nat.add_mul]
      omega
    unfold FrameView.cropStart
    dsimp only
    rw [hplace]
  chroma := by
    intro row hrow col hcol
    have hle := h.chroma_le hc row hrow
    have hsize := h.size
    have hsecond : v.offsets.2 = rows * v.pitch := by rw [h.offsets]
    refine ⟨by omega, (hcopy.chroma row hrow col hcol).trans ?_⟩
    have hplace : v.offsets.2 + info.cropY.toNat / 2 * v.pitch +
          (info.cropX.toNat - info.cropX.toNat % 2) + (row * v.pitch + col) =
        v.offsets.2 + (info.cropY.toNat / 2 + row) * v.pitch +
          (info.cropX.toNat - info.cropX.toNat % 2) + col := by
      rw [Nat.add_mul]
      omega
    unfold FrameView.cropStart
    dsimp only
    rw [hplace]

/-- The copy comes about, and is exact. -/
theorem copyPlanes_returns (h : v.Planar info.width.toNat info.height.toNat rows)
    (hc : info.CropInside) :
    Returns (cropOffsets v.pitch v.offsets info) fun offsets =>
      ∀ src dst : Bytes, src.length = v.buffer.size →
        dst.length = copySize info.cropWidth.toNat info.cropHeight.toNat →
        Returns (copyPlanes src dst info.cropWidth.toNat info.cropHeight.toNat (v.pitch, v.pitch)
          offsets) fun out => out.length = dst.length ∧ info.CroppedCopy v src out := by
  have hwidth := info.cropWidth.toNat_lt
  have hheight := info.cropHeight.toNat_lt
  have hlimit : wordLimit = 2 ^ 64 := rfl
  refine (h.cropOffsets_returns hc).mono ?_
  rintro offsets rfl src dst hsrc hdst
  refine (Multiview.copyPlanes_returns (h.hasPlanes hc hsrc) (by omega) (by omega) hdst).mono ?_
  rintro out ⟨hlength, hcopy⟩
  exact ⟨hlength, h.croppedCopy hc hcopy⟩

end FrameView.Planar

/-! ## Frames of an allocator -/

theorem HostBuffer.length_toBytes (b : HostBuffer) : b.toBytes.length = b.size := by
  rw [toBytes_eq, List.length_map, List.length_range]

theorem HostFrames.Laid.planar {mid : MemId} {s : HostFrames} (h : s.Laid info mid)
    (hc : info.CropInside) (hv : s.view mid = .ok v) :
    ∃ rows, v.Planar info.width.toNat info.height.toNat rows := by
  unfold HostFrames.view at hv
  split at hv
  · cases hv
  · rename_i f hf
    cases hv
    exact ⟨f.layout.rows, (h.frame f hf).planar hc⟩

/-- A frame is allocated for `r`. Whatever its allocator is asked for afterwards, as long as the frame can
be mapped, its visible part is within its planes and is copied out exactly. -/
theorem Service.croppedCopy_exact {a a' : HostAllocator} {p p' : Platform} {r : Request}
    {response : Response} (ha : a.allocate r p = .ok (.ok response, a', p'))
    (hnew : response ∉ a.external) (hc : r.info.CropInside) {mid : MemId}
    (hm : mid ∈ response.mids) (n : Nat) (calls : List AllocatorCall) :
    (∃ v, a'.view mid = .ok v) ∧
      Yields ((Service.mk a' p' n).run calls) fun t => ∀ v, t.allocator.view mid = .ok v →
        v.buffer.toBytes.length = v.buffer.size ∧
          Returns (cropOffsets v.pitch v.offsets r.info) fun offsets =>
            ∀ src dst : Bytes, src.length = v.buffer.size →
              dst.length = copySize r.info.cropWidth.toNat r.info.cropHeight.toNat →
              Returns (copyPlanes src dst r.info.cropWidth.toNat r.info.cropHeight.toNat
                (v.pitch, v.pitch) offsets) fun out =>
                  out.length = dst.length ∧ r.info.CroppedCopy v src out := by
  have hstore := (a.allocate_cases r p _ ha response rfl).resolve_left hnew
  obtain ⟨hview, hlaid⟩ := HostFrames.allocated hstore hm
  refine ⟨hview, ?_⟩
  have hrun := (HostFrames.lasting_laid r.info mid).run calls (s := Service.mk a' p' n) hlaid
  refine hrun.mono fun t ht v hv => ⟨v.buffer.length_toBytes, ?_⟩
  obtain ⟨rows, hplanar⟩ := ht.planar hc hv
  exact hplanar.copyPlanes_returns hc

/-- Of this frame everything that is visible is odd. -/
def oddCrop : FrameInfo :=
  { Service.smallFrame with cropX := 3, cropY := 5, cropWidth := 7, cropHeight := 3 }

/-- Two frames of it are allocated. -/
def oddFrames : Outcome (Except AllocError Response × HostAllocator × Platform) :=
  (Service.onHost {}).allocator.allocate ⟨0, oddCrop, .union .fromDecode .systemMemory, 1, 2⟩ {}

/-- The second of them is filled in part, and another frame is allocated and freed. -/
def oddCalls : List AllocatorCall :=
  [.fill ⟨hostIdBase + 2⟩ 0 600 9,
    .allocate ⟨0, Service.smallFrame, .union .fromDecode .systemMemory, 1, 1⟩,
    .free ⟨0, [⟨hostIdBase + 3⟩]⟩]

theorem oddFrames_run : ∃ a p t,
    oddFrames = .ok (.ok ⟨0, [⟨hostIdBase + 1⟩, ⟨hostIdBase + 2⟩]⟩, a, p) ∧
      (Service.mk a p 2).run oddCalls = .ok t ∧
      t.allocator.view ⟨hostIdBase + 2⟩ = .ok ⟨32, (0, 1024), ⟨1536, [⟨0, 600, 9⟩]⟩⟩ := by
  have hanswer : oddFrames.toOption.map (·.1) =
      some (.ok ⟨0, [⟨hostIdBase + 1⟩, ⟨hostIdBase + 2⟩]⟩) := by decide +kernel
  have hview : (do
      let x ← oddFrames
      let t ← (Service.mk x.2.1 x.2.2 2).run oddCalls
      return t.allocator.view ⟨hostIdBase + 2⟩).toOption =
      some (.ok ⟨32, (0, 1024), ⟨1536, [⟨0, 600, 9⟩]⟩⟩) := by decide +kernel
  cases hx : oddFrames with
  | error fault =>
    rw [hx] at hanswer
    cases hanswer
  | ok x =>
    obtain ⟨answer, a, p⟩ := x
    rw [hx] at hanswer hview
    cases hanswer
    cases ht : (Service.mk a p 2).run oddCalls with
    | error fault =>
      simp only [bind, Except.bind, ht] at hview
      cases hview
    | ok t =>
      simp only [bind, Except.bind, ht] at hview
      exact ⟨a, p, t, rfl, ht, Option.some.inj hview⟩

theorem oddCrop_copied : ∃ a p t v,
    oddFrames = .ok (.ok ⟨0, [⟨hostIdBase + 1⟩, ⟨hostIdBase + 2⟩]⟩, a, p) ∧
      (Service.mk a p 2).run oddCalls = .ok t ∧
      t.allocator.view ⟨hostIdBase + 2⟩ = .ok v ∧ oddCrop.CropInside ∧
      ∃ offsets out, cropOffsets v.pitch v.offsets oddCrop = .ok offsets ∧
        copyPlanes v.buffer.toBytes (List.replicate 37 0) 7 3 (v.pitch, v.pitch) offsets =
          .ok out ∧
        out.length = 37 ∧ oddCrop.CroppedCopy v v.buffer.toBytes out := by
  obtain ⟨a, p, t, hframes, hrun, hview⟩ := oddFrames_run
  have hinside : oddCrop.CropInside := ⟨by decide, by decide, by decide, by decide⟩
  have hnew : (⟨0, [⟨hostIdBase + 1⟩, ⟨hostIdBase + 2⟩]⟩ : Response) ∉
      (Service.onHost {}).allocator.external := List.not_mem_nil
  have hmem : (⟨hostIdBase + 2⟩ : MemId) ∈ [⟨hostIdBase + 1⟩, ⟨hostIdBase + 2⟩] :=
    List.mem_cons_of_mem _ List.mem_cons_self
  obtain ⟨-, hcopied⟩ := Service.croppedCopy_exact hframes hnew hinside hmem 2 oddCalls
  obtain ⟨hlength, offsets, hoffsets, hcopy⟩ := hcopied t hrun _ hview
  obtain ⟨out, hout, houtlength, hexact⟩ :=
    hcopy _ (List.replicate 37 0) hlength List.length_replicate
  rw [List.length_replicate] at houtlength
  exact ⟨a, p, t, _, hframes, hrun, hview, hinside, offsets, out, hoffsets, hout, houtlength, hexact⟩

end Multiview
