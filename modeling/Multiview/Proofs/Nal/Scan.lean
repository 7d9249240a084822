import Multiview.Nal.Unit

/-!
Scanning for start codes. A scan is the units from a cursor on, one after another. It can be taken up
again behind any unit: what it finds in the rest of the buffer is what it would have found anyway.
-/

namespace Multiview

/-! ## Seeking -/

/-- Bytes in front of the next start code. -/
def gap : Bytes → Nat
  | [] => 0
  | b :: rest => if beginsUnit (b :: rest) then 0 else gap rest + 1

theorem gap_le_length (bs : Bytes) : gap bs ≤ bs.length := by
  induction bs with
  | nil => exact Nat.le_refl 0
  | cons b rest ih =>
    unfold gap
    split
    · exact Nat.zero_le _
    · exact Nat.succ_le_succ ih

theorem seekStartCode_eq (offset : Nat) (bs : Bytes) :
    seekStartCode offset bs = ⟨offset + gap bs, bs.drop (gap bs)⟩ := by
  induction bs generalizing offset with
  | nil => rfl
  | cons b rest ih =>
    unfold seekStartCode gap
    split
    · rfl
    · rw [ih, List.drop_succ_cons]
      congr 1
      omega

/-- A start code is as far away as it is, wherever one begins to look for it. -/
theorem gap_drop {n : Nat} {bs : Bytes} (h : n ≤ gap bs) : gap (bs.drop n) + n = gap bs := by
  induction n generalizing bs with
  | zero => rfl
  | succ n ih =>
    cases bs with
    | nil => cases h
    | cons b rest =>
      by_cases hb : beginsUnit (b :: rest) = true
      · rw [gap, if_pos hb] at h
        cases h
      · have hgap : gap (b :: rest) = gap rest + 1 := if_neg hb
        rw [hgap] at h ⊢
        rw [List.drop_succ_cons]
        have hrest := ih (Nat.le_of_succ_le_succ h)
        omega

/-! ## Units -/

theorem trimZeros_append_zeros (bs : Bytes) : ∃ n, bs = trimZeros bs ++ List.replicate n 0 := by
  have hall : ∀ xs : Bytes, ∃ n, xs = (xs.reverse.dropWhile (· == 0)).reverse ++
      List.replicate n 0 := by
    intro xs
    refine ⟨(xs.reverse.takeWhile (· == 0)).length, ?_⟩
    have hzeros : xs.reverse.takeWhile (· == 0) =
        List.replicate (xs.reverse.takeWhile (· == 0)).length 0 := by
      refine List.eq_replicate_of_mem fun b hb => ?_
      simpa using List.all_eq_true.mp List.all_takeWhile b hb
    calc xs
      _ = (xs.reverse.takeWhile (· == 0) ++ xs.reverse.dropWhile (· == 0)).reverse := by
        rw [List.takeWhile_append_dropWhile, List.reverse_reverse]
      _ = (xs.reverse.dropWhile (· == 0)).reverse ++ (xs.reverse.takeWhile (· == 0)).reverse :=
        List.reverse_append
      _ = _ := by rw [hzeros, List.reverse_replicate, List.length_replicate]
  cases bs with
  | nil => exact ⟨0, rfl⟩
  | cons b rest =>
    obtain ⟨n, hn⟩ := hall rest
    exact ⟨n, congrArg (b :: ·) hn⟩

theorem length_trimZeros_le (bs : Bytes) : (trimZeros bs).length ≤ bs.length := by
  obtain ⟨n, hn⟩ := trimZeros_append_zeros bs
  have hlen := congrArg List.length hn
  rw [List.length_append] at hlen
  omega

namespace Cursor

/-- The cursor is at its offset of a buffer. -/
def In (bs : Bytes) (c : Cursor) : Prop := c.rest = bs.drop c.offset

/-- The same place in a buffer with `n` more bytes in front. -/
def shift (n : Nat) (c : Cursor) : Cursor := { c with offset := c.offset + n }

theorem in_seekStartCode (bs : Bytes) (n : Nat) : In bs (seekStartCode n (bs.drop n)) := by
  rw [seekStartCode_eq, In, List.drop_drop]

end Cursor

namespace NalUnit

/-- The unit in a buffer with `n` more bytes in front. -/
def shift (n : Nat) (u : NalUnit) : NalUnit :=
  { u with start := u.start + n, pos := u.pos + n }

theorem shift_shift (m n : Nat) (u : NalUnit) : (u.shift m).shift n = u.shift (m + n) := by
  simp only [shift, Nat.add_assoc]

theorem stop_shift (n : Nat) (u : NalUnit) : (u.shift n).stop = u.stop + n := by
  simp only [stop, shift]
  omega

end NalUnit

theorem startCodeUnit?_eq (c : Cursor) :
    startCodeUnit? c =
      match c.rest.drop 3 with
      | [] => none
      | head :: tail => some
        (⟨NalHeader.parse head, c.offset, c.offset + 3,
          trimZeros ((head :: tail).take (gap (head :: tail)))⟩,
        ⟨c.offset + 3 + gap (head :: tail), (head :: tail).drop (gap (head :: tail))⟩) := by
  unfold startCodeUnit?
  cases c.rest.drop 3 with
  | nil => rfl
  | cons head tail => simp only [seekStartCode_eq, Nat.add_sub_cancel_left]

theorem startCodeUnit?_shift (n : Nat) (c : Cursor) :
    startCodeUnit? (c.shift n) = (startCodeUnit? c).map fun x => (x.1.shift n, x.2.shift n) := by
  have hoff : ∀ k, c.offset + n + 3 + k = c.offset + 3 + k + n := fun k => by omega
  have hpos := hoff 0
  rw [startCodeUnit?_eq, startCodeUnit?_eq, Cursor.shift]
  dsimp only
  cases c.rest.drop 3 with
  | nil => rfl
  | cons head tail =>
    simp only [Option.map_some, NalUnit.shift, Cursor.shift, hoff]
    simp only [Nat.add_zero] at hpos
    rw [hpos]

section Found

variable {bs : Bytes} {c c' : Cursor} {u : NalUnit}

/-- A unit is followed by the next start code, with nothing but zero bytes in between. -/
theorem startCodeUnit?_found (h : startCodeUnit? c = some (u, c')) (hc : c.In bs) :
    u.start = c.offset ∧ u.pos = c.offset + 3 ∧ u.stop ≤ c'.offset ∧ c'.offset ≤ bs.length ∧
      c' = seekStartCode u.stop (bs.drop u.stop) := by
  rw [startCodeUnit?_eq] at h
  have hbody : c.rest.drop 3 = bs.drop (c.offset + 3) := by
    rw [hc, List.drop_drop]
  rw [hbody] at h
  generalize hb : bs.drop (c.offset + 3) = body at h
  cases body with
  | nil => cases h
  | cons head tail =>
    have hlt : c.offset + 3 < bs.length := by
      have hlen := congrArg List.length hb
      rw [List.length_drop, List.length_cons] at hlen
      omega
    have hgap := gap_le_length (head :: tail)
    have hlen : (head :: tail).length = bs.length - (c.offset + 3) := by
      rw [← hb, List.length_drop]
    obtain ⟨hu, hc'⟩ := Prod.mk.inj (Option.some.inj h)
    generalize hn : gap (head :: tail) = n at hu hc' hgap
    have htrim := length_trimZeros_le ((head :: tail).take n)
    rw [List.length_take, Nat.min_eq_left hgap] at htrim
    generalize trimZeros ((head :: tail).take n) = data at hu htrim
    have hstop : u.stop = c.offset + 3 + data.length := by
      rw [← hu]
      rfl
    have hrest : bs.drop u.stop = (head :: tail).drop data.length := by
      rw [hstop, ← List.drop_drop, hb]
    have hgapdrop : gap ((head :: tail).drop data.length) + data.length = n := by
      rw [gap_drop (hn ▸ htrim), hn]
    refine ⟨by rw [← hu], by rw [← hu], ?_, ?_, ?_⟩
    · rw [hstop, ← hc']
      exact Nat.add_le_add_left htrim _
    · rw [← hc']
      dsimp only
      omega
    · rw [seekStartCode_eq, hrest, List.drop_drop, ← hc', hstop]
      congr 1
      · omega
      · congr 1
        omega

theorem startCodeUnit?_shorter (h : startCodeUnit? c = some (u, c')) :
    c'.rest.length < c.rest.length := by
  rw [startCodeUnit?_eq] at h
  generalize hb : c.rest.drop 3 = body at h
  cases body with
  | nil => cases h
  | cons head tail =>
    obtain ⟨_, hc'⟩ := Prod.mk.inj (Option.some.inj h)
    have hlen := congrArg List.length hb
    rw [List.length_drop, List.length_cons] at hlen
    rw [← hc']
    simp only [List.length_drop, List.length_cons]
    omega

end Found

/-! ## Scans -/

/-- The units from a cursor on. -/
inductive Scans : Cursor → List NalUnit → Prop
  | done {c : Cursor} (h : startCodeUnit? c = none) : Scans c []
  | unit {c c' : Cursor} {u : NalUnit} {us : List NalUnit} (h : startCodeUnit? c = some (u, c'))
      (hs : Scans c' us) : Scans c (u :: us)

namespace Scans

variable {bs : Bytes} {c : Cursor} {us us' : List NalUnit} {u : NalUnit}

theorem collect_eq (h : Scans c us) {fuel : Nat} (hf : c.rest.length < fuel) :
    collect startCodeUnit? fuel c [] = us := by
  induction h generalizing fuel with
  | done h =>
    cases fuel with
    | zero => rfl
    | succ fuel =>
      unfold collect
      rw [h]
      rfl
  | unit h _ ih =>
    cases fuel with
    | zero => cases hf
    | succ fuel =>
      have hshort := startCodeUnit?_shorter h
      unfold collect
      rw [h]
      dsimp only
      rw [collect_eq_append, ih (by omega)]
      rfl

theorem exists_scans (c : Cursor) : ∃ us, Scans c us := by
  induction hn : c.rest.length using Nat.strongRecOn generalizing c with
  | ind n ih =>
    cases h : startCodeUnit? c with
    | none => exact ⟨[], .done h⟩
    | some x =>
      obtain ⟨us, hs⟩ := ih x.2.rest.length (hn ▸ startCodeUnit?_shorter h) x.2 rfl
      exact ⟨x.1 :: us, .unit h hs⟩

theorem shift (n : Nat) (h : Scans c us) : Scans (c.shift n) (us.map (·.shift n)) := by
  induction h with
  | done h =>
    refine .done ?_
    rw [startCodeUnit?_shift, h]
    rfl
  | unit h _ ih =>
    refine .unit ?_ ih
    rw [startCodeUnit?_shift, h]
    rfl

/-- A scan taken up again behind one of its units. -/
theorem resume {before after : List NalUnit} (h : Scans c (before ++ u :: after)) (hc : c.In bs) :
    3 ≤ u.stop ∧ u.stop ≤ bs.length ∧ Scans (seekStartCode u.stop (bs.drop u.stop)) after := by
  induction before generalizing c with
  | nil =>
    cases h with
    | @unit _ c' _ _ h hs =>
      obtain ⟨_, hpos, hstop, hle, hc'⟩ := startCodeUnit?_found h hc
      refine ⟨?_, Nat.le_trans hstop hle, hc' ▸ hs⟩
      unfold NalUnit.stop
      omega
  | cons v before ih =>
    cases h with
    | @unit _ c' _ _ h hs =>
      obtain ⟨_, _, _, _, hc'⟩ := startCodeUnit?_found h hc
      refine ih hs ?_
      rw [hc']
      exact Cursor.in_seekStartCode bs v.stop

end Scans

theorem startCodeUnits_of_scans {bs : Bytes} {us : List NalUnit}
    (h : Scans (seekStartCode 0 bs) us) : startCodeUnits bs = us := by
  refine h.collect_eq ?_
  rw [seekStartCode_eq, List.length_drop]
  omega

theorem scans_startCodeUnits (bs : Bytes) : Scans (seekStartCode 0 bs) (startCodeUnits bs) := by
  obtain ⟨us, hs⟩ := Scans.exists_scans (seekStartCode 0 bs)
  rw [startCodeUnits_of_scans hs]
  exact hs

theorem seekStartCode_shift (n : Nat) (bs : Bytes) :
    seekStartCode n bs = (seekStartCode 0 bs).shift n := by
  rw [seekStartCode_eq, seekStartCode_eq, Cursor.shift, Nat.zero_add, Nat.add_comm]

/-- The units behind a unit are those of the bytes behind it. -/
theorem startCodeUnits_drop {bs : Bytes} {before after : List NalUnit} {u : NalUnit}
    (h : startCodeUnits bs = before ++ u :: after) :
    3 ≤ u.stop ∧ u.stop ≤ bs.length ∧
      after = (startCodeUnits (bs.drop u.stop)).map (·.shift u.stop) := by
  have hscan := scans_startCodeUnits bs
  rw [h] at hscan
  obtain ⟨hpos, hle, hafter⟩ := hscan.resume (Cursor.in_seekStartCode bs 0)
  refine ⟨hpos, hle, ?_⟩
  have hagain := (scans_startCodeUnits (bs.drop u.stop)).shift u.stop
  rw [← seekStartCode_shift] at hagain
  -- Both are the units from the same cursor on.
  rw [← hafter.collect_eq (Nat.lt_succ_self _), hagain.collect_eq (Nat.lt_succ_self _)]

/-! ## Slices -/

namespace NalUnit

def isBaseSlice (u : NalUnit) : Bool := u.header.type.isBaseSlice

/-- The view that a slice belongs to. -/
def viewId (u : NalUnit) : UInt16 := if u.isBaseSlice then 0 else 1

end NalUnit

/-- The slices of a buffer, of either view. -/
def sliceUnits (bs : Bytes) : List NalUnit := (startCodeUnits bs).filter (·.isSlice)

theorem find?_isSlice (bs : Bytes) : (startCodeUnits bs).find? (·.isSlice) = (sliceUnits bs).head? :=
  List.head?_filter.symm

/-- The slices behind the first one are those of the bytes behind it. -/
theorem sliceUnits_drop {bs : Bytes} {u : NalUnit} {us : List NalUnit}
    (h : sliceUnits bs = u :: us) :
    3 ≤ u.stop ∧ u.stop ≤ bs.length ∧
      us = (sliceUnits (bs.drop u.stop)).map (·.shift u.stop) := by
  obtain ⟨before, after, hsplit, _, hafter⟩ := List.filter_eq_cons_iff.mp h
  obtain ⟨hpos, hle, hrest⟩ := startCodeUnits_drop hsplit
  refine ⟨hpos, hle, ?_⟩
  have hslice : (fun u : NalUnit => u.isSlice) ∘ NalUnit.shift u.stop = fun u => u.isSlice := rfl
  rw [← hafter.2, hrest, sliceUnits, List.filter_map, hslice]

end Multiview
