import Mathlib.Data.List.Sort
import Multiview.Proofs.Nal.Visits
import Multiview.Proofs.Nal.Written

/-!
The units between start codes, told from the bytes alone. There is one for every offset at which a start
code has a byte behind it, and it reaches to the next such offset, or to the end, but for the zero bytes
there. A scan finds these units and no others.
-/

namespace Multiview

/-- Offsets of the start codes with at least one byte behind them. -/
def codeOffsets (bs : Bytes) : List Nat :=
  (List.range bs.length).filter fun p => p + 3 < bs.length ∧ bs.slice p (p + 3) = [0, 0, 1]

/-- Offset of the first start code behind `p`, or of the end. -/
def nextCode (bs : Bytes) (p : Nat) : Nat := ((codeOffsets bs).find? (p < ·)).getD bs.length

/-- `data` is `whole` without the zero bytes at its end, as long as there is more than one byte. -/
structure Trims (whole data : Bytes) : Prop where
  zeros : ∃ n, whole = data ++ List.replicate n 0
  first : whole ≠ [] → data ≠ []
  last : 1 < data.length → data.getLast? ≠ some 0

/-- The unit behind a start code of a buffer. -/
structure NalUnit.SplitFrom (bs : Bytes) (u : NalUnit) : Prop where
  pos : u.pos = u.start + 3
  header : bs[u.pos]?.map NalHeader.parse = some u.header
  data : Trims (bs.slice u.pos (nextCode bs u.start)) u.data
  stop_le_next : u.stop ≤ nextCode bs u.start
  stop_le_length : u.stop ≤ bs.length

/-! ## Start codes -/

theorem beginsUnit_drop {bs : Bytes} {p : Nat} :
    beginsUnit (bs.drop p) = true ↔ p + 3 < bs.length ∧ bs.slice p (p + 3) = [0, 0, 1] := by
  have hlen : p + 3 < bs.length ↔ 3 < (bs.drop p).length := by
    rw [List.length_drop]
    omega
  rw [hlen, Bytes.slice, Nat.add_sub_cancel_left]
  generalize bs.drop p = rest
  rcases rest with _ | ⟨a, _ | ⟨b, _ | ⟨c, _ | ⟨d, rest⟩⟩⟩⟩ <;> simp [beginsUnit, and_assoc]

theorem mem_codeOffsets {bs : Bytes} {p : Nat} :
    p ∈ codeOffsets bs ↔ beginsUnit (bs.drop p) = true := by
  rw [beginsUnit_drop, codeOffsets, List.mem_filter, List.mem_range, decide_eq_true_iff]
  constructor
  · exact And.right
  · intro h
    exact ⟨by omega, h⟩

theorem pairwise_codeOffsets (bs : Bytes) : (codeOffsets bs).Pairwise (· < ·) :=
  List.pairwise_lt_range.filter _

/-- Start codes do not overlap. -/
theorem codeOffsets_apart {bs : Bytes} {p q : Nat} (hp : p ∈ codeOffsets bs)
    (hq : q ∈ codeOffsets bs) (hlt : p < q) : p + 3 ≤ q := by
  rw [mem_codeOffsets] at hp hq
  obtain ⟨rest, hrest⟩ := beginsUnit_eq_true hp
  have hdrop : bs.drop q = (0 :: 0 :: 1 :: rest : Bytes).drop (q - p) := by
    rw [← hrest, List.drop_drop]
    congr 1
    omega
  rw [hdrop] at hq
  by_contra hge
  have hcases : q - p = 1 ∨ q - p = 2 := by omega
  rcases hcases with h | h
  · rw [h] at hq
    obtain ⟨behind, hb⟩ := beginsUnit_eq_true hq
    simp at hb
  · rw [h] at hq
    obtain ⟨behind, hb⟩ := beginsUnit_eq_true hq
    simp at hb

theorem not_begins_before_gap {bs : Bytes} {k : Nat} (h : k < gap bs) :
    beginsUnit (bs.drop k) = false := by
  induction bs generalizing k with
  | nil => simp [gap] at h
  | cons b rest ih =>
    by_cases hb : beginsUnit (b :: rest) = true
    · simp [gap, hb] at h
    · cases k with
      | zero => simpa using hb
      | succ k =>
        apply ih
        simp only [gap, hb, Bool.false_eq_true, if_false] at h
        omega

theorem begins_at_gap {bs : Bytes} (h : gap bs < bs.length) :
    beginsUnit (bs.drop (gap bs)) = true := by
  induction bs with
  | nil => simp at h
  | cons b rest ih =>
    by_cases hb : beginsUnit (b :: rest) = true
    · simp [gap, hb]
    · simp only [gap, hb, Bool.false_eq_true, if_false, List.length_cons] at h ⊢
      exact ih (by omega)

section Search

variable {bs : Bytes} {n p : Nat}

/-- No start code is passed over, -/
theorem gap_le_of_code (hp : p ∈ codeOffsets bs) (hnp : n ≤ p) : n + gap (bs.drop n) ≤ p := by
  by_contra hlt
  have hnot := @not_begins_before_gap (bs.drop n) (p - n) (by omega)
  rw [List.drop_drop, Nat.add_sub_cancel' hnp, mem_codeOffsets.mp hp] at hnot
  cases hnot

/-- and the search stops at one, unless it comes to the end. -/
theorem code_at_gap (h : n + gap (bs.drop n) < bs.length) :
    n + gap (bs.drop n) ∈ codeOffsets bs := by
  have hbegins := @begins_at_gap (bs.drop n) (by rw [List.length_drop]; omega)
  rw [List.drop_drop] at hbegins
  exact mem_codeOffsets.mpr hbegins

theorem find?_codeOffsets {behind : Nat → Bool} (hn : n ≤ bs.length)
    (hbehind : ∀ p ∈ codeOffsets bs, behind p = true ↔ n ≤ p) :
    ((codeOffsets bs).find? behind).getD bs.length = n + gap (bs.drop n) := by
  have hle := gap_le_length (bs.drop n)
  rw [List.length_drop] at hle
  cases hfind : (codeOffsets bs).find? behind with
  | none =>
    have hnone := List.find?_eq_none.mp hfind
    rw [Option.getD_none]
    by_contra hne
    have hcode : n + gap (bs.drop n) ∈ codeOffsets bs := code_at_gap (by omega)
    exact hnone _ hcode ((hbehind _ hcode).mpr (by omega))
  | some q =>
    obtain ⟨hq, front, back, hsplit, hfront⟩ := List.find?_eq_some_iff_append.mp hfind
    have hmem : q ∈ codeOffsets bs := List.mem_of_find?_eq_some hfind
    have hge := gap_le_of_code hmem ((hbehind q hmem).mp hq)
    have hlt := (beginsUnit_drop.mp (mem_codeOffsets.mp hmem)).1
    have hcode : n + gap (bs.drop n) ∈ codeOffsets bs := code_at_gap (by omega)
    have hmatch := (hbehind _ hcode).mpr (by omega)
    have hpair := pairwise_codeOffsets bs
    rw [hsplit, List.pairwise_append, List.pairwise_cons] at hpair
    rw [Option.getD_some]
    -- A code in front of `q` would have been found before it.
    rw [hsplit, List.mem_append, List.mem_cons] at hcode
    rcases hcode with hin | heq | hin
    · have hnot := hfront _ hin
      simp [hmatch] at hnot
    · exact heq.symm
    · have hless := hpair.2.1.1 _ hin
      omega

end Search

theorem nextCode_eq {bs : Bytes} {p : Nat} (hp : p ∈ codeOffsets bs) :
    nextCode bs p = p + 3 + gap (bs.drop (p + 3)) := by
  have hlt := (beginsUnit_drop.mp (mem_codeOffsets.mp hp)).1
  apply find?_codeOffsets (Nat.le_of_lt hlt)
  intro q hq
  have hapart := codeOffsets_apart hp hq
  rw [decide_eq_true_iff]
  constructor
  · exact hapart
  · omega

/-! ## Units -/

theorem trims_trimZeros (bs : Bytes) : Trims bs (trimZeros bs) where
  zeros := trimZeros_append_zeros bs
  first := by
    intro h
    cases bs with
    | nil => exact h
    | cons b rest => simp [trimZeros]
  last := by
    cases bs with
    | nil => simp [trimZeros]
    | cons b rest =>
      intro hlen hlast
      have hne : rest.reverse.dropWhile (· == 0) ≠ [] := by
        intro hnil
        simp [trimZeros, hnil] at hlen
      obtain ⟨c, kept, hkept⟩ := List.exists_cons_of_ne_nil hne
      have hc := List.head_dropWhile_not (p := (· == (0 : UInt8))) hne
      have hend : (b :: (kept.reverse ++ [c])).getLast? = some c := by
        rw [← List.cons_append, List.getLast?_concat]
      simp only [hkept, List.head_cons] at hc
      simp only [trimZeros, hkept, List.reverse_cons, hend, Option.some.injEq] at hlast
      simp [hlast] at hc

theorem Trims.length_le {whole data : Bytes} (h : Trims whole data) :
    data.length ≤ whole.length := by
  obtain ⟨n, rfl⟩ := h.zeros
  simp

section Found

variable {bs : Bytes} {c c' : Cursor} {u : NalUnit}

theorem startCodeUnit?_eq_none (hc : c.In bs) :
    startCodeUnit? c = none ↔ bs.length ≤ c.offset + 3 := by
  rw [startCodeUnit?_eq, hc, List.drop_drop, ← List.drop_eq_nil_iff]
  cases bs.drop (c.offset + 3) <;> simp

/-- The unit at a start code is the one that is split off there. -/
theorem startCodeUnit?_splits (h : startCodeUnit? c = some (u, c')) (hc : c.In bs)
    (hcode : c.offset ∈ codeOffsets bs) :
    u.start = c.offset ∧ u.SplitFrom bs ∧
      c' = seekStartCode (c.offset + 3) (bs.drop (c.offset + 3)) := by
  have hnext := nextCode_eq hcode
  have hbody : c.rest.drop 3 = bs.drop (c.offset + 3) := by rw [hc, List.drop_drop]
  obtain ⟨hstart, hpos, hstop, hle, -⟩ := startCodeUnit?_found h hc
  rw [startCodeUnit?_eq, hbody] at h
  rw [seekStartCode_eq]
  generalize hb : bs.drop (c.offset + 3) = body at h hnext
  cases body with
  | nil => cases h
  | cons head tail =>
    obtain ⟨hu, hc'⟩ := Prod.mk.inj (Option.some.inj h)
    have hoff : c'.offset = nextCode bs u.start := by rw [hstart, hnext, ← hc']
    refine ⟨hstart, ⟨by rw [hpos, hstart], ?_, ?_, hoff ▸ hstop, Nat.le_trans hstop hle⟩, hc'.symm⟩
    · have hhead : bs[c.offset + 3]? = some head := by
        rw [← List.head?_drop, hb]
        rfl
      rw [hpos, hhead, ← hu]
      rfl
    · have hslice : bs.slice (c.offset + 3) (nextCode bs c.offset) =
          (head :: tail).take (gap (head :: tail)) := by
        rw [Bytes.slice, hb, hnext, Nat.add_sub_cancel_left]
      rw [hstart, hpos, hslice, ← hu]
      exact trims_trimZeros _

end Found

namespace Scans

variable {bs : Bytes} {us : List NalUnit} {n : Nat}

/-- A scan from `n` on finds the units of all start codes there, each behind the one before. -/
theorem splits {c : Cursor} (h : Scans c us) (hn : n ≤ bs.length)
    (hc : c = seekStartCode n (bs.drop n)) :
    (∀ p ∈ codeOffsets bs, n ≤ p → ∃ u ∈ us, u.start = p) ∧
      (∀ u ∈ us, n ≤ u.start ∧ u.start ∈ codeOffsets bs ∧ u.SplitFrom bs) ∧
      us.Pairwise fun u v => u.start < v.start ∧ u.stop ≤ v.start := by
  induction h generalizing n with
  | @done c h =>
    have hin : c.In bs := hc ▸ Cursor.in_seekStartCode bs n
    have hend := (startCodeUnit?_eq_none hin).mp h
    refine ⟨fun p hp hnp => ?_, nofun, List.Pairwise.nil⟩
    have hge := gap_le_of_code hp hnp
    have hlt := (beginsUnit_drop.mp (mem_codeOffsets.mp hp)).1
    rw [hc, seekStartCode_eq] at hend
    simp only at hend
    omega
  | @unit c c' u us h _ ih =>
    have hin : c.In bs := hc ▸ Cursor.in_seekStartCode bs n
    have hlt : c.offset + 3 < bs.length := by
      by_contra hge
      rw [(startCodeUnit?_eq_none hin).mpr (by omega)] at h
      cases h
    have hoff : c.offset = n + gap (bs.drop n) := by rw [hc, seekStartCode_eq]
    have hcode : c.offset ∈ codeOffsets bs := by
      rw [hoff] at hlt ⊢
      exact code_at_gap (by omega)
    obtain ⟨hstart, hsplit, hc'⟩ := startCodeUnit?_splits h hin hcode
    obtain ⟨-, -, hstop, -⟩ := startCodeUnit?_found h hin
    obtain ⟨hall, hunits, hpair⟩ := ih (Nat.le_of_lt hlt) hc'
    have hnext : ∀ v ∈ us, u.stop ≤ v.start := by
      intro v hv
      have hge := gap_le_of_code (hunits v hv).2.1 (hunits v hv).1
      have hoff' : c'.offset = c.offset + 3 + gap (bs.drop (c.offset + 3)) := by
        rw [hc', seekStartCode_eq]
      omega
    refine ⟨fun p hp hnp => ?_, fun v hv => ?_, List.pairwise_cons.mpr ⟨fun v hv => ?_, hpair⟩⟩
    · have hge := gap_le_of_code hp hnp
      rcases Nat.eq_or_lt_of_le hge with heq | hgt
      · exact ⟨u, List.mem_cons_self, by omega⟩
      · have hapart := codeOffsets_apart hcode hp (by omega)
        obtain ⟨v, hv, hvp⟩ := hall p hp hapart
        exact ⟨v, List.mem_cons_of_mem u hv, hvp⟩
    · rcases List.mem_cons.mp hv with rfl | hv
      · exact ⟨by omega, hstart ▸ hcode, hsplit⟩
      · obtain ⟨hge, hvcode, hvsplit⟩ := hunits v hv
        exact ⟨by omega, hvcode, hvsplit⟩
    · have hge := (hunits v hv).1
      exact ⟨by omega, hnext v hv⟩

end Scans

/-- A scan splits the buffer at its start codes: the units begin at their offsets, in order, and reach to
the next one but for the zero bytes in between. -/
theorem finds_split (bs : Bytes) :
    ∃ us, Finds .startCodes bs us ∧ us.map (·.start) = codeOffsets bs ∧
      (∀ u ∈ us, u.SplitFrom bs) ∧ us.Pairwise fun u v => u.stop ≤ v.start := by
  have hscans := scans_startCodeUnits bs
  obtain ⟨hall, hunits, hpair⟩ := hscans.splits (Nat.zero_le _) rfl
  refine ⟨startCodeUnits bs, finds_startCodeUnits bs, ?_, fun u hu => (hunits u hu).2.2,
    hpair.imp And.right⟩
  apply List.Pairwise.eq_of_mem_iff (List.pairwise_map.mpr (hpair.imp And.left))
    (pairwise_codeOffsets bs)
  intro p
  rw [List.mem_map]
  constructor
  · rintro ⟨u, hu, rfl⟩
    exact (hunits u hu).2.1
  · intro hp
    exact hall p hp (Nat.zero_le p)

/-- The first unit keeps its only byte, and a start code at the very end belongs to the unit before. -/
example : (startCodeUnits [0, 0, 1, 0, 0, 0, 1, 0x65, 0, 0, 1]).map (fun u => (u.start, u.data)) =
    [(0, [0]), (4, [0x65, 0, 0, 1])] := by
  decide

end Multiview
