import Multiview.Proofs.Nal.Split

/-!
Units told by their offsets. A start code is three bytes and one more behind them, and a unit is known by
the offset of its start code. So a list of units is the list that a scan finds as soon as it has one for
every start code, in order, each split off there.
-/

namespace Multiview

/-! ## Parts of a buffer -/

namespace Bytes

variable {bs bs' : Bytes} {a b c : Nat}

theorem getElem?_slice (bs : Bytes) (a b i : Nat) :
    (bs.slice a b)[i]? = if a + i < b then bs[a + i]? else none := by
  rw [slice, List.getElem?_take, List.getElem?_drop]
  by_cases h : a + i < b
  · rw [if_pos h, if_pos (by omega)]
  · rw [if_neg h, if_neg (by omega)]

theorem length_slice (h : b ≤ bs.length) : (bs.slice a b).length = b - a := by
  rw [slice, List.length_take, List.length_drop]
  omega

theorem slice_append (hab : a ≤ b) (hbc : b ≤ c) : bs.slice a b ++ bs.slice b c = bs.slice a c := by
  have hsplit : c - a = (b - a) + (c - b) := by omega
  have hmid : a + (b - a) = b := by omega
  rw [slice, slice, slice, hsplit, List.take_add, List.drop_drop, hmid]

theorem slice_congr (h : ∀ i, a ≤ i → i < b → bs[i]? = bs'[i]?) : bs.slice a b = bs'.slice a b := by
  apply List.ext_getElem?
  intro i
  rw [getElem?_slice, getElem?_slice]
  split
  · exact h (a + i) (by omega) ‹_›
  · rfl

theorem slice_slice (h : a + c ≤ b) (i : Nat) : (bs.slice a b).slice i c = bs.slice (a + i) (a + c) := by
  apply List.ext_getElem?
  intro j
  simp only [getElem?_slice, Nat.add_assoc]
  split
  · rw [if_pos (by omega), if_pos (by omega)]
  · rw [if_neg (by omega)]

theorem slice_zeros (h : ∀ i, a ≤ i → i < b → bs[i]? = some 0) :
    bs.slice a b = List.replicate (b - a) 0 := by
  apply List.ext_getElem?
  intro i
  rw [getElem?_slice, List.getElem?_replicate]
  by_cases hi : a + i < b
  · rw [if_pos hi, if_pos (by omega), h (a + i) (by omega) hi]
  · rw [if_neg hi, if_neg (by omega)]

end Bytes

/-! ## Start codes -/

theorem code_iff_bytes {bs : Bytes} {p : Nat} :
    p ∈ codeOffsets bs ↔
      p + 3 < bs.length ∧ bs[p]? = some 0 ∧ bs[p + 1]? = some 0 ∧ bs[p + 2]? = some 1 := by
  rw [mem_codeOffsets, beginsUnit_drop]
  refine and_congr_right fun hlt => ?_
  have hlen : (bs.slice p (p + 3)).length = 3 := by
    rw [Bytes.length_slice (by omega)]
    omega
  have hbyte : ∀ i < 3, (bs.slice p (p + 3))[i]? = bs[p + i]? := by
    intro i hi
    rw [Bytes.getElem?_slice, if_pos (by omega)]
  rw [← hbyte 1 (by omega), ← hbyte 2 (by omega), ← Nat.add_zero p, ← hbyte 0 (by omega),
    Nat.add_zero]
  generalize bs.slice p (p + 3) = code at hlen
  match code, hlen with
  | [a, b, c], _ => simp

section Next

variable {bs : Bytes} {p q : Nat}

theorem add_three_le_nextCode (hp : p ∈ codeOffsets bs) : p + 3 ≤ nextCode bs p := by
  rw [nextCode_eq hp]
  omega

theorem nextCode_le_length (hp : p ∈ codeOffsets bs) : nextCode bs p ≤ bs.length := by
  have hlt := (code_iff_bytes.mp hp).1
  have hgap := gap_le_length (bs.drop (p + 3))
  rw [List.length_drop] at hgap
  rw [nextCode_eq hp]
  omega

theorem nextCode_le (hp : p ∈ codeOffsets bs) (hq : q ∈ codeOffsets bs) (hlt : p < q) :
    nextCode bs p ≤ q := by
  rw [nextCode_eq hp]
  exact gap_le_of_code hq (codeOffsets_apart hp hq hlt)

theorem nextCode_mem (hp : p ∈ codeOffsets bs) (h : nextCode bs p < bs.length) :
    nextCode bs p ∈ codeOffsets bs := by
  rw [nextCode_eq hp] at h ⊢
  exact code_at_gap h

theorem nextCode_of_first (hp : p ∈ codeOffsets bs) (hlt : p < q)
    (hq : q ∈ codeOffsets bs ∨ q = bs.length) (hfirst : ∀ r ∈ codeOffsets bs, p < r → q ≤ r) :
    nextCode bs p = q := by
  have hge : q ≤ nextCode bs p := by
    have hgt := add_three_le_nextCode hp
    rcases Nat.lt_or_ge (nextCode bs p) bs.length with hin | hend
    · exact hfirst _ (nextCode_mem hp hin) (by omega)
    · rcases hq with hq | hq
      · have hin := (code_iff_bytes.mp hq).1
        omega
      · omega
  rcases hq with hq | rfl
  · exact Nat.le_antisymm (nextCode_le hp hq hlt) hge
  · exact Nat.le_antisymm (nextCode_le_length hp) hge

/-- A place behind a start code belongs to the last start code before it. -/
theorem exists_code_around {i : Nat} (hp : p ∈ codeOffsets bs) (hpi : p ≤ i) (hi : i < bs.length) :
    ∃ e ∈ codeOffsets bs, p ≤ e ∧ e ≤ i ∧ i < nextCode bs e := by
  induction hn : i - p using Nat.strongRecOn generalizing p with
  | ind n ih =>
    by_cases hnext : i < nextCode bs p
    · exact ⟨p, hp, Nat.le_refl p, hpi, hnext⟩
    · have hgt := add_three_le_nextCode hp
      obtain ⟨e, he, hle, hei, hlt⟩ :=
        ih (i - nextCode bs p) (by omega) (nextCode_mem hp (by omega)) (by omega) rfl
      exact ⟨e, he, by omega, hei, hlt⟩

end Next

/-! ## Units -/

/-- Only one part of the bytes is what is left of them without the zero bytes at their end. -/
theorem Trims.unique {whole data data' : Bytes} (h : Trims whole data) (h' : Trims whole data') :
    data = data' := by
  -- The longer of two such parts ends with a zero byte that it should not have.
  have hshort : ∀ {d d' : Bytes}, Trims whole d → Trims whole d' → ¬ d.length < d'.length := by
    intro d d' hd hd' hlt
    obtain ⟨n, hn⟩ := hd.zeros
    obtain ⟨m, hm⟩ := hd'.zeros
    have hlen := congrArg List.length (hn.symm.trans hm)
    simp only [List.length_append, List.length_replicate] at hlen
    have hne : d ≠ [] := by
      apply hd.first
      rw [hm]
      apply List.append_ne_nil_of_left_ne_nil
      apply List.ne_nil_of_length_pos
      omega
    have hpos := List.length_pos_iff.mpr hne
    have hzero : d'.getLast? = some 0 := by
      have hbyte : whole[d'.length - 1]? = d'[d'.length - 1]? := by
        rw [hm, List.getElem?_append_left (by omega)]
      rw [List.getLast?_eq_getElem?, ← hbyte, hn, List.getElem?_append_right (by omega),
        List.getElem?_replicate, if_pos (by omega)]
    exact hd'.last (by omega) hzero
  obtain ⟨n, hn⟩ := h.zeros
  obtain ⟨m, hm⟩ := h'.zeros
  have hlen : data.length = data'.length :=
    Nat.le_antisymm (Nat.le_of_not_lt (hshort h' h)) (Nat.le_of_not_lt (hshort h h'))
  exact (List.append_inj (hn.symm.trans hm) hlen).1

namespace NalUnit.SplitFrom

variable {bs : Bytes} {u v : NalUnit}

theorem unique (hu : u.SplitFrom bs) (hv : v.SplitFrom bs) (h : u.start = v.start) : u = v := by
  have hpos : u.pos = v.pos := by rw [hu.pos, hv.pos, h]
  have hheader := hu.header
  rw [hpos, hv.header, Option.some.injEq] at hheader
  have hdata := hu.data
  rw [hpos, h] at hdata
  have hsame := hdata.unique hv.data
  cases u
  cases v
  simp only at h hpos hheader hsame
  rw [h, hpos, hheader, hsame]

theorem pos_le_next (h : u.SplitFrom bs) : u.pos ≤ nextCode bs u.start :=
  Nat.le_trans (Nat.le_add_right u.pos u.data.length) h.stop_le_next

/-- The data of a unit and the zero bytes behind it. -/
theorem slice_eq (h : u.SplitFrom bs) (hcode : u.start ∈ codeOffsets bs) :
    bs.slice u.pos u.stop = u.data ∧
      ∀ i, u.stop ≤ i → i < nextCode bs u.start → bs[i]? = some 0 := by
  obtain ⟨n, hn⟩ := h.data.zeros
  have hbyte : ∀ i, (u.data ++ List.replicate n 0)[i]? =
      if u.pos + i < nextCode bs u.start then bs[u.pos + i]? else none := by
    intro i
    rw [← hn, Bytes.getElem?_slice]
  have hlen := congrArg List.length hn
  rw [Bytes.length_slice (nextCode_le_length hcode), List.length_append, List.length_replicate] at hlen
  have hle := h.stop_le_next
  unfold NalUnit.stop at hle ⊢
  constructor
  · apply List.ext_getElem?
    intro i
    have hi := hbyte i
    rw [Bytes.getElem?_slice]
    split
    · rw [List.getElem?_append_left (by omega), if_pos (by omega)] at hi
      exact hi.symm
    · exact (List.getElem?_eq_none (by omega)).symm
  · intro i hge hlt
    have hi := hbyte (i - u.pos)
    rw [List.getElem?_append_right (by omega), List.getElem?_replicate, if_pos (by omega),
      if_pos (by omega)] at hi
    rw [hi]
    congr 1
    omega

/-- A unit without data is cut off by the next start code, and its header byte is zero. -/
theorem of_empty (h : u.SplitFrom bs) (hcode : u.start ∈ codeOffsets bs) (hdata : u.data = []) :
    nextCode bs u.start = u.pos ∧ u.pos ∈ codeOffsets bs ∧ u.header = NalHeader.parse 0 := by
  have hlt := (code_iff_bytes.mp hcode).1
  have hpos := h.pos
  have hnext : nextCode bs u.start = u.pos := by
    have hge := h.pos_le_next
    by_contra hne
    apply h.data.first _ hdata
    apply List.ne_nil_of_length_pos
    rw [Bytes.length_slice (nextCode_le_length hcode)]
    omega
  have hmem : u.pos ∈ codeOffsets bs := hnext ▸ nextCode_mem hcode (by omega)
  refine ⟨hnext, hmem, ?_⟩
  have hheader := h.header
  rw [(code_iff_bytes.mp hmem).2.1, Option.map_some, Option.some.injEq] at hheader
  exact hheader.symm

end NalUnit.SplitFrom

/-! ## Scans -/

section Scan

variable {bs : Bytes} {us : List NalUnit} {u : NalUnit} {p : Nat}

theorem splitFrom_of_mem (h : u ∈ startCodeUnits bs) :
    u.start ∈ codeOffsets bs ∧ u.SplitFrom bs :=
  ((scans_startCodeUnits bs).splits (Nat.zero_le _) rfl).2.1 u h |>.2

theorem exists_unit (h : p ∈ codeOffsets bs) : ∃ u ∈ startCodeUnits bs, u.start = p :=
  ((scans_startCodeUnits bs).splits (Nat.zero_le _) rfl).1 p h (Nat.zero_le p)

theorem pairwise_startCodeUnits (bs : Bytes) :
    (startCodeUnits bs).Pairwise fun u v => u.start < v.start :=
  ((scans_startCodeUnits bs).splits (Nat.zero_le _) rfl).2.2.imp And.left

/-- A scan finds no other units than those that are split off at the start codes, in order. -/
theorem startCodeUnits_of_splits (hpair : us.Pairwise fun u v => u.start < v.start)
    (hsplit : ∀ u ∈ us, u.start ∈ codeOffsets bs ∧ u.SplitFrom bs)
    (hall : ∀ p ∈ codeOffsets bs, ∃ u ∈ us, u.start = p) : startCodeUnits bs = us := by
  have hmem : ∀ u, u ∈ startCodeUnits bs ↔ u ∈ us := by
    intro u
    constructor
    · intro hu
      obtain ⟨hcode, hfrom⟩ := splitFrom_of_mem hu
      obtain ⟨v, hv, hstart⟩ := hall u.start hcode
      rw [← (hsplit v hv).2.unique hfrom hstart]
      exact hv
    · intro hu
      obtain ⟨hcode, hfrom⟩ := hsplit u hu
      obtain ⟨v, hv, hstart⟩ := exists_unit hcode
      rw [← (splitFrom_of_mem hv).2.unique hfrom hstart]
      exact hv
  have : Std.Asymm fun u v : NalUnit => u.start < v.start := ⟨fun _ _ => Nat.lt_asymm⟩
  exact (pairwise_startCodeUnits bs).eq_of_mem_iff hpair hmem

theorem Finds.eq_startCodeUnits (h : Finds .startCodes bs us) : us = startCodeUnits bs :=
  Except.ok.inj (h.all.symm.trans (finds_startCodeUnits bs).all)

end Scan

end Multiview
