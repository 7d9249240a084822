import Multiview.Nal.AccessUnit
import Multiview.Proofs.Nal.Offsets

/-!
Access units as a partition of a stream. All units of the stream are divided up among them, and each
access unit is cut out so that a scan of it alone finds its units again. What makes this so is that no
access unit ends with an empty unit, which only the start code behind it can end.
-/

namespace Multiview

/-! ## Groups -/

/-- The units of one access unit: there are some, and behind a slice there are only extension slices. -/
structure FormsAccessUnit (g : List NalUnit) : Prop where
  ne_nil : g ≠ []
  behind_slice : g.Pairwise fun u v => u.isSlice = true → v.isExtensionSlice = true

/-- The units of the access units of a stream. All have a slice but possibly the last one, and none goes on
with the extension slices of the one before. -/
structure FormAccessUnits (groups : List (List NalUnit)) : Prop where
  each : ∀ g ∈ groups, FormsAccessUnit g
  slice : ∀ g ∈ groups.dropLast, ∃ u ∈ g, u.isSlice = true
  opening : ∀ g ∈ groups.tail, ∀ u ∈ g.head?, u.isExtensionSlice = false

theorem isSlice_of_isExtensionSlice {u : NalUnit} (h : u.isExtensionSlice = true) :
    u.isSlice = true := by
  unfold NalUnit.isSlice NalType.isSlice
  rw [Bool.or_eq_true]
  exact .inr h

theorem formsAccessUnit_singleton (u : NalUnit) : FormsAccessUnit [u] :=
  ⟨List.cons_ne_nil u [], List.pairwise_singleton _ u⟩

/-- A unit goes with the ones before if there is no slice among them or if it is an extension slice. -/
theorem FormsAccessUnit.concat {g : List NalUnit} {u : NalUnit} (h : FormsAccessUnit g)
    (hu : (∃ v ∈ g, v.isSlice = true) → u.isExtensionSlice = true) : FormsAccessUnit (g ++ [u]) where
  ne_nil := List.append_ne_nil_of_left_ne_nil h.ne_nil _
  behind_slice := by
    rw [List.pairwise_append]
    refine ⟨h.behind_slice, List.pairwise_singleton _ u, fun v hv w hw hslice => ?_⟩
    rw [List.mem_singleton.mp hw]
    exact hu ⟨v, hv, hslice⟩

/-- Units that have been grouped so far stay together at the front, and the others follow in order. -/
theorem groupUnits_forms (us : List NalUnit) {group : List NalUnit} {hasSlice : Bool}
    (hgroup : FormsAccessUnit group.reverse)
    (hslice : hasSlice = true ↔ ∃ u ∈ group, u.isSlice = true) :
    ∃ more later, groupUnits group hasSlice us = (group.reverse ++ more) :: later ∧
      more ++ later.flatten = us ∧ FormAccessUnits ((group.reverse ++ more) :: later) := by
  induction us generalizing group hasSlice with
  | nil =>
    refine ⟨[], [], by rw [groupUnits, List.append_nil], rfl, ?_⟩
    rw [List.append_nil]
    exact ⟨List.forall_mem_singleton.mpr hgroup, List.forall_mem_nil _, List.forall_mem_nil _⟩
  | cons u us ih =>
    rw [groupUnits]
    split
    · rename_i hcut
      rw [Bool.and_eq_true, Bool.not_eq_true'] at hcut
      have hnew : u.isSlice = true ↔ ∃ v ∈ [u], v.isSlice = true := by simp
      obtain ⟨more, later, hgroups, hflat, hforms⟩ :=
        @ih [u] u.isSlice (formsAccessUnit_singleton u) hnew
      refine ⟨[], ([u] ++ more) :: later, ?_, ?_, ?_⟩
      · rw [hgroups, List.append_nil]
        rfl
      · rw [← hflat]
        simp
      · rw [List.append_nil]
        refine ⟨List.forall_mem_cons.mpr ⟨hgroup, hforms.each⟩, ?_, ?_⟩
        · rw [List.dropLast_cons_of_ne_nil (List.cons_ne_nil _ _), List.forall_mem_cons]
          refine ⟨?_, hforms.slice⟩
          obtain ⟨v, hv, hvs⟩ := hslice.mp hcut.1
          exact ⟨v, List.mem_reverse.mpr hv, hvs⟩
        · rw [List.tail_cons, List.forall_mem_cons]
          refine ⟨fun v hv => ?_, hforms.opening⟩
          cases hv
          exact hcut.2
    · rename_i hstay
      have hnext : (∃ v ∈ group.reverse, v.isSlice = true) → u.isExtensionSlice = true := by
        rintro ⟨v, hv, hvs⟩
        have hhas := hslice.mpr ⟨v, List.mem_reverse.mp hv, hvs⟩
        simpa [hhas] using hstay
      have hmore : (hasSlice || u.isSlice) = true ↔ ∃ v ∈ u :: group, v.isSlice = true := by
        rw [Bool.or_eq_true, hslice, List.exists_mem_cons_iff, or_comm]
      obtain ⟨more, later, hgroups, hflat, hforms⟩ :=
        @ih (u :: group) _ (List.reverse_cons ▸ hgroup.concat hnext) hmore
      have hfront : (u :: group).reverse ++ more = group.reverse ++ u :: more := by simp
      rw [hfront] at hgroups hforms
      exact ⟨u :: more, later, hgroups, by rw [← hflat, List.cons_append], hforms⟩

/-- The units of a stream are divided up among its access units. -/
theorem accessUnitGroups_forms (us : List NalUnit) :
    (accessUnitGroups us).flatten = us ∧ FormAccessUnits (accessUnitGroups us) := by
  cases us with
  | nil => exact ⟨rfl, nofun, nofun, nofun⟩
  | cons u us =>
    have hnew : u.isSlice = true ↔ ∃ v ∈ [u], v.isSlice = true := by simp
    obtain ⟨more, later, hgroups, hflat, hforms⟩ :=
      @groupUnits_forms us [u] u.isSlice (formsAccessUnit_singleton u) hnew
    rw [accessUnitGroups, hgroups]
    exact ⟨by rw [← hflat]; simp, hforms⟩

/-! ## Cutting -/

/-- The unit in a buffer without its first `n` bytes. -/
def NalUnit.rebase (n : Nat) (u : NalUnit) : NalUnit :=
  { u with start := u.start - n, pos := u.pos - n }

/-- What a unit is, wherever it is. -/
def NalUnit.content (u : NalUnit) : NalHeader × Bytes := (u.header, u.data)

section Slice

variable {bs : Bytes} {a e p : Nat} {u : NalUnit}

/-- A part of a buffer has the start codes that have one more byte in it. -/
theorem code_slice (he : e ≤ bs.length) :
    p ∈ codeOffsets (bs.slice a e) ↔ a + p + 3 < e ∧ a + p ∈ codeOffsets bs := by
  rw [code_iff_bytes, code_iff_bytes, Bytes.length_slice he]
  simp only [Bytes.getElem?_slice, ← Nat.add_assoc]
  constructor
  · rintro ⟨hlt, hbytes⟩
    rw [if_pos (by omega), if_pos (by omega), if_pos (by omega)] at hbytes
    exact ⟨by omega, by omega, hbytes⟩
  · rintro ⟨hlt, -, hbytes⟩
    rw [if_pos (by omega), if_pos (by omega), if_pos (by omega)]
    exact ⟨by omega, hbytes⟩

/-- A unit is split off in the same way from a part of the buffer that has the next start code and a byte
more, or that ends with the unit. -/
theorem NalUnit.SplitFrom.rebase (h : u.SplitFrom bs) (hcode : u.start ∈ codeOffsets bs)
    (ha : a ≤ u.start) (he : e ≤ bs.length)
    (hend : nextCode bs u.start + 3 < e ∨ u.stop = e ∧ u.data ≠ []) :
    (u.rebase a).start ∈ codeOffsets (bs.slice a e) ∧ (u.rebase a).SplitFrom (bs.slice a e) := by
  have hpos := h.pos
  have hback : a + (u.start - a) = u.start := Nat.add_sub_cancel' ha
  have hback' : a + (u.pos - a) = u.pos := by omega
  have hgt := add_three_le_nextCode hcode
  have hle := h.stop_le_next
  have hstop : u.stop = u.pos + u.data.length := rfl
  have hlong : u.pos < e := by
    rcases hend with hend | ⟨hend, hne⟩
    · omega
    · have hdata := List.length_pos_iff.mpr hne
      omega
  have hmem : u.start - a ∈ codeOffsets (bs.slice a e) := by
    rw [code_slice he, hback]
    exact ⟨by omega, hcode⟩
  -- The unit reaches to the next start code, or to the end if that one is not there any more.
  obtain ⟨next, hnext, hnexte, hstople, hwhole⟩ : ∃ next,
      nextCode (bs.slice a e) (u.start - a) = next - a ∧ next ≤ e ∧ u.stop ≤ next ∧
        Trims (bs.slice u.pos next) u.data := by
    rcases hend with hin | ⟨hend, hne⟩
    · refine ⟨nextCode bs u.start, ?_, by omega, hle, h.data⟩
      apply nextCode_of_first hmem (by omega)
      · left
        rw [code_slice he, Nat.add_sub_cancel' (by omega)]
        exact ⟨by omega, nextCode_mem hcode (by omega)⟩
      · intro r hr hlt
        have hnot := nextCode_le hcode (code_slice he |>.mp hr).2 (by omega)
        omega
    · refine ⟨e, ?_, Nat.le_refl e, Nat.le_of_eq hend, ?_⟩
      · apply nextCode_of_first hmem (by omega)
        · right
          rw [Bytes.length_slice he]
        · intro r hr hlt
          have hr := (code_slice he).mp hr
          have hnot := nextCode_le hcode hr.2 (by omega)
          omega
      · rw [← hend, (h.slice_eq hcode).1]
        exact ⟨⟨0, (List.append_nil _).symm⟩, id, h.data.last⟩
  refine ⟨hmem, ?_, ?_, ?_, ?_, ?_⟩
  · change u.pos - a = u.start - a + 3
    omega
  · change ((bs.slice a e)[u.pos - a]?).map NalHeader.parse = some u.header
    rw [Bytes.getElem?_slice, if_pos (by omega), hback']
    exact h.header
  · change Trims ((bs.slice a e).slice (u.pos - a) (nextCode (bs.slice a e) (u.start - a))) u.data
    rw [hnext, Bytes.slice_slice (by omega), hback', Nat.add_sub_cancel' (by omega)]
    exact hwhole
  · change u.pos - a + u.data.length ≤ nextCode (bs.slice a e) (u.start - a)
    omega
  · change u.pos - a + u.data.length ≤ (bs.slice a e).length
    rw [Bytes.length_slice he]
    omega

/-- Units in a row are found again between the start code of the first and the end of the last. -/
theorem startCodeUnits_groupBytes {before g after : List NalUnit} {first last : NalUnit}
    (h : startCodeUnits bs = before ++ g ++ after) (hfirst : g.head? = some first)
    (hlast : g.getLast? = some last) (hdata : last.data ≠ []) :
    startCodeUnits (groupBytes bs g) = g.map (·.rebase first.start) := by
  have hpair := pairwise_startCodeUnits bs
  rw [h, List.append_assoc, List.pairwise_append, List.pairwise_append] at hpair
  obtain ⟨-, ⟨hg, -, hafter⟩, hbefore⟩ := hpair
  have hmem : ∀ u ∈ g, u.start ∈ codeOffsets bs ∧ u.SplitFrom bs := by
    intro u hu
    apply splitFrom_of_mem
    rw [h]
    exact List.mem_append_left _ (List.mem_append_right _ hu)
  have hfrom : first ∈ g ∧ ∀ u ∈ g, first.start ≤ u.start := by
    obtain ⟨rest, rfl⟩ := List.head?_eq_some_iff.mp hfirst
    refine ⟨List.mem_cons_self, List.forall_mem_cons.mpr ⟨Nat.le_refl _, fun u hu => ?_⟩⟩
    exact Nat.le_of_lt (List.rel_of_pairwise_cons hg hu)
  have hto : last ∈ g ∧ ∀ u ∈ g, u = last ∨ u.start < last.start := by
    obtain ⟨init, rfl⟩ := List.getLast?_eq_some_iff.mp hlast
    refine ⟨List.mem_concat_self, fun u hu => ?_⟩
    rcases List.mem_append.mp hu with hu | hu
    · exact .inr ((List.pairwise_append.mp hg).2.2 u hu last (List.mem_singleton_self last))
    · exact .inl (List.mem_singleton.mp hu)
  obtain ⟨hlastcode, hlastfrom⟩ := hmem last hto.1
  have hpos := hlastfrom.pos
  have hlong := List.length_pos_iff.mpr hdata
  have hstop : last.stop = last.pos + last.data.length := rfl
  have hle := hlastfrom.stop_le_length
  have hbytes : groupBytes bs g = bs.slice first.start last.stop := by
    rw [groupBytes, hfirst, hlast]
  rw [hbytes]
  apply startCodeUnits_of_splits
  · rw [List.pairwise_map]
    refine hg.imp_of_mem fun {u v} hu hv hlt => ?_
    have hge := hfrom.2 u hu
    change u.start - first.start < v.start - first.start
    omega
  · rw [List.forall_mem_map]
    intro u hu
    obtain ⟨hcode, hsplit⟩ := hmem u hu
    apply hsplit.rebase hcode (hfrom.2 u hu) hle
    rcases hto.2 u hu with rfl | hlt
    · exact .inr ⟨rfl, hdata⟩
    · have hnext := nextCode_le hcode hlastcode hlt
      left
      omega
  · intro p hp
    obtain ⟨hlt, hcode⟩ := (code_slice hle).mp hp
    obtain ⟨u, hu, hstart⟩ := exists_unit hcode
    have hin : u ∈ g := by
      rw [h, List.append_assoc, List.mem_append, List.mem_append] at hu
      rcases hu with hu | hu | hu
      · have hless := hbefore u hu first (List.mem_append_left _ hfrom.1)
        omega
      · exact hu
      · -- It would begin behind the last unit.
        have hmore := hafter last hto.1 u hu
        have hnext := nextCode_le hlastcode hcode (by omega)
        have hend := hlastfrom.stop_le_next
        omega
    refine ⟨u.rebase first.start, List.mem_map_of_mem hin, ?_⟩
    change u.start - first.start = p
    omega

end Slice

/-! ## Access units -/

/-- A unit that a start code cuts off before its first byte is no slice. -/
theorem data_ne_nil_of_isSlice {bs : Bytes} {u : NalUnit} (h : u ∈ startCodeUnits bs)
    (hslice : u.isSlice = true) : u.data ≠ [] := by
  intro hdata
  obtain ⟨hcode, hfrom⟩ := splitFrom_of_mem h
  obtain ⟨-, -, hheader⟩ := hfrom.of_empty hcode hdata
  rw [NalUnit.isSlice, hheader] at hslice
  cases hslice

/-- The last unit of a stream is not empty, as no start code follows it. -/
theorem data_ne_nil_of_last {bs : Bytes} {u : NalUnit}
    (h : (startCodeUnits bs).getLast? = some u) : u.data ≠ [] := by
  intro hdata
  obtain ⟨init, hinit⟩ := List.getLast?_eq_some_iff.mp h
  have hpair := pairwise_startCodeUnits bs
  rw [hinit, List.pairwise_append] at hpair
  obtain ⟨hcode, hfrom⟩ := splitFrom_of_mem (List.mem_of_getLast? h)
  obtain ⟨-, hmore, -⟩ := hfrom.of_empty hcode hdata
  obtain ⟨v, hv, hstart⟩ := exists_unit hmore
  have hpos := hfrom.pos
  rw [hinit, List.mem_append, List.mem_singleton] at hv
  rcases hv with hv | rfl
  · have hless := hpair.2.2 v hv u (List.mem_singleton_self u)
    omega
  · omega

/-- The last unit of an access unit is a slice, unless it is the last one of the stream. -/
theorem data_ne_nil_of_group {bs : Bytes} {g : List NalUnit} {u : NalUnit}
    (hg : g ∈ accessUnitGroups (startCodeUnits bs)) (hu : g.getLast? = some u) : u.data ≠ [] := by
  obtain ⟨hflat, hforms⟩ := accessUnitGroups_forms (startCodeUnits bs)
  obtain ⟨init, rfl⟩ := List.getLast?_eq_some_iff.mp hu
  have hmem : u ∈ startCodeUnits bs := by
    rw [← hflat]
    exact List.mem_flatten_of_mem hg List.mem_concat_self
  have hne := List.ne_nil_of_mem hg
  by_cases hlast : init ++ [u] = (accessUnitGroups (startCodeUnits bs)).getLast hne
  · apply @data_ne_nil_of_last bs
    rw [← hflat, ← List.dropLast_append_getLast hne, ← hlast, List.flatten_append,
      List.flatten_singleton, ← List.append_assoc]
    exact List.getLast?_concat
  · obtain ⟨v, hv, hslice⟩ := hforms.slice _ (List.mem_dropLast_of_mem_of_ne_getLast hg hlast)
    apply data_ne_nil_of_isSlice hmem
    rcases List.mem_append.mp hv with hv | hv
    · have hbehind := (List.pairwise_append.mp (hforms.each _ hg).behind_slice).2.2
      exact isSlice_of_isExtensionSlice (hbehind v hv u (List.mem_singleton_self u) hslice)
    · rwa [← List.mem_singleton.mp hv]

/-- Offset of the first unit of a group. -/
def groupStart (g : List NalUnit) : Nat := (g.head?.map (·.start)).getD 0

/-- Each access unit has the units of its group. -/
theorem finds_groupBytes {bs : Bytes} {g : List NalUnit}
    (hg : g ∈ accessUnitGroups (startCodeUnits bs)) :
    Finds .startCodes (groupBytes bs g) (g.map (·.rebase (groupStart g))) := by
  obtain ⟨hflat, hforms⟩ := accessUnitGroups_forms (startCodeUnits bs)
  have hne := (hforms.each g hg).ne_nil
  have hfirst := List.head?_eq_some_head hne
  have hlast := List.getLast?_eq_some_getLast hne
  obtain ⟨before, after, hsplit⟩ := List.append_of_mem hg
  have hunits : startCodeUnits bs = before.flatten ++ g ++ after.flatten := by
    rw [← hflat, hsplit, List.flatten_append, List.flatten_cons, List.append_assoc]
  have hstart : groupStart g = (g.head hne).start := by
    rw [groupStart, hfirst]
    rfl
  rw [hstart, ← startCodeUnits_groupBytes hunits hfirst hlast (data_ne_nil_of_group hg hlast)]
  exact finds_startCodeUnits _

/-- Only the headers of the units make them an access unit. -/
theorem FormAccessUnits.rebase {groups : List (List NalUnit)} (h : FormAccessUnits groups)
    (n : List NalUnit → Nat) : FormAccessUnits (groups.map fun g => g.map (·.rebase (n g))) where
  each := List.forall_mem_map.mpr fun g hg =>
    ⟨mt List.map_eq_nil_iff.mp (h.each g hg).ne_nil, List.pairwise_map.mpr (h.each g hg).behind_slice⟩
  slice := by
    rw [← List.map_dropLast, List.forall_mem_map]
    intro g hg
    obtain ⟨u, hu, hslice⟩ := h.slice g hg
    exact ⟨u.rebase (n g), List.mem_map_of_mem hu, hslice⟩
  opening := by
    rw [← List.map_tail, List.forall_mem_map]
    intro g hg u hu
    rw [List.head?_map, Option.mem_def, Option.map_eq_some_iff] at hu
    obtain ⟨v, hv, rfl⟩ := hu
    exact h.opening g hg v hv

/-- Scanned one by one, the access units of a stream have its units, each once and in order, with the same
headers and data. -/
theorem accessUnits_partition (s : Bytes) :
    ∃ us groups, Finds .startCodes s us ∧ List.Forall₂ (Finds .startCodes) (accessUnits s) groups ∧
      groups.flatten.map NalUnit.content = us.map NalUnit.content ∧ FormAccessUnits groups := by
  obtain ⟨hflat, hforms⟩ := accessUnitGroups_forms (startCodeUnits s)
  refine ⟨startCodeUnits s, (accessUnitGroups (startCodeUnits s)).map fun g =>
    g.map (·.rebase (groupStart g)), finds_startCodeUnits s, ?_, ?_, hforms.rebase groupStart⟩
  · rw [accessUnits, List.forall₂_map_left_iff, List.forall₂_map_right_iff, List.forall₂_same]
    exact fun g hg => finds_groupBytes hg
  · have hcontent : ∀ g : List NalUnit,
        (g.map (·.rebase (groupStart g))).map NalUnit.content = g.map NalUnit.content := by
      intro g
      rw [List.map_map]
      rfl
    rw [List.map_flatten, List.map_map, funext (f := List.map NalUnit.content ∘ _) hcontent,
      ← List.map_flatten, hflat]

/-- An empty unit and a parameter set go with the slice behind them, and the zero bytes at the cut with
neither access unit. -/
example : accessUnits [0, 0, 1, 0, 0, 1, 0x67, 0, 0, 1, 0x65, 0, 0, 0, 0, 1, 0x41, 0, 0, 1] =
    [[0, 0, 1, 0, 0, 1, 0x67, 0, 0, 1, 0x65], [0, 0, 1, 0x41, 0, 0, 1]] := by
  decide

end Multiview
