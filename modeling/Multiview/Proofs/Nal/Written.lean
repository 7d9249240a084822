import Multiview.Nal.AccessUnit
import Multiview.Proofs.Nal.Scan

/-!
Streams as they are written: unit after unit, each behind a start code and any number of zero bytes. A
scan finds the units that were written, and cutting the stream into access units gives back the access
units that were written.
-/

namespace Multiview

/-- A unit to be written, and the number of zero bytes in front of its start code. -/
structure FramedUnit where
  zeros : Nat := 0
  data : Bytes
  deriving DecidableEq, Repr

namespace FramedUnit

def bytes (u : FramedUnit) : Bytes := List.replicate u.zeros 0 ++ ([0, 0, 1] ++ u.data)

def header (u : FramedUnit) : NalHeader := NalHeader.parse (u.data.headD 0)

/-- Not empty, no start code within, and no zero byte at the end. -/
structure Proper (u : FramedUnit) : Prop where
  ne_nil : u.data ≠ []
  code_free : ¬ [0, 0, 1] <:+: u.data
  last : u.data.getLast? ≠ some 0

/-- The unit as a scan finds it at an offset. -/
def placed (offset : Nat) (u : FramedUnit) : NalUnit :=
  ⟨u.header, offset + u.zeros, offset + u.zeros + 3, u.data⟩

theorem length_bytes (u : FramedUnit) : u.bytes.length = u.zeros + 3 + u.data.length := by
  simp [bytes]
  omega

theorem stop_placed (offset : Nat) (u : FramedUnit) :
    (u.placed offset).stop = offset + u.bytes.length := by
  rw [length_bytes]
  unfold placed NalUnit.stop
  dsimp only
  omega

end FramedUnit

def writeUnits (us : List FramedUnit) : Bytes := us.flatMap FramedUnit.bytes

theorem writeUnits_append (us vs : List FramedUnit) :
    writeUnits (us ++ vs) = writeUnits us ++ writeUnits vs := List.flatMap_append

theorem writeUnits_cons (u : FramedUnit) (us : List FramedUnit) :
    writeUnits (u :: us) = u.bytes ++ writeUnits us := List.flatMap_cons

theorem length_writeUnits_cons (u : FramedUnit) (us : List FramedUnit) :
    (writeUnits (u :: us)).length = u.bytes.length + (writeUnits us).length := by
  rw [writeUnits_cons, List.length_append]

/-- Units written from an offset on, as a scan finds them. -/
def placedUnits (offset : Nat) : List FramedUnit → List NalUnit
  | [] => []
  | u :: us => u.placed offset :: placedUnits (offset + u.bytes.length) us

theorem placedUnits_append (offset : Nat) (us vs : List FramedUnit) :
    placedUnits offset (us ++ vs) =
      placedUnits offset us ++ placedUnits (offset + (writeUnits us).length) vs := by
  induction us generalizing offset with
  | nil => rfl
  | cons u us ih =>
    rw [List.cons_append, placedUnits, ih, placedUnits, length_writeUnits_cons, Nat.add_assoc]
    rfl

theorem map_header_placedUnits (offset : Nat) (us : List FramedUnit) :
    (placedUnits offset us).map (·.header) = us.map (·.header) := by
  induction us generalizing offset with
  | nil => rfl
  | cons u us ih =>
    rw [placedUnits, List.map_cons, List.map_cons, ih]
    rfl

/-! ## Scanning -/

theorem beginsUnit_eq_true {bs : Bytes} (h : beginsUnit bs = true) :
    ∃ rest, bs = 0 :: 0 :: 1 :: rest := by
  unfold beginsUnit at h
  split at h
  · rename_i a b c d rest
    simp only [Bool.and_eq_true, beq_iff_eq] at h
    obtain ⟨⟨rfl, rfl⟩, rfl⟩ := h
    exact ⟨d :: rest, rfl⟩
  · cases h

theorem gap_of_not_begins {b : UInt8} {bs : Bytes} (h : ∀ rest, b :: bs ≠ 0 :: 0 :: 1 :: rest) :
    gap (b :: bs) = gap bs + 1 := by
  rw [gap]
  refine if_neg fun hb => ?_
  obtain ⟨rest, hr⟩ := beginsUnit_eq_true hb
  exact h rest hr

theorem gap_zeros_code (n : Nat) {bs : Bytes} (h : bs ≠ []) :
    gap (List.replicate n 0 ++ ([0, 0, 1] ++ bs)) = n := by
  obtain ⟨b, bs, rfl⟩ := List.exists_cons_of_ne_nil h
  induction n with
  | zero => rfl
  | succ n ih =>
    rw [List.replicate_succ, List.cons_append, gap_of_not_begins, ih]
    intro rest hr
    match n, hr with
    | 0, hr => cases hr
    | 1, hr => cases hr
    | n + 2, hr => cases hr

theorem gap_zeros (n : Nat) : gap (List.replicate n 0) = n := by
  induction n with
  | zero => rfl
  | succ n ih =>
    rw [List.replicate_succ, gap_of_not_begins, ih]
    intro rest hr
    match n, hr with
    | 0, hr => cases hr
    | 1, hr => cases hr
    | n + 2, hr => cases hr

/-- No start code begins within a unit, whatever follows it. -/
theorem gap_unit {data : Bytes} (hcode : ¬ [0, 0, 1] <:+: data) (hlast : data.getLast? ≠ some 0)
    (rest : Bytes) : gap (data ++ rest) = data.length + gap rest := by
  induction data with
  | nil => simp
  | cons b data ih =>
    have hno : ∀ behind, b :: (data ++ rest) ≠ 0 :: 0 :: 1 :: behind := by
      intro behind hb
      match data, hcode, hlast, hb with
      | [], _, hlast, hb =>
        cases hb
        exact hlast rfl
      | [c], _, hlast, hb =>
        cases hb
        exact hlast rfl
      | c :: d :: data, hcode, _, hb =>
        cases hb
        exact hcode ⟨[], data, rfl⟩
    have hrest : gap (data ++ rest) = data.length + gap rest := by
      refine ih (fun h => hcode (h.trans (List.suffix_cons b data).isInfix)) fun h => hlast ?_
      cases data with
      | nil => cases h
      | cons c data => exact h
    rw [List.cons_append, gap_of_not_begins hno, hrest, List.length_cons]
    omega

theorem trimZeros_zeros {data : Bytes} (hne : data ≠ []) (hlast : data.getLast? ≠ some 0)
    (n : Nat) : trimZeros (data ++ List.replicate n 0) = data := by
  obtain ⟨b, data, rfl⟩ := List.exists_cons_of_ne_nil hne
  have hdrop : (List.replicate n (0 : UInt8) ++ data.reverse).dropWhile (· == 0) =
      data.reverse := by
    induction n with
    | zero =>
      cases hrev : data.reverse with
      | nil => rfl
      | cons c rest =>
        have hc : c ≠ 0 := by
          intro hc
          refine hlast ?_
          have hdata : data = rest.reverse ++ [0] := by
            rw [← List.reverse_reverse data, hrev, hc, List.reverse_cons]
          rw [hdata, ← List.cons_append]
          exact List.getLast?_concat
        rw [List.replicate_zero, List.nil_append, List.dropWhile_cons_of_neg]
        simpa using hc
    | succ n ih =>
      rw [List.replicate_succ, List.cons_append, List.dropWhile_cons_of_pos rfl]
      exact ih
  rw [List.cons_append, trimZeros, List.reverse_append, List.reverse_replicate, hdrop,
    List.reverse_reverse]

/-- Up to the next start code there are only zero bytes. -/
theorem take_gap_written (us : List FramedUnit) (hus : ∀ u ∈ us, u.Proper) (n : Nat) :
    ∃ k, (writeUnits us ++ List.replicate n 0).take
      (gap (writeUnits us ++ List.replicate n 0)) = List.replicate k 0 := by
  cases us with
  | nil =>
    refine ⟨n, ?_⟩
    change (List.replicate n 0).take (gap (List.replicate n 0)) = _
    rw [gap_zeros, List.take_of_length_le (Nat.le_of_eq List.length_replicate)]
  | cons u us =>
    have hu := hus u List.mem_cons_self
    have hsplit : writeUnits (u :: us) ++ List.replicate n 0 = List.replicate u.zeros 0 ++
        ([0, 0, 1] ++ (u.data ++ (writeUnits us ++ List.replicate n 0))) := by
      simp only [writeUnits_cons, FramedUnit.bytes, List.append_assoc]
    refine ⟨u.zeros, ?_⟩
    rw [hsplit, gap_zeros_code u.zeros (List.append_ne_nil_of_left_ne_nil hu.ne_nil _),
      List.take_left' (List.length_replicate ..)]

/-- A scan finds what was written. -/
theorem scans_written (us : List FramedUnit) (hus : ∀ u ∈ us, u.Proper) (offset n : Nat) :
    Scans (seekStartCode offset (writeUnits us ++ List.replicate n 0)) (placedUnits offset us) := by
  induction us generalizing offset with
  | nil =>
    refine .done ?_
    have hdone : (writeUnits [] ++ List.replicate n 0 : Bytes) = List.replicate n 0 := rfl
    rw [seekStartCode_eq, hdone, gap_zeros, List.drop_of_length_le (Nat.le_of_eq List.length_replicate)]
    rfl
  | cons u us ih =>
    have hu := hus u List.mem_cons_self
    have hrest := fun v hv => hus v (List.mem_cons_of_mem u hv)
    have hscan := ih hrest (offset + u.bytes.length)
    obtain ⟨k, hk⟩ := take_gap_written us hrest n
    generalize hr : writeUnits us ++ List.replicate n 0 = rest at hscan hk
    have hsplit : writeUnits (u :: us) ++ List.replicate n 0 =
        List.replicate u.zeros 0 ++ ([0, 0, 1] ++ (u.data ++ rest)) := by
      simp only [← hr, writeUnits_cons, FramedUnit.bytes, List.append_assoc]
    have hseek : seekStartCode offset (writeUnits (u :: us) ++ List.replicate n 0) =
        ⟨offset + u.zeros, [0, 0, 1] ++ (u.data ++ rest)⟩ := by
      rw [seekStartCode_eq, hsplit,
        gap_zeros_code u.zeros (List.append_ne_nil_of_left_ne_nil hu.ne_nil _),
        List.drop_left' (List.length_replicate ..)]
    have hgap := gap_unit hu.code_free hu.last rest
    have htake : trimZeros ((u.data ++ rest).take (u.data.length + gap rest)) = u.data := by
      rw [List.take_length_add_append, hk, trimZeros_zeros hu.ne_nil hu.last]
    have hdrop : (u.data ++ rest).drop (u.data.length + gap rest) = rest.drop (gap rest) := by
      rw [List.drop_length_add_append]
    have hnext : startCodeUnit? ⟨offset + u.zeros, [0, 0, 1] ++ (u.data ++ rest)⟩ =
        some (u.placed offset, seekStartCode (offset + u.bytes.length) rest) := by
      have hbody : ([0, 0, 1] ++ (u.data ++ rest)).drop 3 = u.data ++ rest := rfl
      rw [startCodeUnit?_eq, hbody]
      obtain ⟨b, data, hdata⟩ := List.exists_cons_of_ne_nil hu.ne_nil
      have hheader : u.header = NalHeader.parse b := by
        rw [FramedUnit.header, hdata]
        rfl
      have hcons : u.data ++ rest = b :: (data ++ rest) := by
        rw [hdata]
        rfl
      simp only [hcons] at hgap htake hdrop ⊢
      rw [hgap, htake, hdrop, seekStartCode_eq, FramedUnit.placed, hheader, u.length_bytes]
      congr 3
      omega
    rw [hseek, placedUnits]
    exact .unit hnext hscan

/-- The units of a written stream are those that were written, with or without zero bytes behind
them. -/
theorem startCodeUnits_written (us : List FramedUnit) (hus : ∀ u ∈ us, u.Proper) (n : Nat) :
    startCodeUnits (writeUnits us ++ List.replicate n 0) = placedUnits 0 us :=
  startCodeUnits_of_scans (scans_written us hus 0 n)

theorem header_of_mem_placedUnits {us : List FramedUnit} {offset : Nat} {u : NalUnit}
    (h : u ∈ placedUnits offset us) : ∃ v ∈ us, u.header = v.header := by
  have hmem := List.mem_map_of_mem (f := fun u : NalUnit => u.header) h
  rw [map_header_placedUnits] at hmem
  obtain ⟨v, hv, hh⟩ := List.mem_map.mp hmem
  exact ⟨v, hv, hh.symm⟩

/-! ## Access units -/

/-- An access unit to be written: other units, then a slice of either view. -/
structure AccessUnit where
  others : List FramedUnit := []
  base : FramedUnit
  extension : FramedUnit
  deriving DecidableEq, Repr

namespace AccessUnit

def units (a : AccessUnit) : List FramedUnit := a.others ++ [a.base, a.extension]

theorem units_eq (a : AccessUnit) : a.units = (a.others ++ [a.base]) ++ [a.extension] := by
  rw [units, List.append_assoc]
  rfl

def bytes (a : AccessUnit) : Bytes := writeUnits a.units

/-- No unit ends the sequence, and there are no slices but one of either view, at the end. -/
structure Proper (a : AccessUnit) : Prop where
  units : ∀ u ∈ a.units, u.Proper
  others : ∀ u ∈ a.others, u.header.type.isSlice = false ∧ u.header.type ≠ .endOfSequence
  base : a.base.header.type.isBaseSlice = true
  extension : a.extension.header.type.isExtensionSlice = true

/-- The access unit without zero bytes in front, as it is cut out of a stream. -/
def trimmed (a : AccessUnit) : AccessUnit :=
  match a.others with
  | [] => { a with base := { a.base with zeros := 0 } }
  | u :: us => { a with others := { u with zeros := 0 } :: us }

theorem map_header_trimmed (a : AccessUnit) :
    a.trimmed.others.map (·.header) = a.others.map (·.header) ∧
      a.trimmed.base.header = a.base.header ∧ a.trimmed.extension = a.extension := by
  unfold trimmed
  split
  · exact ⟨rfl, rfl, rfl⟩
  · rename_i u us ho
    rw [ho]
    exact ⟨rfl, rfl, rfl⟩

theorem bytes_trimmed (a : AccessUnit) :
    ∃ u us, a.units = u :: us ∧ a.trimmed.bytes = [0, 0, 1] ++ u.data ++ writeUnits us := by
  unfold trimmed bytes units
  split
  · rename_i ho
    exact ⟨a.base, [a.extension], by rw [ho]; rfl, by rw [ho]; rfl⟩
  · rename_i u us ho
    exact ⟨u, us ++ [a.base, a.extension], by rw [ho]; rfl, rfl⟩

namespace Proper

variable {a : AccessUnit}

theorem trimmed (h : Proper a) : Proper a.trimmed := by
  obtain ⟨hothers, hbase, hext⟩ := map_header_trimmed a
  refine ⟨fun u hu => ?_, fun u hu => ?_, hbase ▸ h.base, hext ▸ h.extension⟩
  · have hdata : ∃ v ∈ a.units, u.data = v.data := by
      unfold AccessUnit.trimmed AccessUnit.units at hu
      unfold AccessUnit.units
      split at hu
      · rename_i ho
        rw [ho] at hu ⊢
        rcases List.mem_cons.mp hu with rfl | hu
        · exact ⟨a.base, List.mem_cons_self, rfl⟩
        · exact ⟨u, List.mem_cons_of_mem _ hu, rfl⟩
      · rename_i v vs ho
        rw [ho]
        rcases List.mem_cons.mp hu with rfl | hu
        · exact ⟨v, List.mem_cons_self, rfl⟩
        · exact ⟨u, List.mem_cons_of_mem _ hu, rfl⟩
    obtain ⟨v, hv, hd⟩ := hdata
    obtain ⟨hne, hcode, hlast⟩ := h.units v hv
    exact ⟨hd ▸ hne, hd ▸ hcode, hd ▸ hlast⟩
  · have hmem := List.mem_map_of_mem (f := fun u : FramedUnit => u.header) hu
    rw [hothers] at hmem
    obtain ⟨v, hv, hh⟩ := List.mem_map.mp hmem
    rw [← hh]
    exact h.others v hv

theorem startCodeUnits_bytes (h : Proper a) : startCodeUnits a.bytes = placedUnits 0 a.units := by
  have hall := startCodeUnits_written a.units h.units 0
  rwa [List.replicate_zero, List.append_nil] at hall

/-- The slices of an access unit: one of the base view, then one of the other. -/
theorem sliceUnits_bytes (h : Proper a) :
    ∃ b e, sliceUnits a.bytes = [b, e] ∧ b.isBaseSlice = true ∧ e.isBaseSlice = false := by
  have hothers : (placedUnits 0 a.others).filter (·.isSlice) = [] := by
    refine List.filter_eq_nil_iff.mpr fun u hu => ?_
    obtain ⟨v, hv, hh⟩ := header_of_mem_placedUnits hu
    rw [NalUnit.isSlice, hh, (h.others v hv).1]
    exact Bool.false_ne_true
  have hboth : ∀ t : NalType, t.isExtensionSlice = true → t.isBaseSlice = false := by
    intro t
    cases t <;> decide
  generalize ho : 0 + (writeUnits a.others).length = offset
  have hbase : (a.base.placed offset).isSlice = true := by
    change (a.base.header.type.isBaseSlice || _) = true
    rw [h.base, Bool.true_or]
  have hext : (a.extension.placed (offset + a.base.bytes.length)).isSlice = true := by
    change (_ || a.extension.header.type.isExtensionSlice) = true
    rw [h.extension, Bool.or_true]
  refine ⟨a.base.placed offset, a.extension.placed (offset + a.base.bytes.length), ?_, h.base,
    hboth _ h.extension⟩
  rw [sliceUnits, h.startCodeUnits_bytes, AccessUnit.units, placedUnits_append, List.filter_append,
    hothers, ho]
  simp only [placedUnits, List.nil_append, List.filter_cons, hbase, hext, ↓reduceIte,
    List.filter_nil]

theorem endOfSequenceStarts_bytes (h : Proper a) :
    (startCodeUnits a.bytes).filter (·.header.type == .endOfSequence) = [] := by
  have hslice : ∀ t : NalType, t.isBaseSlice = true ∨ t.isExtensionSlice = true →
      t ≠ .endOfSequence := by
    rintro t ht rfl
    rcases ht with ht | ht <;> cases ht
  refine List.filter_eq_nil_iff.mpr fun u hu => ?_
  rw [h.startCodeUnits_bytes] at hu
  obtain ⟨v, hv, hh⟩ := header_of_mem_placedUnits hu
  have hne : v.header.type ≠ .endOfSequence := by
    rcases List.mem_append.mp hv with hv | hv
    · exact (h.others v hv).2
    · rcases List.mem_cons.mp hv with rfl | hv
      · exact hslice _ (Or.inl h.base)
      · cases List.mem_singleton.mp hv
        exact hslice _ (Or.inr h.extension)
  rw [hh]
  simpa using hne

end Proper

end AccessUnit

/-- A stream of access units, with zero bytes at the end. -/
def writeStream (as : List AccessUnit) (zeros : Nat) : Bytes :=
  as.flatMap AccessUnit.bytes ++ List.replicate zeros 0

/-! ## Cutting -/

section Groups

/-- Units without slice go with what follows them. -/
theorem groupUnits_others {us : List NalUnit} (h : ∀ u ∈ us, u.isSlice = false)
    (group rest : List NalUnit) :
    groupUnits group false (us ++ rest) = groupUnits (us.reverse ++ group) false rest := by
  induction us generalizing group with
  | nil => rfl
  | cons u us ih =>
    have hu := h u List.mem_cons_self
    rw [List.cons_append, groupUnits, Bool.false_and, if_neg Bool.false_ne_true, Bool.false_or, hu,
      ih (fun v hv => h v (List.mem_cons_of_mem u hv)), List.reverse_cons, List.append_assoc]
    rfl

/-- After a slice the next unit opens a group, unless it is an extension slice. -/
theorem groupUnits_next {rest : List NalUnit}
    (h : ∀ u ∈ rest.head?, u.isExtensionSlice = false) (group : List NalUnit) :
    groupUnits group true rest = group.reverse :: accessUnitGroups rest := by
  cases rest with
  | nil => rfl
  | cons u rest =>
    have hu := h u rfl
    rw [groupUnits, hu]
    rfl

theorem accessUnitGroups_append {us : List NalUnit} {b e : NalUnit} {rest : List NalUnit}
    (hus : ∀ u ∈ us, u.isSlice = false) (hb : b.isSlice = true)
    (he : e.isExtensionSlice = true) (hrest : ∀ u ∈ rest.head?, u.isExtensionSlice = false) :
    accessUnitGroups (us ++ b :: e :: rest) = (us ++ [b, e]) :: accessUnitGroups rest := by
  have hslices : ∀ group, groupUnits group false (b :: e :: rest) =
      (group.reverse ++ [b, e]) :: accessUnitGroups rest := by
    intro group
    rw [groupUnits, Bool.false_and, if_neg Bool.false_ne_true, hb, groupUnits, he, Bool.not_true,
      Bool.and_false, if_neg Bool.false_ne_true, Bool.false_or, Bool.true_or, groupUnits_next hrest]
    simp
  cases us with
  | nil => exact hslices []
  | cons u us =>
    have hu := hus u List.mem_cons_self
    rw [List.cons_append, accessUnitGroups, hu,
      groupUnits_others (fun v hv => hus v (List.mem_cons_of_mem u hv)), hslices]
    simp

/-- The units of a stream, one list for each access unit. -/
def placedGroups (offset : Nat) : List AccessUnit → List (List NalUnit)
  | [] => []
  | a :: as => placedUnits offset a.units :: placedGroups (offset + a.bytes.length) as

theorem placedUnits_groups (offset : Nat) (as : List AccessUnit) :
    placedUnits offset (as.flatMap AccessUnit.units) = (placedGroups offset as).flatten := by
  induction as generalizing offset with
  | nil => rfl
  | cons a as ih =>
    rw [List.flatMap_cons, placedUnits_append, ih, placedGroups, List.flatten_cons]
    rfl

theorem head_placedGroups {as : List AccessUnit} (h : ∀ a ∈ as, a.Proper) (offset : Nat) :
    ∀ u ∈ (placedGroups offset as).flatten.head?, u.isExtensionSlice = false := by
  intro u hu
  cases as with
  | nil => cases hu
  | cons a as =>
    have ha := h a List.mem_cons_self
    have hother : ∀ t : NalType, t.isSlice = false ∨ t.isBaseSlice = true →
        t.isExtensionSlice = false := by
      intro t
      cases t <;> decide
    have hfirst : ∃ v, (v ∈ a.others ∨ v = a.base) ∧ u = v.placed offset := by
      unfold placedGroups AccessUnit.units at hu
      cases ho : a.others with
      | nil =>
        rw [ho] at hu
        cases hu
        exact ⟨a.base, Or.inr rfl, rfl⟩
      | cons v vs =>
        rw [ho] at hu
        cases hu
        exact ⟨v, Or.inl List.mem_cons_self, rfl⟩
    obtain ⟨v, hv, rfl⟩ := hfirst
    rcases hv with hv | rfl
    · exact hother _ (Or.inl (ha.others v hv).1)
    · exact hother _ (Or.inr ha.base)

/-- Each access unit makes one group. -/
theorem accessUnitGroups_written {as : List AccessUnit} (h : ∀ a ∈ as, a.Proper) (offset : Nat) :
    accessUnitGroups (placedGroups offset as).flatten = placedGroups offset as := by
  induction as generalizing offset with
  | nil => rfl
  | cons a as ih =>
    have ha := h a List.mem_cons_self
    have has := fun b hb => h b (List.mem_cons_of_mem a hb)
    have hothers : ∀ u ∈ placedUnits offset a.others, u.isSlice = false := by
      intro u hu
      obtain ⟨v, hv, hh⟩ := header_of_mem_placedUnits hu
      rw [NalUnit.isSlice, hh, (ha.others v hv).1]
    have hbase : ∀ o, (a.base.placed o).isSlice = true := by
      intro o
      change (a.base.header.type.isBaseSlice || _) = true
      rw [ha.base, Bool.true_or]
    have hsplit := accessUnitGroups_append hothers (hbase (offset + (writeUnits a.others).length))
      (e := a.extension.placed (offset + (writeUnits a.others).length + a.base.bytes.length))
      ha.extension (head_placedGroups has (offset + a.bytes.length))
    rw [ih has] at hsplit
    rw [placedGroups, List.flatten_cons, AccessUnit.units, placedUnits_append, List.append_assoc]
    exact hsplit

end Groups

/-- The part of the stream from the start code of the first unit to the last unit. -/
theorem groupBytes_written (a : AccessUnit) (front rest : Bytes) :
    groupBytes (front ++ (a.bytes ++ rest)) (placedUnits front.length a.units) =
      a.trimmed.bytes := by
  obtain ⟨u, us, hunits, htrim⟩ := a.bytes_trimmed
  have hfirst : (placedUnits front.length a.units).head? = some (u.placed front.length) := by
    rw [hunits]
    rfl
  have hlast : (placedUnits front.length a.units).getLast? = some
      (a.extension.placed (front.length + (writeUnits (a.others ++ [a.base])).length)) := by
    rw [a.units_eq, placedUnits_append]
    exact List.getLast?_concat
  have hbytes : a.bytes = List.replicate u.zeros 0 ++ a.trimmed.bytes := by
    rw [htrim, AccessUnit.bytes, hunits, writeUnits, List.flatMap_cons, FramedUnit.bytes,
      List.append_assoc, writeUnits]
  have hlen : (writeUnits (a.others ++ [a.base])).length + a.extension.bytes.length =
      u.zeros + a.trimmed.bytes.length := by
    have hall : a.bytes = writeUnits (a.others ++ [a.base]) ++ a.extension.bytes := by
      rw [AccessUnit.bytes, a.units_eq, writeUnits_append]
      exact congrArg _ (List.append_nil _)
    rw [← List.length_append, ← hall, hbytes, List.length_append, List.length_replicate]
  unfold groupBytes
  rw [hfirst, hlast]
  dsimp only
  rw [FramedUnit.stop_placed, Bytes.slice, FramedUnit.placed]
  dsimp only
  rw [List.drop_length_add_append, hbytes, List.append_assoc,
    List.drop_left' (List.length_replicate ..), List.take_left']
  omega

/-- A stream is cut into the access units that it was written from. -/
theorem accessUnits_written {as : List AccessUnit} (h : ∀ a ∈ as, a.Proper) (zeros : Nat) :
    accessUnits (writeStream as zeros) = as.map (·.trimmed.bytes) := by
  have hwrite : as.flatMap AccessUnit.bytes = writeUnits (as.flatMap AccessUnit.units) := by
    induction as with
    | nil => rfl
    | cons a as ih =>
      rw [List.flatMap_cons, List.flatMap_cons, writeUnits_append,
        ih fun b hb => h b (List.mem_cons_of_mem a hb)]
      rfl
  have hproper : ∀ u ∈ as.flatMap AccessUnit.units, u.Proper := by
    intro u hu
    obtain ⟨a, ha, hu⟩ := List.mem_flatMap.mp hu
    exact (h a ha).units u hu
  have hcut : ∀ (front : Bytes) (as : List AccessUnit),
      (placedGroups front.length as).map (groupBytes (front ++ writeStream as zeros)) =
        as.map (·.trimmed.bytes) := by
    intro front as
    induction as generalizing front with
    | nil => rfl
    | cons a as ih =>
      have hstream : writeStream (a :: as) zeros = a.bytes ++ writeStream as zeros := by
        rw [writeStream, List.flatMap_cons, List.append_assoc]
        rfl
      have hrest := ih (front ++ a.bytes)
      rw [List.length_append, List.append_assoc, ← hstream] at hrest
      rw [placedGroups, List.map_cons, List.map_cons, hrest, hstream, groupBytes_written]
  have hunits : startCodeUnits (writeStream as zeros) = (placedGroups 0 as).flatten := by
    rw [writeStream, hwrite, startCodeUnits_written _ hproper, placedUnits_groups]
  rw [accessUnits, hunits, accessUnitGroups_written h]
  exact hcut [] as

end Multiview
