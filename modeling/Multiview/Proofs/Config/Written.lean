import Multiview.Config.ParameterSets
import Multiview.Proofs.Nal.Records

/-!
Stream configurations as a container writes them: the record of the base view, then an atom around the
record of the second view. The record is found again behind its tag, and its parameter sets are read as
they were written. As the reader counts with five bits, a record that has more than 31 PPS is read with
the first of them only.
-/

namespace Multiview

namespace Config

/-! ## Parameter sets -/

/-- Parameter sets are taken off in the order in which they were written. -/
theorem parameterSets_written {sets : List Bytes} (h : ∀ p ∈ sets, p.length < 65536) (index : Nat)
    (rest : Bytes) :
    parameterSets sets.length index (writeRecords 2 sets ++ rest) = .ok (sets, rest) := by
  induction sets generalizing index with
  | nil => rfl
  | cons p sets ih =>
    have hbytes : writeRecords 2 (p :: sets) ++ rest =
        Bytes.ofNumber 2 p.length ++ (p ++ (writeRecords 2 sets ++ rest)) := by
      simp only [writeRecords_cons, recordOf, List.append_assoc]
    have hdeclared : Bytes.toNumber (Bytes.ofNumber 2 p.length) = p.length :=
      Bytes.toNumber_ofNumber_of_lt (h p List.mem_cons_self)
    have hfits : ¬ (p ++ (writeRecords 2 sets ++ rest)).length < p.length := by
      rw [List.length_append]
      omega
    have hrest := ih (fun q hq => h q (List.mem_cons_of_mem p hq)) (index + 1)
    rw [List.length_cons, parameterSets, hbytes, Bytes.take_ofNumber, Bytes.drop_ofNumber,
      Bytes.ofNumber_length, hdeclared, if_neg (Nat.lt_irrefl 2)]
    simp only [hfits, ↓reduceIte, List.drop_left, List.take_left, hrest]
    rfl

/-- A record to be written. Of three bytes only some bits count: two bits of `lengthByte` are the width
of the length fields less one, and five bits of `spsByte` and `ppsByte` the numbers of sets. -/
structure WrittenRecord where
  profile : UInt8
  compatibility : UInt8
  level : UInt8
  lengthByte : UInt8
  spsByte : UInt8
  sps : List Bytes
  ppsByte : UInt8
  pps : List Bytes

namespace WrittenRecord

def header (r : WrittenRecord) : SequenceHeader := ⟨(r.lengthByte &&& 3).toNat + 1, r.sps, r.pps⟩

def bytes (r : WrittenRecord) : Bytes :=
  [1, r.profile, r.compatibility, r.level, r.lengthByte, r.spsByte] ++
    (writeRecords 2 r.sps ++ r.ppsByte :: writeRecords 2 r.pps)

/-- The counts are right, and the lengths fit their fields. -/
structure Proper (r : WrittenRecord) : Prop where
  spsCount : (r.spsByte &&& 0x1f).toNat = r.sps.length
  ppsCount : (r.ppsByte &&& 0x1f).toNat = r.pps.length
  sets : ∀ p ∈ r.sps ++ r.pps, p.length < 65536

end WrittenRecord

/-- A record tells what was written into it, whatever follows. -/
theorem sequenceHeader_written {r : WrittenRecord} (h : r.Proper) (behind : Bytes) :
    sequenceHeader (r.bytes ++ behind) = .ok r.header := by
  have hsps : run 0 ((r.bytes ++ behind).drop 5) =
      .ok (r.sps, r.ppsByte :: (writeRecords 2 r.pps ++ behind)) := by
    have hsplit : (r.bytes ++ behind).drop 5 =
        r.spsByte :: (writeRecords 2 r.sps ++ r.ppsByte :: (writeRecords 2 r.pps ++ behind)) := by
      simp [WrittenRecord.bytes]
    rw [hsplit, run, h.spsCount]
    exact parameterSets_written (fun p hp => h.sets p (List.mem_append_left _ hp)) 0 _
  have hpps : run r.sps.length (r.ppsByte :: (writeRecords 2 r.pps ++ behind)) =
      .ok (r.pps, behind) := by
    rw [run, h.ppsCount]
    exact parameterSets_written (fun p hp => h.sets p (List.mem_append_right _ hp)) _ _
  have hlength : ¬ (r.bytes ++ behind).length < 6 := by
    simp [WrittenRecord.bytes]
  unfold sequenceHeader
  rw [if_neg hlength, hsps]
  have hversion : (r.bytes ++ behind).head? = some 1 := rfl
  rw [if_neg (not_not_intro hversion)]
  simp only [bind, Except.bind, hpps]
  rfl

/-- A record as it is laid out: spare bits are set, five bits tell the number of SPS, and a whole byte the
number of PPS. -/
def laidOut (size : LengthSize) (profile compatibility level : UInt8) (sps pps : List Bytes) :
    WrittenRecord where
  profile := profile
  compatibility := compatibility
  level := level
  lengthByte := 0xfc ||| UInt8.ofNat (size.bytes - 1)
  spsByte := 0xe0 ||| UInt8.ofNat sps.length
  sps := sps
  ppsByte := UInt8.ofNat pps.length
  pps := pps

/-- The low five bits of a number are its remainder by 32, -/
theorem toNat_lowBits (n : Nat) : (UInt8.ofNat n &&& 0x1f).toNat = n % 32 := by
  have hbits : (0x1f : UInt8).toNat = 2 ^ 5 - 1 := rfl
  rw [UInt8.toNat_and, UInt8.toNat_ofNat', hbits, Nat.and_two_pow_sub_one_eq_mod]
  omega

/-- with the other bits set or not. -/
theorem toNat_spareBits (n : Nat) : ((0xe0 ||| UInt8.ofNat n) &&& 0x1f).toNat = n % 32 := by
  rw [← toNat_lowBits, UInt8.toNat_and, UInt8.toNat_or, Nat.and_or_distrib_right, UInt8.toNat_and]
  exact Nat.zero_or _

section LaidOut

variable (size : LengthSize) (profile compatibility level : UInt8) (sps pps : List Bytes)

/-- What is read of a record: all SPS, and as many PPS as the low bits of their number tell. -/
def readOut : WrittenRecord :=
  { laidOut size profile compatibility level sps pps with pps := pps.take (pps.length % 32) }

theorem readOut_proper {sps pps : List Bytes} (hsps : sps.length ≤ 31)
    (hsets : ∀ p ∈ sps ++ pps, p.length ≤ 65535) :
    (readOut size profile compatibility level sps pps).Proper where
  spsCount := (toNat_spareBits sps.length).trans (Nat.mod_eq_of_lt (Nat.lt_succ_of_le hsps))
  ppsCount := by
    change (UInt8.ofNat pps.length &&& 0x1f).toNat = (pps.take (pps.length % 32)).length
    rw [toNat_lowBits, List.length_take, Nat.min_eq_left (Nat.mod_le _ _)]
  sets := by
    intro p hp
    apply Nat.lt_succ_of_le
    apply hsets
    rcases List.mem_append.mp hp with hp | hp
    · exact List.mem_append_left _ hp
    · exact List.mem_append_right _ (List.mem_of_mem_take hp)

/-- The other PPS are bytes behind the record. -/
theorem laidOut_bytes : (laidOut size profile compatibility level sps pps).bytes =
    (readOut size profile compatibility level sps pps).bytes ++
      writeRecords 2 (pps.drop (pps.length % 32)) := by
  have hpps : writeRecords 2 pps = writeRecords 2 (pps.take (pps.length % 32)) ++
      writeRecords 2 (pps.drop (pps.length % 32)) := by
    rw [← writeRecords_append, List.take_append_drop]
  simp [WrittenRecord.bytes, readOut, laidOut, hpps]

theorem lengthSize_laidOut :
    (laidOut size profile compatibility level sps pps).header.lengthSize = size.bytes := by
  change ((0xfc ||| UInt8.ofNat (size.bytes - 1)) &&& 3).toNat + 1 = size.bytes
  have hone := size.one_le
  have hfour := size.le_four
  obtain h | h | h | h : size.bytes = 1 ∨ size.bytes = 2 ∨ size.bytes = 3 ∨ size.bytes = 4 := by omega
  all_goals
    rw [h]
    decide

end LaidOut

/-- All SPS of a record are read. Of its PPS only as many are read as the low bits of their number tell,
and so none is left out just if there are at most 31. -/
theorem sequenceHeader_laidOut {size : LengthSize} {sps pps : List Bytes}
    (profile compatibility level : UInt8) (behind : Bytes) (hsps : sps.length ≤ 31)
    (hsets : ∀ p ∈ sps ++ pps, p.length ≤ 65535) :
    ∃ h, sequenceHeader ((laidOut size profile compatibility level sps pps).bytes ++ behind) = .ok h ∧
      h.lengthSize = size.bytes ∧ h.sps.length = sps.length ∧ h.pps.length = pps.length % 32 ∧
      h.data = writeRecords 2 (sps ++ pps.take (pps.length % 32)) ∧
      (h.data = writeRecords 2 (sps ++ pps) ↔ pps.length ≤ 31) := by
  have hread := sequenceHeader_written (readOut_proper size profile compatibility level hsps hsets)
    (writeRecords 2 (pps.drop (pps.length % 32)) ++ behind)
  rw [← List.append_assoc, ← laidOut_bytes] at hread
  have hcount : (pps.take (pps.length % 32)).length = pps.length % 32 := by
    rw [List.length_take, Nat.min_eq_left (Nat.mod_le _ _)]
  refine ⟨_, hread, lengthSize_laidOut size profile compatibility level sps pps, rfl, hcount, rfl, ?_⟩
  change writeRecords 2 (sps ++ pps.take (pps.length % 32)) = writeRecords 2 (sps ++ pps) ↔ _
  constructor
  · intro hdata
    have hsplit : writeRecords 2 (sps ++ pps) = writeRecords 2 (sps ++ pps.take (pps.length % 32)) ++
        writeRecords 2 (pps.drop (pps.length % 32)) := by
      rw [← writeRecords_append, List.append_assoc, List.take_append_drop]
    rw [hsplit, List.self_eq_append_right] at hdata
    have hlen := length_le_writeRecords .two (pps.drop (pps.length % 32))
    rw [LengthSize.two, hdata, List.length_drop, List.length_nil] at hlen
    omega
  · intro hfew
    rw [List.take_of_length_le (by omega)]

/-- One SPS and a number of PPS of one byte each. -/
def manySets (n : Nat) : WrittenRecord :=
  laidOut .two 0x76 0 0x28 [[0x6f, 0x76]] (List.replicate n [0x68])

/-- Of 33 PPS one is read. -/
theorem manySets_oneRead : ∃ h, sequenceHeader ((manySets 33).bytes ++ [0xff]) = .ok h ∧
    h.lengthSize = 2 ∧ h.sps.length = 1 ∧ h.pps.length = 1 ∧
    h.data = [0, 2, 0x6f, 0x76, 0, 1, 0x68] := by
  obtain ⟨h, hread, hsize, hsps, hpps, hdata, -⟩ :=
    @sequenceHeader_laidOut .two [[0x6f, 0x76]] (List.replicate 33 [0x68]) 0x76 0 0x28 [0xff]
      (by decide) (by decide)
  exact ⟨h, hread, hsize, hsps, hpps, hdata⟩

/-- Of 32 PPS none is read. -/
theorem manySets_noneRead : ∃ h, sequenceHeader (manySets 32).bytes = .ok h ∧
    h.pps.length ≠ 32 ∧ h.data ≠ writeRecords 2 ([[0x6f, 0x76]] ++ List.replicate 32 [0x68]) :=
  ⟨⟨2, [[0x6f, 0x76]], []⟩, by decide +kernel, by decide, by decide⟩

theorem lowBits_lt (b : UInt8) : (b &&& 0x1f).toNat < 32 := by
  rw [UInt8.toNat_and]
  exact Nat.lt_succ_of_le Nat.and_le_right

/-- At most 31 sets of either kind fit into a record. -/
theorem WrittenRecord.Proper.length_lt {r : WrittenRecord} (h : r.Proper) :
    r.bytes.length + 8 < 2 ^ 24 := by
  have hsets : ∀ sets : List Bytes, (∀ p ∈ sets, p.length < 65536) →
      (writeRecords 2 sets).length ≤ 65537 * sets.length := by
    intro sets hsets
    induction sets with
    | nil => exact Nat.zero_le _
    | cons p sets ih =>
      have hp := hsets p List.mem_cons_self
      have hrest := ih fun q hq => hsets q (List.mem_cons_of_mem p hq)
      rw [writeRecords_cons, List.length_append, length_recordOf, List.length_cons]
      omega
  have hsps := lowBits_lt r.spsByte
  have hpps := lowBits_lt r.ppsByte
  rw [h.spsCount] at hsps
  rw [h.ppsCount] at hpps
  have hspsLen := hsets r.sps fun p hp => h.sets p (List.mem_append_left _ hp)
  have hppsLen := hsets r.pps fun p hp => h.sets p (List.mem_append_right _ hp)
  have hlen : r.bytes.length =
      (writeRecords 2 r.sps).length + (writeRecords 2 r.pps).length + 7 := by
    simp [WrittenRecord.bytes]
    omega
  omega

/-! ## The atom -/

/-- An atom around a record, with its size and tag. -/
def writeAtom (record : Bytes) : Bytes := Bytes.ofNumber 4 (record.length + 8) ++ (atomTag ++ record)

theorem length_writeAtom (record : Bytes) : (writeAtom record).length = record.length + 8 := by
  simp [writeAtom, atomTag, Bytes.ofNumber_length]
  omega

/-- An atom tells its own size. -/
theorem size_writeAtom {record : Bytes} (hmax : record.length + 8 < 2 ^ 32) (behind : Bytes) :
    Bytes.toNumber ((writeAtom record ++ behind).take 4) = record.length + 8 := by
  rw [writeAtom, List.append_assoc, Bytes.take_ofNumber, Bytes.toNumber_ofNumber_of_lt hmax]

/-- Behind its size and its tag an atom has the record. -/
theorem record_writeAtom (record behind : Bytes) :
    ((writeAtom record ++ behind).take (record.length + 8)).drop 8 = record := by
  have hfront : (Bytes.ofNumber 4 (record.length + 8) ++ atomTag).length = 8 := by
    rw [List.length_append, Bytes.ofNumber_length]
    rfl
  rw [← length_writeAtom, List.take_left, writeAtom, ← List.append_assoc]
  exact List.drop_left' hfront

/-- No byte of the tag is zero. -/
theorem atomTag_ne_zero : ∀ i < 4, atomTag[i]? ≠ some 0 := by decide

/-- The first byte of the tag is none of the others. -/
theorem atomTag_first : ∀ i < 4, atomTag[i]? = some 0x6d → i = 0 := by decide

/-- The tag is found where it occurs first. -/
theorem findTag_first (front rest : Bytes) (offset : Nat)
    (h : ∀ n < front.length, ¬ atomTag <+: (front ++ (atomTag ++ rest)).drop n) :
    findTag offset (front ++ (atomTag ++ rest)) = some (offset + front.length) := by
  induction front generalizing offset with
  | nil => rfl
  | cons b front ih =>
    have hhere : ((b :: (front ++ (atomTag ++ rest))).take 4 == atomTag) = false := by
      refine beq_eq_false_iff_ne.mpr fun he => h 0 (Nat.succ_pos _) ?_
      have hprefix := List.take_prefix 4 (b :: (front ++ (atomTag ++ rest)))
      rw [he] at hprefix
      exact hprefix
    have hrest := ih (offset + 1) fun n hn => h (n + 1) (Nat.succ_lt_succ hn)
    rw [List.cons_append, findTag, hhere, if_neg Bool.false_ne_true, hrest, List.length_cons]
    congr 1
    omega

/-- The first byte of a size below three bytes is zero, so that no tag reaches into it, and no tag
begins within it because a tag does not begin where another one goes on. -/
theorem not_tag_before {outer : Bytes} (h : ¬ atomTag <:+: outer) {size : Nat} (hs : size < 2 ^ 24)
    (rest : Bytes) (n : Nat) (hn : n < (outer ++ Bytes.ofNumber 4 size).length) :
    ¬ atomTag <+: (outer ++ Bytes.ofNumber 4 size ++ (atomTag ++ rest)).drop n := by
  rintro ⟨behind, hbehind⟩
  have hfour : (Bytes.ofNumber 4 size).length = 4 := Bytes.ofNumber_length 4 size
  rw [List.length_append, hfour] at hn
  have hbyte : ∀ i < 4, (outer ++ Bytes.ofNumber 4 size ++ (atomTag ++ rest))[n + i]? =
      atomTag[i]? := by
    intro i hi
    rw [← List.getElem?_drop, ← hbehind, List.getElem?_append_left hi]
  have hzero : (outer ++ Bytes.ofNumber 4 size ++ (atomTag ++ rest))[outer.length]? = some 0 := by
    have hfirst : UInt8.ofNat (size / 256 / 256 / 256) = 0 := by
      have hnone : size / 256 / 256 / 256 = 0 := by omega
      rw [hnone]
      rfl
    rw [List.append_assoc, List.getElem?_append_right (Nat.le_refl _), Nat.sub_self]
    simp [Bytes.ofNumber, hfirst]
  have hmark : (outer ++ Bytes.ofNumber 4 size ++ (atomTag ++ rest))[outer.length + 4]? =
      some 0x6d := by
    rw [List.getElem?_append_right (by rw [List.length_append, hfour]), List.length_append, hfour,
      Nat.sub_self]
    rfl
  rcases Nat.lt_or_ge outer.length (n + 4) with hlt | hge
  · rcases Nat.lt_or_ge outer.length n with hbeyond | hwithin
    · -- The tag would begin within the size and go on in the tag behind it.
      have hbound : outer.length + 4 - n < 4 := by omega
      have hagain := hbyte (outer.length + 4 - n) hbound
      rw [Nat.add_sub_cancel' (by omega), hmark] at hagain
      have hnone := atomTag_first _ hbound hagain.symm
      omega
    · have hbound : outer.length - n < 4 := by omega
      have hagain := hbyte (outer.length - n) hbound
      rw [Nat.add_sub_cancel' hwithin, hzero] at hagain
      exact absurd hagain.symm (atomTag_ne_zero _ hbound)
  · refine h ⟨outer.take n, outer.drop (n + 4), ?_⟩
    have hwindow : atomTag = (outer.drop n).take 4 := by
      have hfront : (outer ++ Bytes.ofNumber 4 size ++ (atomTag ++ rest)).drop n =
          outer.drop n ++ (Bytes.ofNumber 4 size ++ (atomTag ++ rest)) := by
        rw [List.append_assoc, List.drop_append_of_le_length (by omega)]
      calc atomTag
        _ = (atomTag ++ behind).take 4 := rfl
        _ = (outer.drop n ++ (Bytes.ofNumber 4 size ++ (atomTag ++ rest))).take 4 := by
          rw [hbehind, hfront]
        _ = (outer.drop n).take 4 :=
          List.take_append_of_le_length (by rw [List.length_drop]; omega)
    rw [hwindow, List.append_assoc, ← List.drop_drop, List.take_append_drop, List.take_append_drop]

/-- The record of the second view is the one in the atom, if its tag is found. -/
theorem secondViewRecord_of_findTag {outer record behind : Bytes} (hv : outer.head? = some 1)
    (ht : findTag 0 (outer ++ (writeAtom record ++ behind)) = some (outer.length + 4))
    (hr : record.head? = some 1) (hmin : 6 ≤ record.length) (hmax : record.length + 8 < 2 ^ 32) :
    secondViewRecord (outer ++ (writeAtom record ++ behind)) = .ok record := by
  have hatom : (outer ++ (writeAtom record ++ behind)).drop outer.length =
      writeAtom record ++ behind := List.drop_left
  have hpos : 0 < outer.length := by
    cases outer with
    | nil => cases hv
    | cons b outer => exact Nat.succ_pos _
  have hhead : (outer ++ (writeAtom record ++ behind)).head? = some 1 := by
    rw [List.head?_append, hv]
    rfl
  have hlong : ¬ ((outer ++ (writeAtom record ++ behind)).length ≤ 4 ∨
      (outer ++ (writeAtom record ++ behind)).head? ≠ some 1) := by
    rw [hhead, List.length_append, List.length_append, length_writeAtom]
    rintro (hshort | hne)
    · omega
    · exact hne rfl
  have hbehind : ¬ outer.length + 4 ≤ 4 := by omega
  have hroom : ¬ (writeAtom record ++ behind).length < minAtomSize := by
    rw [List.length_append, length_writeAtom, minAtomSize]
    omega
  have hwhole : ¬ (record.length + 8 < minAtomSize ∨
      (writeAtom record ++ behind).length < record.length + 8) := by
    rw [List.length_append, length_writeAtom, minAtomSize]
    omega
  unfold secondViewRecord
  rw [if_neg hlong, ht]
  simp only [hbehind, Nat.add_sub_cancel, hatom, hroom, size_writeAtom hmax, hwhole,
    record_writeAtom, hr, ne_eq, not_true_eq_false, ↓reduceIte]
  rfl

/-- The first tag is the one of the atom, unless there is one in front of it. -/
theorem findTag_writeAtom {outer record : Bytes} (ht : ¬ atomTag <:+: outer)
    (hmax : record.length + 8 < 2 ^ 24) (behind : Bytes) :
    findTag 0 (outer ++ (writeAtom record ++ behind)) = some (outer.length + 4) := by
  have hbytes : outer ++ (writeAtom record ++ behind) =
      outer ++ Bytes.ofNumber 4 (record.length + 8) ++ (atomTag ++ (record ++ behind)) := by
    simp only [writeAtom, List.append_assoc]
  rw [hbytes, findTag_first _ _ 0 fun n hn => not_tag_before ht hmax _ n hn, List.length_append,
    Bytes.ofNumber_length, Nat.zero_add]

/-- A record that is short enough is found again behind bytes without the tag. -/
theorem secondViewRecord_written {outer record : Bytes} (hv : outer.head? = some 1)
    (ht : ¬ atomTag <:+: outer) (hr : record.head? = some 1) (hmin : 6 ≤ record.length)
    (hmax : record.length + 8 < 2 ^ 24) (behind : Bytes) :
    secondViewRecord (outer ++ (writeAtom record ++ behind)) = .ok record :=
  secondViewRecord_of_findTag hv (findTag_writeAtom ht hmax behind) hr hmin
    (Nat.lt_trans hmax (by decide))

end Config

end Multiview
