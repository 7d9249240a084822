import Multiview.Proofs.Config.Atom
import Multiview.Proofs.Nal.Offsets

/-!
What is read out of a decoder configuration record, whoever wrote it. A record that is accepted begins
like one that was written, so that its parameter sets lie in it one behind the other, each behind its own
length, and written out again they are records that can be converted to start codes.
-/

namespace Multiview

open Outcome

namespace Config

/-! ## The reader, case by case -/

theorem parameterSets_succ (count index : Nat) (buf : Bytes) : parameterSets (count + 1) index buf =
    if (buf.take 2).length < 2 then .error .truncatedRecord
    else if (buf.drop 2).length < Bytes.toNumber (buf.take 2) then
      .error (.parameterSetTooLong index (Bytes.toNumber (buf.take 2)) (buf.drop 2).length)
    else match parameterSets count (index + 1) ((buf.drop 2).drop (Bytes.toNumber (buf.take 2))) with
      | .error e => .error e
      | .ok (sets, rest) => .ok ((buf.drop 2).take (Bytes.toNumber (buf.take 2)) :: sets, rest) := by
  rw [parameterSets]
  dsimp only
  generalize parameterSets count (index + 1) ((buf.drop 2).drop (Bytes.toNumber (buf.take 2))) = more
  split
  · rfl
  · split
    · rfl
    · cases more <;> rfl

theorem sequenceHeader_eq (r : Bytes) : sequenceHeader r =
    if r.length < 6 then .error .truncatedRecord
    else if r.head? ≠ some 1 then .error .notConfiguration
    else match run 0 (r.drop 5) with
      | .error e => .error e
      | .ok (sps, rest) =>
        match run sps.length rest with
        | .error e => .error e
        | .ok (pps, _) => .ok ⟨(r.getD 4 0 &&& 3).toNat + 1, sps, pps⟩ := by
  unfold sequenceHeader
  split
  · rfl
  · split
    · rfl
    · cases run 0 (r.drop 5) with
      | error e => rfl
      | ok x =>
        obtain ⟨sps, rest⟩ := x
        dsimp only
        cases hpps : run sps.length rest <;> simp only [bind, Except.bind, hpps]
        rfl

/-! ## Records that are accepted -/

/-- Parameter sets that are taken off were written there. -/
theorem parameterSets_eq_ok {count index : Nat} {buf rest : Bytes} {sets : List Bytes}
    (h : parameterSets count index buf = .ok (sets, rest)) :
    sets.length = count ∧ buf = writeRecords 2 sets ++ rest ∧ ∀ p ∈ sets, p.length < 65536 := by
  induction count generalizing index buf sets with
  | zero =>
    cases h
    exact ⟨rfl, rfl, nofun⟩
  | succ count ih =>
    rw [parameterSets_succ] at h
    split at h
    · cases h
    · rename_i hfield
      split at h
      · cases h
      · rename_i hbody
        split at h
        · cases h
        · rename_i hmore
          cases h
          obtain ⟨hcount, hbuf, hothers⟩ := ih hmore
          have htwo : (buf.take 2).length = 2 := by
            rw [List.length_take] at hfield ⊢
            omega
          have hlen : ((buf.drop 2).take (Bytes.toNumber (buf.take 2))).length =
              Bytes.toNumber (buf.take 2) := by
            rw [List.length_take, Nat.min_eq_left (Nat.le_of_not_lt hbody)]
          have hrecord : recordOf 2 ((buf.drop 2).take (Bytes.toNumber (buf.take 2))) =
              buf.take 2 ++ (buf.drop 2).take (Bytes.toNumber (buf.take 2)) :=
            @recordOf_toNumber .two _ (buf.take 2) htwo hlen
          refine ⟨congrArg (· + 1) hcount, ?_, List.forall_mem_cons.mpr ⟨?_, hothers⟩⟩
          · rw [writeRecords_cons, hrecord, List.append_assoc, List.append_assoc, ← hbuf,
              List.take_append_drop, List.take_append_drop]
          · have hbound := Bytes.toNumber_lt (buf.take 2)
            rw [htwo] at hbound
            rw [hlen]
            exact hbound

/-- A run that is taken off has a count in front of it. -/
theorem run_eq_ok {index : Nat} {buf rest : Bytes} {sets : List Bytes}
    (h : run index buf = .ok (sets, rest)) :
    ∃ count, buf = count :: (writeRecords 2 sets ++ rest) ∧ (count &&& 0x1f).toNat = sets.length ∧
      ∀ p ∈ sets, p.length < 65536 := by
  cases buf with
  | nil => cases h
  | cons count buf =>
    obtain ⟨hcount, rfl, hsets⟩ := parameterSets_eq_ok h
    exact ⟨count, rfl, hcount.symm, hsets⟩

/-- The first five bytes of a record. -/
theorem front_eq {r : Bytes} (hlen : 6 ≤ r.length) (hversion : r.head? = some 1) :
    ∃ profile compatibility level lengthByte : UInt8,
      r = [1, profile, compatibility, level, lengthByte] ++ r.drop 5 ∧ r.getD 4 0 = lengthByte := by
  match r, hlen, hversion with
  | a :: b :: c :: d :: e :: f :: r, _, hversion =>
    cases hversion
    exact ⟨b, c, d, e, rfl, rfl⟩

/-- The records that are accepted are those that were written, whatever follows. -/
theorem sequenceHeader_eq_ok_iff {r : Bytes} {h : SequenceHeader} :
    sequenceHeader r = .ok h ↔
      ∃ (w : WrittenRecord) (behind : Bytes), w.Proper ∧ r = w.bytes ++ behind ∧ h = w.header := by
  constructor
  · intro hread
    rw [sequenceHeader_eq] at hread
    split at hread
    · cases hread
    · rename_i hlen
      split at hread
      · cases hread
      · rename_i hversion
        obtain ⟨profile, compatibility, level, lengthByte, hr, hbyte⟩ :=
          front_eq (Nat.le_of_not_lt hlen) (not_not.mp hversion)
        split at hread
        · cases hread
        · rename_i sps rest hsps
          split at hread
          · cases hread
          · rename_i pps behind hpps
            cases hread
            obtain ⟨spsByte, hbehind, hspsCount, hspsSets⟩ := run_eq_ok hsps
            obtain ⟨ppsByte, rfl, hppsCount, hppsSets⟩ := run_eq_ok hpps
            refine ⟨⟨profile, compatibility, level, lengthByte, spsByte, sps, ppsByte, pps⟩, behind,
              ⟨hspsCount, hppsCount, ?_⟩, ?_, ?_⟩
            · intro p hp
              rcases List.mem_append.mp hp with hp | hp
              · exact hspsSets p hp
              · exact hppsSets p hp
            · rw [hr, hbehind]
              simp [WrittenRecord.bytes]
            · rw [hbyte]
              rfl
  · rintro ⟨w, behind, hw, rfl, rfl⟩
    exact sequenceHeader_written hw behind

/-! ## Records that are refused -/

/-- Why a record is refused: it ends too early, is of another version, or has a set that is longer than
what is left of it. -/
def RecordRefusal (e : ConfigError) : Prop :=
  e = .truncatedRecord ∨ e = .notConfiguration ∨
    ∃ index declared available, e = .parameterSetTooLong index declared available ∧
      available < declared

theorem parameterSets_refusal {count index : Nat} {buf : Bytes} {e : ConfigError}
    (h : parameterSets count index buf = .error e) : RecordRefusal e := by
  induction count generalizing index buf with
  | zero => cases h
  | succ count ih =>
    rw [parameterSets_succ] at h
    split at h
    · cases h
      exact .inl rfl
    · split at h
      · rename_i hbody
        cases h
        exact .inr (.inr ⟨_, _, _, rfl, hbody⟩)
      · split at h
        · rename_i hmore
          cases h
          exact ih hmore
        · cases h

theorem run_refusal {index : Nat} {buf : Bytes} {e : ConfigError} (h : run index buf = .error e) :
    RecordRefusal e := by
  cases buf with
  | nil =>
    cases h
    exact .inl rfl
  | cons count buf => exact parameterSets_refusal h

theorem sequenceHeader_refusal {r : Bytes} {e : ConfigError} (h : sequenceHeader r = .error e) :
    RecordRefusal e := by
  rw [sequenceHeader_eq] at h
  split at h
  · cases h
    exact .inl rfl
  · split at h
    · cases h
      exact .inr (.inl rfl)
    · split at h
      · rename_i hsps
        cases h
        exact run_refusal hsps
      · split at h
        · rename_i hpps
          cases h
          exact run_refusal hpps
        · cases h

/-! ## Where the sets are -/

/-- A parameter set and the offset of its first byte. -/
structure PlacedSet where
  offset : Nat
  bytes : Bytes

namespace PlacedSet

/-- Offset behind the last byte. -/
def stop (p : PlacedSet) : Nat := p.offset + p.bytes.length

/-- A record has the set at its offset, and in the two bytes before it the length of the set. -/
structure LiesIn (p : PlacedSet) (r : Bytes) : Prop where
  two_le : 2 ≤ p.offset
  stop_le : p.stop ≤ r.length
  length : r.slice (p.offset - 2) p.offset = Bytes.ofNumber 2 p.bytes.length
  bytes : r.slice p.offset p.stop = p.bytes

/-- One set ends before the length of the other begins. -/
def Precedes (p q : PlacedSet) : Prop := p.stop + 2 ≤ q.offset

end PlacedSet

/-- The places of sets whose records are written from an offset on. -/
def placesFrom : Nat → List Bytes → List PlacedSet
  | _, [] => []
  | offset, p :: sets => ⟨offset + 2, p⟩ :: placesFrom (offset + 2 + p.length) sets

theorem map_bytes_placesFrom (offset : Nat) (sets : List Bytes) :
    (placesFrom offset sets).map (·.bytes) = sets := by
  induction sets generalizing offset with
  | nil => rfl
  | cons p sets ih => rw [placesFrom, List.map_cons, ih]

/-- The places are behind the offset and before the end of the records. -/
theorem placesFrom_within {offset : Nat} {sets : List Bytes} {p : PlacedSet}
    (hp : p ∈ placesFrom offset sets) :
    offset + 2 ≤ p.offset ∧ p.stop ≤ offset + (writeRecords 2 sets).length := by
  induction sets generalizing offset with
  | nil => cases hp
  | cons q sets ih =>
    rw [writeRecords_cons, List.length_append, length_recordOf]
    rcases List.mem_cons.mp hp with rfl | hp
    · refine ⟨Nat.le_refl _, ?_⟩
      change offset + 2 + q.length ≤ offset + (2 + q.length + (writeRecords 2 sets).length)
      omega
    · have hrest := ih hp
      omega

theorem placesFrom_pairwise (offset : Nat) (sets : List Bytes) :
    (placesFrom offset sets).Pairwise PlacedSet.Precedes := by
  induction sets generalizing offset with
  | nil => exact .nil
  | cons q sets ih =>
    refine List.pairwise_cons.mpr ⟨fun p hp => ?_, ih _⟩
    exact (placesFrom_within hp).1

theorem placesFrom_liesIn {front rest : Bytes} {sets : List Bytes} {p : PlacedSet}
    (hp : p ∈ placesFrom front.length sets) : p.LiesIn (front ++ (writeRecords 2 sets ++ rest)) := by
  induction sets generalizing front with
  | nil => cases hp
  | cons q sets ih =>
    have hbytes : front ++ (writeRecords 2 (q :: sets) ++ rest) =
        (front ++ recordOf 2 q) ++ (writeRecords 2 sets ++ rest) := by
      rw [writeRecords_cons, List.append_assoc, List.append_assoc]
    have hlen : (front ++ recordOf 2 q).length = front.length + 2 + q.length := by
      rw [List.length_append, length_recordOf, Nat.add_assoc]
    rw [hbytes]
    rcases List.mem_cons.mp hp with rfl | hp
    · have hfield : (Bytes.ofNumber 2 q.length).length = 2 := Bytes.ofNumber_length _ _
      generalize writeRecords 2 sets ++ rest = behind
      refine ⟨Nat.le_add_left _ _, ?_, ?_, ?_⟩
      · rw [List.length_append, hlen, PlacedSet.stop]
        exact Nat.le_add_right _ _
      · rw [Nat.add_sub_cancel, Bytes.slice, Nat.add_sub_cancel_left, List.append_assoc,
          List.drop_left, recordOf, List.append_assoc, List.take_left' hfield]
      · have hfront : (front ++ Bytes.ofNumber 2 q.length).length = front.length + 2 := by
          rw [List.length_append, hfield]
        have hsplit : front ++ recordOf 2 q ++ behind =
            (front ++ Bytes.ofNumber 2 q.length) ++ (q ++ behind) := by
          simp only [recordOf, List.append_assoc]
        rw [PlacedSet.stop, Bytes.slice, Nat.add_sub_cancel_left, hsplit, List.drop_left' hfront,
          List.take_left]
    · rw [← hlen] at hp
      exact ih hp

/-- The places of the sets of a written record. -/
def WrittenRecord.places (w : WrittenRecord) : List PlacedSet :=
  placesFrom 6 w.sps ++ placesFrom (7 + (writeRecords 2 w.sps).length) w.pps

theorem WrittenRecord.places_liesIn (w : WrittenRecord) (behind : Bytes) {p : PlacedSet}
    (hp : p ∈ w.places) : p.LiesIn (w.bytes ++ behind) := by
  rcases List.mem_append.mp hp with hp | hp
  · have hlies := @placesFrom_liesIn [1, w.profile, w.compatibility, w.level, w.lengthByte, w.spsByte]
      (w.ppsByte :: (writeRecords 2 w.pps ++ behind)) w.sps p hp
    simpa [WrittenRecord.bytes] using hlies
  · have hfront : ([1, w.profile, w.compatibility, w.level, w.lengthByte, w.spsByte] ++
        (writeRecords 2 w.sps ++ [w.ppsByte])).length = 7 + (writeRecords 2 w.sps).length := by
      simp
      omega
    rw [← hfront] at hp
    have hlies := @placesFrom_liesIn _ behind _ _ hp
    simpa [WrittenRecord.bytes] using hlies

theorem WrittenRecord.places_pairwise (w : WrittenRecord) :
    w.places.Pairwise PlacedSet.Precedes := by
  refine List.pairwise_append.mpr
    ⟨placesFrom_pairwise _ _, placesFrom_pairwise _ _, fun p hp q hq => ?_⟩
  have hfirst := (placesFrom_within hp).2
  have hsecond := (placesFrom_within hq).1
  rw [PlacedSet.Precedes]
  omega

/-! ## What is read out -/

/-- The width of the length fields is one to four bytes. The sets lie in the record one behind the other,
and as records with lengths of two bytes they are read back and converted. -/
structure Extracted (r : Bytes) (h : SequenceHeader) : Prop where
  one_le : 1 ≤ h.lengthSize
  le_four : h.lengthSize ≤ 4
  data : h.data = writeRecords 2 (h.sps ++ h.pps)
  records : records .two h.data = .ok (h.sps ++ h.pps)
  converted : toStartCodes .two h.data = .ok (withStartCodes (h.sps ++ h.pps))
  places : ∃ places : List PlacedSet, places.map (·.bytes) = h.sps ++ h.pps ∧
    (∀ p ∈ places, p.LiesIn r) ∧ places.Pairwise PlacedSet.Precedes

theorem sequenceHeader_extracted {r : Bytes} {h : SequenceHeader} (hr : sequenceHeader r = .ok h) :
    Extracted r h := by
  obtain ⟨w, behind, hw, rfl, rfl⟩ := sequenceHeader_eq_ok_iff.mp hr
  have hread : records .two (writeRecords 2 (w.sps ++ w.pps)) = .ok (w.sps ++ w.pps) :=
    records_written hw.sets
  refine ⟨Nat.le_add_left _ _, ?_, rfl, hread, ?_, w.places, ?_, ?_, w.places_pairwise⟩
  · change (w.lengthByte &&& 3).toNat + 1 ≤ 4
    rw [UInt8.toNat_and]
    exact Nat.succ_le_succ Nat.and_le_right
  · change toStartCodes .two (writeRecords 2 (w.sps ++ w.pps)) = _
    unfold toStartCodes
    rw [hread]
    rfl
  · rw [WrittenRecord.places, List.map_append, map_bytes_placesFrom, map_bytes_placesFrom]
    rfl
  · exact fun p hp => w.places_liesIn behind hp

/-! ## Slices -/

/-- What is copied out of a record: the width of the length fields, the numbers of sets, and all sets with
their lengths. -/
structure CopiedHeader where
  lengthSize : Nat
  spsCount : Nat
  ppsCount : Nat
  data : Bytes
  deriving DecidableEq

def copied (h : SequenceHeader) : CopiedHeader := ⟨h.lengthSize, h.sps.length, h.pps.length, h.data⟩

/-- `parameterSets` slice by slice, which adds each set and its length to `data`. -/
def copySets : Nat → Nat → Bytes → Bytes → Outcome (Except ConfigError (Bytes × Bytes))
  | 0, _, buf, data => return .ok (data, buf)
  | count + 1, index, buf, data => do
    if buf.length < 2 then
      return .error .truncatedRecord
    let field ← takeExactly 2 buf
    let body ← dropExactly 2 buf
    let declared := Bytes.toNumber field
    if body.length < declared then
      return .error (.parameterSetTooLong index declared body.length)
    let bytes ← takeExactly declared body
    let rest ← dropExactly declared body
    let next ← below wordLimit (index + 1)
    copySets count next rest (data ++ (Bytes.ofNumber 2 declared ++ bytes))

/-- `run` in the same way. -/
def copyRun (index : Nat) (buf data : Bytes) : Outcome (Except ConfigError (Nat × Bytes × Bytes)) := do
  if buf.length = 0 then
    return .error .truncatedRecord
  let field ← takeExactly 1 buf
  let body ← dropExactly 1 buf
  let count := (field.headD 0 &&& 0x1f).toNat
  match ← copySets count index body data with
  | .error e => return .error e
  | .ok (data, rest) => return .ok (count, data, rest)

/-- `sequenceHeader` in the same way. -/
def copyHeader (r : Bytes) : Outcome (Except ConfigError CopiedHeader) := do
  if r.length < 6 then
    return .error .truncatedRecord
  let version ← takeExactly 1 r
  if version.head? ≠ some 1 then
    return .error .notConfiguration
  let buf ← dropExactly 1 r
  let buf ← dropExactly 3 buf
  let field ← takeExactly 1 buf
  let buf ← dropExactly 1 buf
  let lengthSize := (field.headD 0 &&& 3).toNat + 1
  match ← copyRun 0 buf [] with
  | .error e => return .error e
  | .ok (spsCount, data, buf) =>
    match ← copyRun spsCount buf data with
    | .error e => return .error e
    | .ok (ppsCount, data, _) => return .ok ⟨lengthSize, spsCount, ppsCount, data⟩

theorem copySets_returns {count index : Nat} (hindex : index + count < wordLimit) (buf data : Bytes) :
    Returns (copySets count index buf data) fun x =>
      x = (parameterSets count index buf).map fun y => (data ++ writeRecords 2 y.1, y.2) := by
  -- Both loops take the same set off the front. The index only goes into errors.
  induction count generalizing index buf data with
  | zero =>
    refine .pure ?_
    change _ = Except.ok (data ++ [], buf)
    rw [List.append_nil]
  | succ count ih =>
    rw [parameterSets_succ, copySets]
    by_cases hfield : buf.length < 2
    · have htake : (buf.take 2).length < 2 := by
        rw [List.length_take]
        omega
      rw [if_pos hfield, if_pos htake]
      exact .pure rfl
    · have htake : ¬ (buf.take 2).length < 2 := by
        rw [List.length_take]
        omega
      rw [if_neg hfield, if_neg htake]
      refine (takeExactly_returns (by omega)).bind ?_
      rintro _ rfl
      refine (dropExactly_returns (by omega)).bind ?_
      rintro _ rfl
      dsimp only
      split
      · exact .pure rfl
      · rename_i hbody
        refine (takeExactly_returns (by omega)).bind ?_
        rintro _ rfl
        refine (dropExactly_returns (by omega)).bind ?_
        rintro _ rfl
        refine (below_returns (by omega)).bind ?_
        rintro _ rfl
        refine (ih (by omega) _ _).mono ?_
        rintro _ rfl
        have hlen : ((buf.drop 2).take (Bytes.toNumber (buf.take 2))).length =
            Bytes.toNumber (buf.take 2) := by
          rw [List.length_take, Nat.min_eq_left (Nat.le_of_not_lt hbody)]
        cases parameterSets count (index + 1)
            ((buf.drop 2).drop (Bytes.toNumber (buf.take 2))) with
        | error e => rfl
        | ok y =>
          simp only [Except.map, writeRecords_cons, recordOf, hlen, List.append_assoc]

theorem copyRun_returns {index : Nat} (hindex : index < 2 ^ 32) (buf data : Bytes) :
    Returns (copyRun index buf data) fun x =>
      x = (run index buf).map fun y => (y.1.length, data ++ writeRecords 2 y.1, y.2) := by
  cases buf with
  | nil => exact .pure rfl
  | cons b buf =>
    have hcount := lowBits_lt b
    have hlimit : index + (b &&& 0x1f).toNat < wordLimit := by
      rw [wordLimit, UInt64.size]
      omega
    refine (copySets_returns hlimit buf data).bind ?_
    rintro _ rfl
    rw [run]
    cases hsets : parameterSets (b &&& 0x1f).toNat index buf with
    | error e => exact .pure rfl
    | ok y =>
      have hlen : y.1.length = (b &&& 0x1f).toNat := (parameterSets_eq_ok hsets).1
      refine .pure ?_
      simp only [Except.map, hlen]
      rfl

theorem copyHeader_returns (r : Bytes) :
    Returns (copyHeader r) fun x => x = (sequenceHeader r).map copied := by
  rw [sequenceHeader_eq]
  unfold copyHeader
  split
  · exact .pure rfl
  · rename_i hlen
    refine (takeExactly_returns (by omega)).bind ?_
    rintro _ rfl
    rw [head?_take_one]
    split
    · exact .pure rfl
    · refine (dropExactly_returns (by omega)).bind ?_
      rintro _ rfl
      refine (dropExactly_returns (by rw [List.length_drop]; omega)).bind ?_
      rintro _ rfl
      rw [List.drop_drop]
      refine (takeExactly_returns (by rw [List.length_drop]; omega)).bind ?_
      rintro _ rfl
      refine (dropExactly_returns (by rw [List.length_drop]; omega)).bind ?_
      rintro _ rfl
      rw [List.drop_drop]
      refine (copyRun_returns (by decide) _ _).bind ?_
      rintro _ rfl
      have hfield : ((r.drop (1 + 3)).take 1).headD 0 = r.getD 4 0 := by
        rw [List.headD_eq_head?_getD, head?_take_one, List.head?_drop, List.getD_eq_getElem?_getD]
      rw [hfield]
      cases hsps : run 0 (r.drop 5) with
      | error e => exact .pure rfl
      | ok x =>
        obtain ⟨sps, rest⟩ := x
        -- The second run is counted on from the first, whose count is a few bits of a byte.
        have hcount : sps.length < 2 ^ 32 := by
          obtain ⟨count, -, hlow, -⟩ := run_eq_ok hsps
          rw [← hlow]
          exact (lowBits_lt count).trans (by decide)
        dsimp only [Except.map, List.nil_append]
        refine (copyRun_returns hcount _ _).bind ?_
        rintro _ rfl
        cases hpps : run sps.length rest with
        | error e => exact .pure rfl
        | ok y =>
          refine .pure ?_
          simp only [copied, SequenceHeader.data]
          rw [← writeRecords, writeRecords_append]

end Config

end Multiview
