import Mathlib.Algebra.Order.Group.Nat
import Multiview.Nal.Record
import Multiview.Proofs.Nal.Written

/-!
Records as they are written. A length field tells the length that was written into it, so that a buffer
of records falls apart into their payloads, and the conversion to start codes writes these payloads as
units.
-/

namespace Multiview

namespace Bytes

theorem toNumber_concat (bytes : Bytes) (b : UInt8) :
    toNumber (bytes ++ [b]) = 256 * toNumber bytes + b.toNat := by
  simp [toNumber, List.foldl_append]

/-- Bytes that a number was written in tell the number, up to their width. -/
theorem toNumber_ofNumber (width n : Nat) : toNumber (ofNumber width n) = n % 256 ^ width := by
  induction width generalizing n with
  | zero => simp [ofNumber, toNumber, Nat.mod_one]
  | succ width ih =>
    have hbyte : (UInt8.ofNat n).toNat = n % 256 := UInt8.toNat_ofNat'
    calc toNumber (ofNumber (width + 1) n)
      _ = 256 * (n / 256 % 256 ^ width) + n % 256 := by
        rw [ofNumber, toNumber_concat, ih, hbyte]
      _ = n % (256 * 256 ^ width) := by
        rw [Nat.mod_mul]
        omega
      _ = n % 256 ^ (width + 1) := by
        rw [Nat.pow_succ, Nat.mul_comm]

theorem toNumber_ofNumber_of_lt {width n : Nat} (h : n < 256 ^ width) :
    toNumber (ofNumber width n) = n := by
  rw [toNumber_ofNumber, Nat.mod_eq_of_lt h]

theorem take_ofNumber (width n : Nat) (rest : Bytes) :
    (ofNumber width n ++ rest).take width = ofNumber width n :=
  List.take_left' (ofNumber_length width n)

theorem drop_ofNumber (width n : Nat) (rest : Bytes) :
    (ofNumber width n ++ rest).drop width = rest :=
  List.drop_left' (ofNumber_length width n)

end Bytes

/-! ## Records -/

theorem length_recordOf (width : Nat) (payload : Bytes) :
    (recordOf width payload).length = width + payload.length := by
  simp [recordOf, Bytes.ofNumber_length]

/-- All payloads as records with length fields of the same width. -/
def writeRecords (width : Nat) (payloads : List Bytes) : Bytes := payloads.flatMap (recordOf width)

theorem writeRecords_cons (width : Nat) (p : Bytes) (payloads : List Bytes) :
    writeRecords width (p :: payloads) = recordOf width p ++ writeRecords width payloads :=
  List.flatMap_cons

theorem writeRecords_append (width : Nat) (payloads more : List Bytes) :
    writeRecords width (payloads ++ more) = writeRecords width payloads ++ writeRecords width more :=
  List.flatMap_append

section Records

variable {size : LengthSize} {payload : Bytes} {payloads : List Bytes}

/-- The record at the front is the one that was written there. -/
theorem record?_recordOf (h : payload.length < 256 ^ size.bytes) (offset : Nat) (rest : Bytes) :
    record? size (offset, recordOf size.bytes payload ++ rest) =
      .ok (some (payload, (offset + size.bytes + payload.length, rest))) := by
  have hpos := size.one_le
  have hlen := length_recordOf size.bytes payload
  have hassoc : recordOf size.bytes payload ++ rest =
      Bytes.ofNumber size.bytes payload.length ++ (payload ++ rest) := List.append_assoc ..
  have hfield := Bytes.take_ofNumber size.bytes payload.length (payload ++ rest)
  have hbody := Bytes.drop_ofNumber size.bytes payload.length (payload ++ rest)
  rw [← hassoc] at hfield hbody
  generalize hbytes : recordOf size.bytes payload ++ rest = bytes at hfield hbody
  cases bytes with
  | nil =>
    have hnone := congrArg List.length hbytes
    rw [List.length_append, hlen, List.length_nil] at hnone
    omega
  | cons b bytes =>
    unfold record?
    simp only [hfield, hbody, Bytes.ofNumber_length, Bytes.toNumber_ofNumber_of_lt h,
      List.take_left, List.drop_left, Nat.lt_irrefl, ↓reduceIte]

/-- Reading goes on behind records that were read. -/
theorem tryCollect_append (h : ∀ p ∈ payloads, p.length < 256 ^ size.bytes) (fuel offset : Nat)
    (taken : List Bytes) (rest : Bytes) :
    tryCollect (record? size) (payloads.length + fuel)
        (offset, writeRecords size.bytes payloads ++ rest) taken =
      tryCollect (record? size) fuel (offset + (writeRecords size.bytes payloads).length, rest)
        (payloads.reverse ++ taken) := by
  induction payloads generalizing offset taken with
  | nil => simp [writeRecords]
  | cons p payloads ih =>
    obtain ⟨hp, hmore⟩ := List.forall_mem_cons.mp h
    have hfuel : (p :: payloads).length + fuel = (payloads.length + fuel) + 1 := by
      simp only [List.length_cons]
      omega
    have hoffset : offset + size.bytes + p.length + (writeRecords size.bytes payloads).length =
        offset + (recordOf size.bytes p ++ writeRecords size.bytes payloads).length := by
      rw [List.length_append, length_recordOf]
      omega
    rw [hfuel, tryCollect, writeRecords_cons, List.append_assoc, record?_recordOf hp]
    dsimp only
    rw [ih hmore, hoffset, List.reverse_cons, List.append_assoc]
    rfl

theorem length_le_writeRecords (size : LengthSize) (payloads : List Bytes) :
    payloads.length ≤ (writeRecords size.bytes payloads).length := by
  induction payloads with
  | nil => exact Nat.zero_le _
  | cons p payloads ih =>
    have hpos := size.one_le
    rw [writeRecords_cons, List.length_append, length_recordOf, List.length_cons]
    omega

/-- What is read behind the records is read with fuel left. -/
theorem records_append (h : ∀ p ∈ payloads, p.length < 256 ^ size.bytes) (rest : Bytes) :
    records size (writeRecords size.bytes payloads ++ rest) =
      tryCollect (record? size) ((writeRecords size.bytes payloads ++ rest).length - payloads.length + 1)
        ((writeRecords size.bytes payloads).length, rest) payloads.reverse := by
  have hlen := length_le_writeRecords size payloads
  have hfuel : (writeRecords size.bytes payloads ++ rest).length + 1 =
      payloads.length +
        ((writeRecords size.bytes payloads ++ rest).length - payloads.length + 1) := by
    rw [List.length_append]
    omega
  rw [records, hfuel, tryCollect_append h, Nat.zero_add, List.append_nil]

/-- A buffer of records falls apart into their payloads. -/
theorem records_written (h : ∀ p ∈ payloads, p.length < 256 ^ size.bytes) :
    records size (writeRecords size.bytes payloads) = .ok payloads := by
  have hread := records_append h []
  rw [List.append_nil] at hread
  rw [hread, tryCollect, record?, List.reverse_reverse]

end Records

/-! ## Conversion to start codes -/

/-- Payloads as units: one zero byte in front of the first start code, none before the others. -/
def convertedUnits : List Bytes → List FramedUnit
  | [] => []
  | first :: rest => ⟨1, first⟩ :: rest.map (⟨0, ·⟩)

theorem map_data_convertedUnits (payloads : List Bytes) :
    (convertedUnits payloads).map (·.data) = payloads := by
  cases payloads with
  | nil => rfl
  | cons first rest =>
    rw [convertedUnits, List.map_cons, List.map_map]
    exact congrArg (first :: ·) (List.map_id rest)

theorem withStartCodes_eq (payloads : List Bytes) :
    withStartCodes payloads = writeUnits (convertedUnits payloads) := by
  cases payloads with
  | nil => rfl
  | cons first rest =>
    have hrest : rest.flatMap ([0, 0, 1] ++ ·) = writeUnits (rest.map (⟨0, ·⟩)) := by
      rw [writeUnits, List.flatMap_map]
      rfl
    have hfirst : writeUnits (convertedUnits (first :: rest)) =
        ([0, 0, 0, 1] ++ first) ++ writeUnits (rest.map (⟨0, ·⟩)) := rfl
    rw [withStartCodes, hrest, hfirst]

/-- Records are converted to units with the same payloads. -/
theorem toStartCodes_written {size : LengthSize} {payloads : List Bytes}
    (h : ∀ p ∈ payloads, p.length < 256 ^ size.bytes) :
    toStartCodes size (writeRecords size.bytes payloads) =
      .ok (writeUnits (convertedUnits payloads)) := by
  unfold toStartCodes
  rw [records_written h, ← withStartCodes_eq]
  rfl

end Multiview
