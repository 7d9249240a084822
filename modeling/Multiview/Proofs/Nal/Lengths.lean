import Multiview.Proofs.Nal.Complete
import Multiview.Proofs.Nal.Visits

/-!
Scanning by length fields. The units are the leading records of the buffer, and converted to start
codes they are found again.
-/

namespace Multiview

/-- A buffer that memory can hold: no allocation is as long as half of what a word can count. -/
def Addressable (bs : Bytes) : Prop := bs.length < wordLimit / 2

instance (bs : Bytes) : Decidable (Addressable bs) :=
  inferInstanceAs (Decidable (bs.length < wordLimit / 2))

/-- The unit of a payload whose record is at an offset. -/
def recordUnit (width offset : Nat) (p : Bytes) : NalUnit :=
  ⟨NalHeader.parse (p.headD 0), offset, offset + width, p⟩

/-- The units of records written from an offset on. -/
def recordUnits (width : Nat) : Nat → List Bytes → List NalUnit
  | _, [] => []
  | offset, p :: ps => recordUnit width offset p :: recordUnits width (offset + width + p.length) ps

section RecordUnits

variable (width offset : Nat)

theorem map_data_recordUnits (ps : List Bytes) : (recordUnits width offset ps).map (·.data) = ps := by
  induction ps generalizing offset with
  | nil => rfl
  | cons p ps ih => simp [recordUnits, recordUnit, ih]

theorem length_recordUnits (ps : List Bytes) : (recordUnits width offset ps).length = ps.length := by
  rw [← List.length_map (·.data), map_data_recordUnits]

/-- Unit follows upon unit, and the last one ends where the records do. -/
theorem stop_recordUnits (ps : List Bytes) :
    ((recordUnits width offset ps).getLast?.map (·.stop)).getD offset =
      offset + (writeRecords width ps).length := by
  induction ps generalizing offset with
  | nil => rfl
  | cons p ps ih =>
    have hstop : (recordUnit width offset p).stop = offset + width + p.length := rfl
    have hlast : ((recordUnits width offset (p :: ps)).getLast?.map (·.stop)).getD offset =
        ((recordUnits width (offset + width + p.length) ps).getLast?.map (·.stop)).getD
          (offset + width + p.length) := by
      rw [recordUnits, List.getLast?_cons]
      cases (recordUnits width (offset + width + p.length) ps).getLast? <;> simp [hstop]
    rw [hlast, ih, writeRecords_cons, List.length_append, length_recordOf]
    omega

end RecordUnits

section Scan

variable {size : LengthSize} {offset : Nat} {p rest bs : Bytes} {ps : List Bytes}

/-- A record with a payload is a unit. -/
theorem lengthFieldUnit?_recordOf (hne : p ≠ []) (hp : p.length < 256 ^ size.bytes)
    (hoff : offset + size.bytes < wordLimit) :
    lengthFieldUnit? size.bytes ⟨offset, recordOf size.bytes p ++ rest⟩ =
      .ok (some (recordUnit size.bytes offset p, ⟨offset + size.bytes + p.length, rest⟩)) := by
  have hpos := size.one_le
  have hfour := size.le_four
  have hempty : (recordOf size.bytes p ++ rest).isEmpty = false := by
    have hlen := length_recordOf size.bytes p
    cases hr : recordOf size.bytes p with
    | nil =>
      rw [hr, List.length_nil] at hlen
      omega
    | cons b bs => rfl
  obtain ⟨b, p, rfl⟩ := List.exists_cons_of_ne_nil hne
  have htake := Bytes.take_ofNumber size.bytes (b :: p).length (b :: p ++ rest)
  have hdrop := Bytes.drop_ofNumber size.bytes (b :: p).length (b :: p ++ rest)
  rw [← List.append_assoc, ← recordOf] at htake hdrop
  have hdata : ((b :: p) ++ rest).take (b :: p).length = b :: p := List.take_left
  have hbehind : ((b :: p) ++ rest).drop (b :: p).length = rest := List.drop_left
  rw [List.cons_append] at hdata hbehind hdrop
  simp only [lengthFieldUnit?, hempty, below_eq_ok_iff.mpr ⟨hoff, rfl⟩, hdrop, htake,
    Bytes.toNumber_ofNumber_of_lt hp, hdata, hbehind, bind, Except.bind, pure, Except.pure,
    Bool.false_eq_true, ↓reduceIte]
  rw [if_neg (by omega), if_neg (by simp)]
  rfl

theorem lengthFieldUnit?_noRecord (h : NoRecord size bs)
    (hoff : offset + size.bytes < wordLimit) :
    lengthFieldUnit? size.bytes ⟨offset, bs⟩ = .ok none := by
  have hfour := size.le_four
  have hsplit : bs.take size.bytes ++ bs.drop size.bytes = bs := List.take_append_drop ..
  simp only [lengthFieldUnit?, below_eq_ok_iff.mpr ⟨hoff, rfl⟩, bind, Except.bind, pure,
    Except.pure]
  split
  · rfl
  · split
    · rfl
    · rename_i head tail hbody
      have hfield : (bs.take size.bytes).length = size.bytes := by
        have hlen := congrArg List.length hbody
        simp only [List.length_drop, List.length_cons] at hlen
        simp only [List.length_take]
        omega
      rw [if_neg (by omega)]
      show (if _ then _ else _) = _
      rw [if_pos]
      -- Otherwise the bytes that the field declares would make a record.
      by_contra hrecord
      rw [not_or, Nat.not_lt] at hrecord
      obtain ⟨hzero, hlong⟩ := hrecord
      rw [hbody] at hsplit
      have hbound := Bytes.toNumber_lt (bs.take size.bytes)
      generalize bs.take size.bytes = field at hfield hsplit hzero hlong hbound
      generalize head :: tail = body at hsplit hlong
      have hp : (body.take (Bytes.toNumber field)).length = Bytes.toNumber field :=
        Nat.le_antisymm (List.length_take_le _ _) hlong
      apply h (body.take (Bytes.toNumber field))
      · intro hnil
        rw [hnil] at hp
        exact hzero hp.symm
      · rw [hp, ← hfield]
        exact hbound
      · rw [recordOf_toNumber hfield hp, ← hsplit]
        exact (List.prefix_append_right_inj _).mpr (List.take_prefix _ _)

theorem next_lengthField {c : Cursor} {found : Option (NalUnit × Cursor)} {width : Nat}
    (h : lengthFieldUnit? width c = .ok found) :
    UnitScanner.next ⟨.lengthField width, c⟩ = .ok (match found with
      | none => (none, ⟨.lengthField width, c.offset + c.rest.length, []⟩)
      | some (u, c') => (some u, ⟨.lengthField width, c'⟩)) := by
  cases found <;> simp [UnitScanner.next, h, bind, Except.bind, pure, Except.pure]

/-- The records are visited one after another, up to the end of the last one. -/
theorem visits_recordUnits (hps : ∀ p ∈ ps, p ≠ [] ∧ p.length < 256 ^ size.bytes)
    (hrest : NoRecord size rest)
    (hoff : offset + (writeRecords size.bytes ps).length + size.bytes < wordLimit) :
    UnitScanner.Visits ⟨.lengthField size.bytes, offset, writeRecords size.bytes ps ++ rest⟩
      (recordUnits size.bytes offset ps) := by
  induction ps generalizing offset with
  | nil =>
    exact .done (next_lengthField (lengthFieldUnit?_noRecord hrest hoff))
  | cons p ps ih =>
    obtain ⟨⟨hne, hp⟩, hps⟩ := List.forall_mem_cons.mp hps
    rw [writeRecords_cons, List.length_append, length_recordOf] at hoff
    rw [writeRecords_cons, List.append_assoc, recordUnits]
    exact .unit (next_lengthField (lengthFieldUnit?_recordOf hne hp (by omega)))
      (ih hps (by omega))

/-- The units between length fields are the leading records. -/
theorem LeadingRecords.finds (h : LeadingRecords size bs ps) (hbs : Addressable bs) :
    Finds (.lengthField size.bytes) bs (recordUnits size.bytes 0 ps) := by
  obtain ⟨qs, rest, hqs, rfl, hrest⟩ := exists_noRecord size bs
  obtain rfl := h.unique (.of_noRecord hqs hrest)
  have hfour := size.le_four
  have hlen := length_le_writeRecords size ps
  simp only [Addressable, wordLimit, UInt64.size, List.length_append] at hbs
  apply UnitScanner.Visits.finds
  · apply visits_recordUnits hqs hrest
    simp only [wordLimit, UInt64.size]
    omega
  · simp only [length_recordUnits, List.length_append]
    omega

end Scan

/-! ## Units of either framing -/

/-- Units with these payloads, each with the header that its first byte tells. -/
structure Unpacks (payloads : List Bytes) (us : List NalUnit) : Prop where
  data : us.map (·.data) = payloads
  header : ∀ u ∈ us, ∃ b, u.data.head? = some b ∧ u.header = NalHeader.parse b

theorem unpacks_recordUnits (width offset : Nat) {ps : List Bytes} (h : ∀ p ∈ ps, p ≠ []) :
    Unpacks ps (recordUnits width offset ps) where
  data := map_data_recordUnits width offset ps
  header := by
    induction ps generalizing offset with
    | nil => simp [recordUnits]
    | cons p ps ih =>
      obtain ⟨hp, hps⟩ := List.forall_mem_cons.mp h
      obtain ⟨b, p, rfl⟩ := List.exists_cons_of_ne_nil hp
      exact List.forall_mem_cons.mpr ⟨⟨b, rfl, rfl⟩, ih _ hps⟩

theorem unpacks_placedUnits (offset : Nat) {us : List FramedUnit} (h : ∀ u ∈ us, u.data ≠ []) :
    Unpacks (us.map (·.data)) (placedUnits offset us) where
  data := by
    induction us generalizing offset with
    | nil => rfl
    | cons u us ih => simp [placedUnits, FramedUnit.placed, ih _ (List.forall_mem_cons.mp h).2]
  header := by
    induction us generalizing offset with
    | nil => simp [placedUnits]
    | cons u us ih =>
      obtain ⟨hu, hus⟩ := List.forall_mem_cons.mp h
      obtain ⟨b, p, hdata⟩ := List.exists_cons_of_ne_nil hu
      have hfirst : (u.placed offset).data.head? = some b ∧
          (u.placed offset).header = NalHeader.parse b := by
        simp [FramedUnit.placed, FramedUnit.header, hdata]
      exact List.forall_mem_cons.mpr ⟨⟨b, hfirst⟩, ih _ hus⟩

/-- A payload that either framing can hold: a unit that no scan for start codes cuts in two or cuts
short, with a length that the length field can tell. -/
structure Framable (size : LengthSize) (p : Bytes) : Prop extends FramedUnit.Proper ⟨0, p⟩ where
  fits : p.length < 256 ^ size.bytes

theorem Framable.converted {size : LengthSize} {ps : List Bytes} (h : ∀ p ∈ ps, Framable size p) :
    ∀ u ∈ convertedUnits ps, u.Proper := by
  intro u hu
  have hdata : u.data ∈ ps := by
    rw [← map_data_convertedUnits ps]
    exact List.mem_map_of_mem hu
  obtain ⟨hne, hcode, hlast⟩ := (h u.data hdata).toProper
  exact ⟨hne, hcode, hlast⟩

/-- Units written as records are converted and then found again between start codes, and they are the
units that are found between the length fields. -/
theorem rescan_written {size : LengthSize} {ps : List Bytes} (h : ∀ p ∈ ps, Framable size p) :
    (∃ out us, toStartCodes size (writeRecords size.bytes ps) = .ok out ∧
      Finds .startCodes out us ∧ Unpacks ps us) ∧
    (Addressable (writeRecords size.bytes ps) → ∃ us,
      Finds (.lengthField size.bytes) (writeRecords size.bytes ps) us ∧ Unpacks ps us) := by
  have hproper := Framable.converted h
  have hne : ∀ p ∈ ps, p ≠ [] := fun p hp => (h p hp).ne_nil
  constructor
  · have hfinds := finds_startCodeUnits (writeUnits (convertedUnits ps))
    have hunits := startCodeUnits_written (convertedUnits ps) hproper 0
    rw [List.replicate_zero, List.append_nil] at hunits
    rw [hunits] at hfinds
    have hunpacks := unpacks_placedUnits 0 fun u hu => (hproper u hu).ne_nil
    rw [map_data_convertedUnits] at hunpacks
    exact ⟨_, _, toStartCodes_written fun p hp => (h p hp).fits, hfinds, hunpacks⟩
  · intro hmem
    have hleading : LeadingRecords size (writeRecords size.bytes ps ++ []) ps :=
      .of_noRecord (fun p hp => ⟨hne p hp, (h p hp).fits⟩) noRecord_nil
    rw [List.append_nil] at hleading
    exact ⟨_, hleading.finds hmem, unpacks_recordUnits size.bytes 0 hne⟩

/-- A unit with zero bytes within and a unit of one byte, each behind a length of two bytes. -/
theorem rescan_two_units :
    (∃ out us, toStartCodes .two [0, 5, 0x65, 0, 0, 3, 1, 0, 1, 0x0a] = .ok out ∧
      Finds .startCodes out us ∧ Unpacks [[0x65, 0, 0, 3, 1], [0x0a]] us) ∧
    ∃ us, Finds (.lengthField 2) [0, 5, 0x65, 0, 0, 3, 1, 0, 1, 0x0a] us ∧
      Unpacks [[0x65, 0, 0, 3, 1], [0x0a]] us := by
  have hall : ∀ p ∈ [[0x65, 0, 0, 3, 1], [0x0a]], Framable .two p := by
    rw [List.forall_mem_cons, List.forall_mem_singleton]
    constructor
    · exact ⟨⟨by decide, by decide, by decide⟩, by decide⟩
    · exact ⟨⟨by decide, by decide, by decide⟩, by decide⟩
  obtain ⟨hconverted, hscanned⟩ := rescan_written hall
  exact ⟨hconverted, hscanned (by decide)⟩

end Multiview
