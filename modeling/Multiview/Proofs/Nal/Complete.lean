import Mathlib.Data.List.Induction
import Mathlib.Data.List.Infix
import Multiview.Proofs.Nal.Records

/-!
Reading records back. Every buffer is a number of complete records and a rest that does not begin with
one, and there is only one way to take it apart. A buffer with no such rest is converted; otherwise the
rest tells what is wrong with it and where.
-/

namespace Multiview

namespace Bytes

theorem toNumber_lt (bytes : Bytes) : toNumber bytes < 256 ^ bytes.length := by
  induction bytes using List.reverseRecOn with
  | nil => simp [toNumber]
  | append_singleton bytes b ih =>
    have hb : b.toNat < 256 := b.toNat_lt
    rw [toNumber_concat, List.length_append, List.length_singleton, Nat.pow_succ]
    omega

/-- The number that bytes tell is written in the same bytes. -/
theorem ofNumber_toNumber (bytes : Bytes) : ofNumber bytes.length (toNumber bytes) = bytes := by
  induction bytes using List.reverseRecOn with
  | nil => rfl
  | append_singleton bytes b ih =>
    have hb : b.toNat < 256 := b.toNat_lt
    have hhigh : (256 * toNumber bytes + b.toNat) / 256 = toNumber bytes := by omega
    have hlow : UInt8.ofNat (256 * toNumber bytes + b.toNat) = b := by
      apply UInt8.toNat_inj.mp
      simp only [UInt8.toNat_ofNat']
      omega
    simp only [toNumber_concat, List.length_append, List.length_singleton, ofNumber, hhigh, hlow, ih]

end Bytes

/-! ## The record at the front -/

section Front

variable {size : LengthSize} {p q rest behind bs : Bytes}

/-- A length field and as many bytes as it tells are a record. -/
theorem recordOf_toNumber {field : Bytes} (hfield : field.length = size.bytes)
    (hp : p.length = Bytes.toNumber field) : recordOf size.bytes p = field ++ p := by
  rw [recordOf, hp, ← hfield, Bytes.ofNumber_toNumber]

/-- Bytes begin with one record at most. -/
theorem recordOf_append_inj (hp : p.length < 256 ^ size.bytes) (hq : q.length < 256 ^ size.bytes)
    (h : recordOf size.bytes p ++ rest = recordOf size.bytes q ++ behind) : p = q ∧ rest = behind := by
  have hread := record?_recordOf hp 0 rest
  rw [h, record?_recordOf hq] at hread
  simp only [Except.ok.injEq, Option.some.injEq, Prod.mk.injEq] at hread
  exact ⟨hread.1.symm, hread.2.2.symm⟩

/-- Why no record begins at an offset although there are bytes left: they end before the length field
does, or before as many further bytes as it declares. -/
inductive Breaks (size : LengthSize) (offset : Nat) : Bytes → RecordError → Prop
  | length {rest : Bytes} (hne : rest ≠ []) (hshort : rest.length < size.bytes) :
      Breaks size offset rest (.truncatedLength offset)
  | payload {field body : Bytes} (hfield : field.length = size.bytes)
      (hshort : body.length < Bytes.toNumber field) :
      Breaks size offset (field ++ body) (.tooLong offset (Bytes.toNumber field) body.length)

theorem Breaks.record? {offset : Nat} {e : RecordError} (h : Breaks size offset bs e) :
    record? size (offset, bs) = .error e := by
  have hpos := size.one_le
  cases h with
  | length hne hshort =>
    obtain ⟨b, bs, rfl⟩ := List.exists_cons_of_ne_nil hne
    simp only [Multiview.record?, List.length_take]
    rw [if_pos (by omega)]
  | @payload field body hfield hshort =>
    have htake : (field ++ body).take size.bytes = field := List.take_left' hfield
    have hdrop : (field ++ body).drop size.bytes = body := List.drop_left' hfield
    generalize hbs : field ++ body = bs at htake hdrop
    cases bs with
    | nil =>
      simp only [List.append_eq_nil_iff] at hbs
      simp [hbs.1] at hfield
      omega
    | cons b bs =>
      simp only [Multiview.record?, htake, hdrop, List.length_take]
      rw [if_neg (by omega), if_pos (by omega)]

/-- What is left of a buffer is nothing, or begins with a record, or is broken. -/
theorem front_cases (size : LengthSize) (offset : Nat) (bs : Bytes) :
    bs = [] ∨
    (∃ p rest, p.length < 256 ^ size.bytes ∧ bs = recordOf size.bytes p ++ rest) ∨
    (∃ e, Breaks size offset bs e) := by
  by_cases hne : bs = []
  · exact .inl hne
  · right
    by_cases hshort : bs.length < size.bytes
    · exact .inr ⟨_, .length hne hshort⟩
    · have hfield : (bs.take size.bytes).length = size.bytes := by
        simp only [List.length_take]
        omega
      have hsplit : bs.take size.bytes ++ bs.drop size.bytes = bs := List.take_append_drop ..
      generalize bs.take size.bytes = field at hfield hsplit
      generalize bs.drop size.bytes = body at hsplit
      by_cases hbody : body.length < Bytes.toNumber field
      · right
        rw [← hsplit]
        exact ⟨_, .payload hfield hbody⟩
      · left
        have hp : (body.take (Bytes.toNumber field)).length = Bytes.toNumber field := by
          simp only [List.length_take]
          omega
        refine ⟨body.take (Bytes.toNumber field), body.drop (Bytes.toNumber field), ?_, ?_⟩
        · rw [hp, ← hfield]
          exact Bytes.toNumber_lt field
        · rw [recordOf_toNumber hfield hp, List.append_assoc, List.take_append_drop, hsplit]

end Front

/-! ## The whole buffer -/

/-- The buffer is these records and bytes behind them that no record begins with. -/
structure BreaksBehind (size : LengthSize) (bs : Bytes) (ps : List Bytes) (e : RecordError) : Prop where
  fit : ∀ p ∈ ps, p.length < 256 ^ size.bytes
  behind : ∃ rest, bs = writeRecords size.bytes ps ++ rest ∧
    Breaks size (writeRecords size.bytes ps).length rest e

section Whole

variable {size : LengthSize} {ps : List Bytes} {bs rest : Bytes} {e : RecordError}

/-- Every buffer is a number of records and a rest, which is nothing or is broken. -/
theorem exists_records (size : LengthSize) (offset : Nat) (bs : Bytes) :
    ∃ ps rest, (∀ p ∈ ps, p.length < 256 ^ size.bytes) ∧ bs = writeRecords size.bytes ps ++ rest ∧
      (rest = [] ∨ ∃ e, Breaks size (offset + (writeRecords size.bytes ps).length) rest e) := by
  induction hn : bs.length using Nat.strongRecOn generalizing offset bs with
  | ind n ih =>
    rcases front_cases size offset bs with rfl | ⟨p, rest, hp, rfl⟩ | hbroken
    · exact ⟨[], [], by simp, rfl, .inl rfl⟩
    · have hpos := size.one_le
      simp only [List.length_append, length_recordOf] at hn
      obtain ⟨ps, rest, hps, rfl, hrest⟩ :=
        ih rest.length (by omega) (offset + (recordOf size.bytes p).length) rest rfl
      refine ⟨p :: ps, rest, List.forall_mem_cons.mpr ⟨hp, hps⟩, ?_, ?_⟩
      · rw [writeRecords_cons, List.append_assoc]
      · rw [writeRecords_cons, List.length_append, ← Nat.add_assoc]
        exact hrest
    · exact ⟨[], bs, by simp, rfl, .inr hbroken⟩

theorem BreaksBehind.records (h : BreaksBehind size bs ps e) : records size bs = .error e := by
  obtain ⟨hps, rest, rfl, hrest⟩ := h
  rw [records_append hps, tryCollect, hrest.record?]

/-- A buffer is read if it consists of records, and there is an error if it breaks off behind some. -/
theorem records_cases (size : LengthSize) (bs : Bytes) :
    (∃ ps, (∀ p ∈ ps, p.length < 256 ^ size.bytes) ∧ bs = writeRecords size.bytes ps) ∨
      ∃ ps e, BreaksBehind size bs ps e := by
  obtain ⟨ps, rest, hps, rfl, rfl | ⟨e, he⟩⟩ := exists_records size 0 bs
  · exact .inl ⟨ps, hps, List.append_nil _⟩
  · rw [Nat.zero_add] at he
    exact .inr ⟨ps, e, hps, rest, rfl, he⟩

theorem toStartCodes_eq_ok_iff {out : Bytes} : toStartCodes size bs = .ok out ↔
    ∃ ps, (∀ p ∈ ps, p.length < 256 ^ size.bytes) ∧ bs = writeRecords size.bytes ps ∧
      out = withStartCodes ps := by
  constructor
  · intro h
    rcases records_cases size bs with ⟨ps, hps, rfl⟩ | ⟨ps, e, he⟩
    · simp only [toStartCodes, records_written hps, Except.map, Except.ok.injEq] at h
      exact ⟨ps, hps, rfl, h.symm⟩
    · simp [toStartCodes, he.records, Except.map] at h
  · rintro ⟨ps, hps, rfl, rfl⟩
    simp [toStartCodes, records_written hps, Except.map]

theorem toStartCodes_eq_error_iff :
    toStartCodes size bs = .error e ↔ ∃ ps, BreaksBehind size bs ps e := by
  constructor
  · intro h
    rcases records_cases size bs with ⟨ps, hps, rfl⟩ | ⟨ps, e', he⟩
    · simp [toStartCodes, records_written hps, Except.map] at h
    · simp only [toStartCodes, he.records, Except.map, Except.error.injEq] at h
      exact ⟨ps, h ▸ he⟩
  · rintro ⟨ps, he⟩
    simp [toStartCodes, he.records, Except.map]

end Whole

/-! ## Leading records -/

section Leading

variable {size : LengthSize} {ps qs : List Bytes} {bs rest : Bytes} {offset : Nat} {e : RecordError}

/-- No record with a payload comes first. -/
def NoRecord (size : LengthSize) (bs : Bytes) : Prop :=
  ∀ p, p ≠ [] → p.length < 256 ^ size.bytes → ¬ recordOf size.bytes p <+: bs

theorem noRecord_nil : NoRecord size [] := by
  intro p hp _ h
  have hlen := h.length_le
  have hpos := List.length_pos_iff.mpr hp
  rw [length_recordOf, List.length_nil] at hlen
  omega

theorem Breaks.noRecord (h : Breaks size offset bs e) : NoRecord size bs := by
  rintro p _ hp ⟨rest, rfl⟩
  have herr := h.record?
  rw [record?_recordOf hp] at herr
  cases herr

/-- The records with a payload at the front of a buffer, as many as there are. -/
structure LeadingRecords (size : LengthSize) (bs : Bytes) (ps : List Bytes) : Prop where
  fit : ∀ p ∈ ps, p ≠ [] ∧ p.length < 256 ^ size.bytes
  front : writeRecords size.bytes ps <+: bs
  longest : ∀ qs, (∀ q ∈ qs, q ≠ [] ∧ q.length < 256 ^ size.bytes) →
    writeRecords size.bytes qs <+: bs → qs <+: ps

theorem LeadingRecords.of_noRecord (hps : ∀ p ∈ ps, p ≠ [] ∧ p.length < 256 ^ size.bytes)
    (hrest : NoRecord size rest) : LeadingRecords size (writeRecords size.bytes ps ++ rest) ps where
  fit := hps
  front := List.prefix_append ..
  longest := by
    induction ps with
    | nil =>
      intro qs hqs h
      cases qs with
      | nil => exact List.nil_prefix
      | cons q qs =>
        obtain ⟨hne, hlt⟩ := hqs q List.mem_cons_self
        rw [writeRecords_cons] at h
        exact absurd ((List.prefix_append ..).trans h) (hrest q hne hlt)
    | cons p ps ih =>
      intro qs hqs h
      cases qs with
      | nil => exact List.nil_prefix
      | cons q qs =>
        obtain ⟨⟨_, hp⟩, hmore⟩ := List.forall_mem_cons.mp hps
        obtain ⟨⟨_, hq⟩, hqs⟩ := List.forall_mem_cons.mp hqs
        obtain ⟨behind, h⟩ := h
        rw [writeRecords_cons, writeRecords_cons, List.append_assoc, List.append_assoc] at h
        obtain ⟨rfl, hbehind⟩ := recordOf_append_inj hq hp h
        exact List.cons_prefix_cons.mpr ⟨rfl, ih hmore qs hqs ⟨behind, hbehind⟩⟩

theorem LeadingRecords.unique (hps : LeadingRecords size bs ps) (hqs : LeadingRecords size bs qs) :
    ps = qs :=
  (hqs.longest ps hps.fit hps.front).eq_of_length_le
    (hps.longest qs hqs.fit hqs.front).length_le

theorem exists_noRecord (size : LengthSize) (bs : Bytes) :
    ∃ ps rest, (∀ p ∈ ps, p ≠ [] ∧ p.length < 256 ^ size.bytes) ∧
      bs = writeRecords size.bytes ps ++ rest ∧ NoRecord size rest := by
  induction hn : bs.length using Nat.strongRecOn generalizing bs with
  | ind n ih =>
    by_cases h : NoRecord size bs
    · exact ⟨[], bs, by simp, rfl, h⟩
    · simp only [NoRecord, not_forall, not_not] at h
      obtain ⟨p, hne, hlt, rest, rfl⟩ := h
      have hpos := List.length_pos_iff.mpr hne
      simp only [List.length_append, length_recordOf] at hn
      obtain ⟨ps, behind, hps, rfl, hbehind⟩ := ih rest.length (by omega) rest rfl
      exact ⟨p :: ps, behind, List.forall_mem_cons.mpr ⟨⟨hne, hlt⟩, hps⟩,
        by rw [writeRecords_cons, List.append_assoc], hbehind⟩

/-- Records with a payload in front of an error are the leading ones. -/
theorem BreaksBehind.leading (h : BreaksBehind size bs ps e) (hne : ∀ p ∈ ps, p ≠ []) :
    LeadingRecords size bs ps := by
  obtain ⟨hps, rest, rfl, hrest⟩ := h
  exact .of_noRecord (fun p hp => ⟨hne p hp, hps p hp⟩) hrest.noRecord

end Leading

end Multiview
