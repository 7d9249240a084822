import Multiview.Engine.Simulated
import Multiview.Proofs.Nal.Offsets
import Multiview.Proofs.Outcome

/-!
Blanking out end of sequence units. Their start codes and header bytes are set to zero, so that the
buffer loses these start codes and keeps all others. It gets a new one only where the bytes behind such a
header are 1 or 0, 1, as they complete the zeros in front of them. An end of sequence unit of one byte
leaves no trace; one with such bytes in it can hide another one that is there afterwards.
-/

namespace Multiview

open Outcome

/-! ## Setting bytes to zero -/

/-- Four bytes are set to zero from each of the offsets on, as far as there are any, and nothing else. -/
structure Blanks (starts : List Nat) (bs bs' : Bytes) : Prop where
  length : bs'.length = bs.length
  zero : ∀ e ∈ starts, ∀ i, e ≤ i → i < e + 4 → i < bs.length → bs'[i]? = some 0
  kept : ∀ i, (∀ e ∈ starts, i < e ∨ e + 4 ≤ i) → bs'[i]? = bs[i]?

theorem blankUnit_blanks {start : Nat} {bs : Bytes} (h : start ≤ bs.length) :
    Returns (blankUnit start bs) (Blanks [start] bs) := by
  have hfront : (bs.take start).length = start := by
    rw [List.length_take]
    omega
  have hzeros : (bs.take start ++ List.replicate (min (start + 4) bs.length - start) 0).length =
      min (start + 4) bs.length := by
    rw [List.length_append, hfront, List.length_replicate]
    omega
  unfold blankUnit
  dsimp only
  rw [takeExactly_of_le h]
  refine .ok ⟨?_, ?_, ?_⟩
  · rw [List.length_append, hzeros, List.length_drop]
    omega
  · intro e he i hei hie hi
    rw [List.mem_singleton.mp he] at hei hie
    rw [List.getElem?_append_left (by omega), List.getElem?_append_right (by omega),
      List.getElem?_replicate, if_pos (by omega)]
  · intro i hi
    rcases hi start (List.mem_singleton_self start) with hlt | hge
    · rw [List.getElem?_append_left (by omega), List.getElem?_append_left (by omega),
        List.getElem?_take, if_pos hlt]
    · rw [List.getElem?_append_right (by omega), hzeros, List.getElem?_drop]
      by_cases hin : i < bs.length
      · congr 1
        omega
      · rw [List.getElem?_eq_none (by omega), List.getElem?_eq_none (by omega)]

namespace Blanks

variable {starts more : List Nat} {bs bs' bs'' : Bytes} {i : Nat}

theorem refl (bs : Bytes) : Blanks [] bs bs := ⟨rfl, nofun, fun _ _ => rfl⟩

theorem zero_of_zero (h : Blanks starts bs bs') (hi : bs[i]? = some 0) : bs'[i]? = some 0 := by
  by_cases hkept : ∀ e ∈ starts, i < e ∨ e + 4 ≤ i
  · rw [h.kept i hkept, hi]
  · simp only [not_forall, not_or, Nat.not_lt, Nat.not_le] at hkept
    obtain ⟨e, he, hei, hie⟩ := hkept
    exact h.zero e he i hei hie (List.getElem?_eq_some_iff.mp hi).1

theorem trans (h : Blanks starts bs bs') (h' : Blanks more bs' bs'') :
    Blanks (starts ++ more) bs bs'' where
  length := h'.length.trans h.length
  zero e he i hei hie hi := by
    rcases List.mem_append.mp he with he | he
    · exact h'.zero_of_zero (h.zero e he i hei hie hi)
    · exact h'.zero e he i hei hie (h.length ▸ hi)
  kept i hi := by
    rw [h'.kept i fun e he => hi e (List.mem_append_right _ he),
      h.kept i fun e he => hi e (List.mem_append_left _ he)]

/-- A byte that is not zero is one that was kept. -/
theorem kept_of_ne_zero {b : UInt8} (h : Blanks starts bs bs') (hi : bs'[i]? = some b) (hb : b ≠ 0) :
    bs[i]? = some b ∧ ∀ e ∈ starts, i < e ∨ e + 4 ≤ i := by
  have hkept : ∀ e ∈ starts, i < e ∨ e + 4 ≤ i := by
    intro e he
    by_contra hcov
    have hlt := (List.getElem?_eq_some_iff.mp hi).1
    have hzero := h.zero e he i (by omega) (by omega) (h.length ▸ hlt)
    rw [hi, Option.some.injEq] at hzero
    exact hb hzero
  rw [← h.kept i hkept]
  exact ⟨hi, hkept⟩

end Blanks

theorem foldlM_blanks {starts : List Nat} {bs : Bytes} (h : ∀ e ∈ starts, e ≤ bs.length) :
    Returns (starts.foldlM (fun b e => blankUnit e b) bs) (Blanks starts bs) := by
  induction starts generalizing bs with
  | nil => exact .ok (.refl bs)
  | cons e starts ih =>
    obtain ⟨he, hstarts⟩ := List.forall_mem_cons.mp h
    refine (blankUnit_blanks he).bind fun b hb => ?_
    exact (ih fun e he => hb.length ▸ hstarts e he).mono fun _ hb' => hb.trans hb'

/-! ## End of sequence units -/

def IsEndHeader (b : UInt8) : Prop := (NalHeader.parse b).type = .endOfSequence

instance (b : UInt8) : Decidable (IsEndHeader b) :=
  inferInstanceAs (Decidable ((NalHeader.parse b).type = .endOfSequence))

theorem IsEndHeader.ne_zero {b : UInt8} (h : IsEndHeader b) : b ≠ 0 := by
  rintro rfl
  cases h

def NalUnit.endsSequence (u : NalUnit) : Bool := u.header.type == .endOfSequence

theorem mem_ends_iff_unit {bs : Bytes} {e : Nat} : e ∈ endOfSequenceStarts bs ↔
    ∃ u ∈ startCodeUnits bs, u.endsSequence = true ∧ u.start = e := by
  simp [endOfSequenceStarts, NalUnit.endsSequence, and_assoc]

theorem mem_endOfSequenceStarts {bs : Bytes} {e : Nat} :
    e ∈ endOfSequenceStarts bs ↔
      e ∈ codeOffsets bs ∧ ∃ b, bs[e + 3]? = some b ∧ IsEndHeader b := by
  simp only [mem_ends_iff_unit, NalUnit.endsSequence, beq_iff_eq]
  constructor
  · rintro ⟨u, hu, hend, rfl⟩
    obtain ⟨hcode, hfrom⟩ := splitFrom_of_mem hu
    obtain ⟨b, hb, hheader⟩ := Option.map_eq_some_iff.mp hfrom.header
    rw [hfrom.pos] at hb
    exact ⟨hcode, b, hb, (congrArg NalHeader.type hheader).trans hend⟩
  · rintro ⟨hcode, b, hb, hend⟩
    obtain ⟨u, hu, rfl⟩ := exists_unit hcode
    have hfrom := (splitFrom_of_mem hu).2
    have hheader := hfrom.header
    rw [hfrom.pos, hb, Option.map_some, Option.some.injEq] at hheader
    exact ⟨u, hu, (congrArg NalHeader.type hheader).symm.trans hend, rfl⟩

theorem blankEndOfSequence_blanks (bs : Bytes) :
    Returns (blankEndOfSequence bs) (Blanks (endOfSequenceStarts bs) bs) := by
  apply foldlM_blanks
  intro e he
  have hlt := (code_iff_bytes.mp (mem_endOfSequenceStarts.mp he).1).1
  omega

section Ends

variable {bs bs' : Bytes} {e i p : Nat}

/-- The header byte of an end of sequence unit is part of no start code. -/
theorem end_apart (he : e ∈ endOfSequenceStarts bs) (hp : p ∈ codeOffsets bs) (hlt : e < p) :
    e + 4 ≤ p := by
  obtain ⟨hcode, b, hb, hend⟩ := mem_endOfSequenceStarts.mp he
  have hapart := codeOffsets_apart hcode hp hlt
  by_contra hge
  obtain rfl : p = e + 3 := by omega
  rw [(code_iff_bytes.mp hp).2.1, Option.some.injEq] at hb
  exact hend.ne_zero hb.symm

/-- Blanking changes a unit of the buffer only if it is one that ends the sequence. -/
theorem Blanks.kept_of_unit (h : Blanks (endOfSequenceStarts bs) bs bs') (hp : p ∈ codeOffsets bs)
    (hpi : p ≤ i) (hi : i < nextCode bs p) (hend : p ∈ endOfSequenceStarts bs → p + 4 ≤ i) :
    bs'[i]? = bs[i]? := by
  refine h.kept i fun e he => ?_
  have hcode := (mem_endOfSequenceStarts.mp he).1
  rcases Nat.lt_trichotomy e p with hlt | rfl | hgt
  · have hapart := end_apart he hp hlt
    omega
  · exact .inr (hend he)
  · have hnext := nextCode_le hp hcode hgt
    omega

/-- With the unit at `e` blanked out a start code begins at an offset, because a byte 1 follows its header
byte, or a byte 0 and a byte 1. -/
inductive Uncovers (bs : Bytes) (e : Nat) : Nat → Prop
  | one (hone : bs[e + 4]? = some 1) (hlt : e + 5 < bs.length) : Uncovers bs e (e + 2)
  | zero (hzero : bs[e + 4]? = some 0) (hone : bs[e + 5]? = some 1) (hlt : e + 6 < bs.length) :
    Uncovers bs e (e + 3)

/-- No other unit begins in front of the header byte behind such a start code, unless that byte is zero. -/
theorem Uncovers.le_code (h : Uncovers bs e p) (he : e ∈ endOfSequenceStarts bs) {q : Nat}
    (hq : q ∈ codeOffsets bs) (hlt : e < q) : p + 3 ≤ q := by
  have hapart := end_apart he hq hlt
  obtain ⟨-, hq0, hq1, -⟩ := code_iff_bytes.mp hq
  cases h with
  | one hone _ =>
    by_contra hge
    obtain rfl : q = e + 4 := by omega
    simp [hone] at hq0
  | zero hzero hone _ =>
    by_contra hge
    obtain rfl | rfl : q = e + 4 ∨ q = e + 5 := by omega
    · simp [hone] at hq1
    · simp [hone] at hq0

/-- The start codes after blanking are those of all other units, and those that are completed by it. -/
theorem Blanks.mem_codeOffsets (h : Blanks (endOfSequenceStarts bs) bs bs') :
    p ∈ codeOffsets bs' ↔ (p ∈ codeOffsets bs ∧ p ∉ endOfSequenceStarts bs) ∨
      ∃ e ∈ endOfSequenceStarts bs, Uncovers bs e p := by
  constructor
  · intro hp
    obtain ⟨hlt, hp0, hp1, hp2⟩ := code_iff_bytes.mp hp
    rw [h.length] at hlt
    obtain ⟨hone, hkept⟩ := h.kept_of_ne_zero hp2 (by decide)
    by_cases hcov : ∃ e ∈ endOfSequenceStarts bs, e ≤ p + 1 ∧ p < e + 4
    · right
      obtain ⟨e, he, hep, hpe⟩ := hcov
      refine ⟨e, he, ?_⟩
      have hbehind := hkept e he
      obtain rfl | rfl : p = e + 2 ∨ p = e + 3 := by omega
      · exact .one hone hlt
      · refine .zero ?_ hone hlt
        rw [← hp1]
        refine (h.kept (e + 4) fun e' he' => ?_).symm
        have hbehind' := hkept e' he'
        have hcode := (mem_endOfSequenceStarts.mp he).1
        have hcode' := (mem_endOfSequenceStarts.mp he').1
        by_contra hin
        have hapart := codeOffsets_apart hcode hcode' (by omega)
        omega
    · left
      have hsame : ∀ i, p ≤ i → i ≤ p + 1 → bs'[i]? = bs[i]? := by
        intro i hpi hip
        refine h.kept i fun e he => ?_
        by_contra hin
        exact hcov ⟨e, he, by omega, by omega⟩
      rw [hsame p (by omega) (by omega)] at hp0
      rw [hsame (p + 1) (by omega) (by omega)] at hp1
      refine ⟨code_iff_bytes.mpr ⟨hlt, hp0, hp1, hone⟩, fun hend => ?_⟩
      have hbehind := hkept p hend
      omega
  · intro hp
    rw [code_iff_bytes, h.length]
    rcases hp with ⟨hp, hend⟩ | ⟨e, he, hun⟩
    · obtain ⟨hlt, hp0, hp1, hp2⟩ := code_iff_bytes.mp hp
      have hnext := add_three_le_nextCode hp
      rw [h.kept_of_unit hp (by omega) (by omega) (absurd · hend),
        h.kept_of_unit hp (by omega) (by omega) (absurd · hend),
        h.kept_of_unit hp (by omega) (by omega) (absurd · hend)]
      exact ⟨hlt, hp0, hp1, hp2⟩
    · have hlast : bs'[p + 2]? = bs[p + 2]? := by
        refine h.kept (p + 2) fun e' he' => ?_
        have hcode := (mem_endOfSequenceStarts.mp he).1
        have hcode' := (mem_endOfSequenceStarts.mp he').1
        by_cases hlt : e < e'
        · have hle := hun.le_code he hcode' hlt
          omega
        · cases hun <;> omega
      cases hun with
      | one hone hlt =>
        exact ⟨hlt, h.zero e he _ (by omega) (by omega) (by omega),
          h.zero e he _ (by omega) (by omega) (by omega), hlast.trans hone⟩
      | zero hzero hone hlt =>
        exact ⟨hlt, h.zero e he _ (by omega) (by omega) (by omega), h.zero_of_zero hzero,
          hlast.trans hone⟩

/-- An end of sequence unit is left only where blanking completes its start code. -/
theorem Blanks.exists_end_iff (h : Blanks (endOfSequenceStarts bs) bs bs') :
    (∃ p, p ∈ endOfSequenceStarts bs') ↔
      ∃ e ∈ endOfSequenceStarts bs, ∃ p b,
        Uncovers bs e p ∧ bs[p + 3]? = some b ∧ IsEndHeader b := by
  constructor
  · rintro ⟨p, hp⟩
    obtain ⟨hcode, b, hb, hend⟩ := mem_endOfSequenceStarts.mp hp
    obtain ⟨hbyte, -⟩ := h.kept_of_ne_zero hb hend.ne_zero
    rcases h.mem_codeOffsets.mp hcode with ⟨hold, hnot⟩ | ⟨e, he, hun⟩
    · exact absurd (mem_endOfSequenceStarts.mpr ⟨hold, b, hbyte, hend⟩) hnot
    · exact ⟨e, he, p, b, hun, hbyte, hend⟩
  · rintro ⟨e, he, p, b, hun, hb, hend⟩
    have hcode := h.mem_codeOffsets.mpr (.inr ⟨e, he, hun⟩)
    refine ⟨p, mem_endOfSequenceStarts.mpr ⟨hcode, b, ?_, hend⟩⟩
    rw [← hb]
    refine h.kept (p + 3) fun e' he' => ?_
    have hcode' := (mem_endOfSequenceStarts.mp he').1
    rcases Nat.lt_or_ge e e' with hlt | hge
    · have hle := hun.le_code he hcode' hlt
      have hne : e' ≠ p + 3 := by
        rintro rfl
        rw [(code_iff_bytes.mp hcode').2.1, Option.some.injEq] at hb
        exact hend.ne_zero hb.symm
      omega
    · cases hun <;> omega

end Ends

/-! ## What is left -/

/-- Behind the header byte there is, with a zero byte in front or not, a byte 1 and then the header byte of
an end of sequence unit. -/
def NalUnit.hidesEnd (u : NalUnit) : Bool :=
  match u.data.tail with
  | 1 :: b :: _ => decide (IsEndHeader b)
  | 0 :: 1 :: b :: _ => decide (IsEndHeader b)
  | _ => false

theorem NalUnit.hidesEnd_iff (u : NalUnit) : u.hidesEnd = true ↔ ∃ b, IsEndHeader b ∧
    (u.data[1]? = some 1 ∧ u.data[2]? = some b ∨
      u.data[1]? = some 0 ∧ u.data[2]? = some 1 ∧ u.data[3]? = some b) := by
  simp only [← List.getElem?_tail, NalUnit.hidesEnd]
  generalize u.data.tail = rest
  split
  · simp
  · simp
  · rename_i hone hzero
    simp only [Bool.false_eq_true, false_iff, not_exists]
    rintro b ⟨hend, ⟨h0, h1⟩ | ⟨h0, h1, h2⟩⟩
    · obtain ⟨more, rfl⟩ : ∃ more, rest = 1 :: b :: more := by
        rcases rest with _ | ⟨x, _ | ⟨y, more⟩⟩ <;> simp_all
      exact hone b more rfl
    · obtain ⟨more, rfl⟩ : ∃ more, rest = 0 :: 1 :: b :: more := by
        rcases rest with _ | ⟨x, _ | ⟨y, _ | ⟨z, more⟩⟩⟩ <;> simp_all
      exact hzero b more rfl

section Units

variable {bs bs' : Bytes} {u : NalUnit}

/-- The start codes that blanking completes with the header of an end of sequence unit behind them are
those that are hidden in a unit. -/
theorem hidesEnd_iff_uncovers (hu : u ∈ startCodeUnits bs) (hend : u.endsSequence = true) :
    u.hidesEnd = true ↔
      ∃ p b, Uncovers bs u.start p ∧ bs[p + 3]? = some b ∧ IsEndHeader b := by
  have he := mem_ends_iff_unit.mpr ⟨u, hu, hend, rfl⟩
  obtain ⟨hcode, hfrom⟩ := splitFrom_of_mem hu
  obtain ⟨hslice, hzeros⟩ := hfrom.slice_eq hcode
  have hpos := hfrom.pos
  have hbyte : ∀ i, u.data[i]? = if u.start + 3 + i < u.stop then bs[u.start + 3 + i]? else none := by
    intro i
    rw [← hslice, Bytes.getElem?_slice, hpos]
  rw [u.hidesEnd_iff]
  constructor
  · have hin : ∀ {i b}, u.data[i]? = some b → bs[u.start + 3 + i]? = some b := by
      intro i b hi
      rw [hbyte] at hi
      split at hi
      · exact hi
      · cases hi
    rintro ⟨b, hb, ⟨h1, h2⟩ | ⟨h1, h2, h3⟩⟩
    · have hlt := (List.getElem?_eq_some_iff.mp (hin h2)).1
      exact ⟨_, b, .one (hin h1) hlt, hin h2, hb⟩
    · have hlt := (List.getElem?_eq_some_iff.mp (hin h3)).1
      exact ⟨_, b, .zero (hin h1) (hin h2) hlt, hin h3, hb⟩
  · rintro ⟨p, b, hun, hb, hhead⟩
    have hlt := (List.getElem?_eq_some_iff.mp hb).1
    have hgt := add_three_le_nextCode hcode
    -- The header byte is neither the beginning of the next start code nor a zero byte in front of it.
    have hnext : p + 3 < nextCode bs u.start := by
      by_contra hge
      have hmem := nextCode_mem hcode (by omega)
      have hle := hun.le_code he hmem (by omega)
      have hsame : nextCode bs u.start = p + 3 := by omega
      rw [hsame] at hmem
      rw [(code_iff_bytes.mp hmem).2.1, Option.some.injEq] at hb
      exact hhead.ne_zero hb.symm
    have hstop : p + 3 < u.stop := by
      by_contra hge
      rw [hzeros (p + 3) (by omega) hnext, Option.some.injEq] at hb
      exact hhead.ne_zero hb.symm
    refine ⟨b, hhead, ?_⟩
    cases hun with
    | one hone _ =>
      left
      rw [hbyte, hbyte, if_pos (by omega), if_pos (by omega)]
      exact ⟨hone, hb⟩
    | zero hzero hone _ =>
      right
      rw [hbyte, hbyte, hbyte, if_pos (by omega), if_pos (by omega), if_pos (by omega)]
      exact ⟨hzero, hone, hb⟩

/-- End of sequence units are left behind just if some unit hides one. -/
theorem Blanks.exists_endsSequence_iff (h : Blanks (endOfSequenceStarts bs) bs bs') :
    (∃ v ∈ startCodeUnits bs', v.endsSequence = true) ↔
      ∃ u ∈ startCodeUnits bs, u.endsSequence = true ∧ u.hidesEnd = true := by
  have hsome : (∃ v ∈ startCodeUnits bs', v.endsSequence = true) ↔
      ∃ p, p ∈ endOfSequenceStarts bs' := by
    simp [mem_ends_iff_unit]
  rw [hsome, h.exists_end_iff]
  constructor
  · rintro ⟨e, he, hun⟩
    obtain ⟨u, hu, hend, rfl⟩ := mem_ends_iff_unit.mp he
    exact ⟨u, hu, hend, (hidesEnd_iff_uncovers hu hend).mpr hun⟩
  · rintro ⟨u, hu, hend, hhides⟩
    have he := mem_ends_iff_unit.mpr ⟨u, hu, hend, rfl⟩
    exact ⟨u.start, he, (hidesEnd_iff_uncovers hu hend).mp hhides⟩

end Units

namespace Session

variable {σ : Type}

/-- The buffer with input behind it, before anything is blanked out. -/
def withInput (s : Session σ) (data : Bytes) : Except RecordError Bytes :=
  match s.lengthSize with
  | none => .ok (s.buffer ++ data)
  | some size => (toStartCodes size data).map (s.buffer ++ ·)

theorem appendInput_eq (s : Session σ) (data : Bytes) :
    s.appendInput data = match s.withInput data with
      | .error e => .ok (.error (.record e))
      | .ok buffer => (fun b => .ok { s with buffer := b }) <$> blankEndOfSequence buffer := by
  cases hl : s.lengthSize with
  | none =>
    simp only [appendInput, withInput, hl]
    cases blankEndOfSequence (s.buffer ++ data) <;> rfl
  | some size =>
    simp only [appendInput, withInput, hl]
    cases toStartCodes size data with
    | error e => rfl
    | ok converted =>
      simp only [Except.map]
      cases blankEndOfSequence (s.buffer ++ converted) <;> rfl

/-- Input that is accepted leaves an end of sequence unit in the buffer just if one that was there before
blanking hides it. -/
theorem appendInput_endsSequence_iff {s t : Session σ} {data : Bytes}
    (h : s.appendInput data = .ok (.ok t)) :
    ∃ buffer us vs, s.withInput data = .ok buffer ∧ Finds .startCodes buffer us ∧
      Finds .startCodes t.buffer vs ∧ ((∃ v ∈ vs, v.endsSequence = true) ↔
        ∃ u ∈ us, u.endsSequence = true ∧ u.hidesEnd = true) := by
  rw [appendInput_eq] at h
  cases hinput : s.withInput data with
  | error e =>
    rw [hinput] at h
    cases h
  | ok buffer =>
    obtain ⟨b, hb, hblanks⟩ := blankEndOfSequence_blanks buffer
    rw [hinput] at h
    simp only [hb] at h
    cases h
    exact ⟨buffer, _, _, rfl, finds_startCodeUnits buffer, finds_startCodeUnits b,
      hblanks.exists_endsSequence_iff⟩

/-- A session with a slice in its buffer. Samples come with lengths of two bytes. -/
def slicedSession : Session SimulatedEngine :=
  { engine := {}, phase := .opened, lengthSize := some .two, buffer := [0, 0, 1, 0x65, 0x88] }

/-- Of two end of sequence units the second one has a byte 1 behind its header byte, but nothing behind
that. -/
theorem slicedSession_ends : ∃ t vs,
    slicedSession.appendInput [0, 1, 0x0a, 0, 2, 0x0a, 1] = .ok (.ok t) ∧
      Finds .startCodes t.buffer vs ∧ ¬ ∃ v ∈ vs, v.endsSequence = true := by
  have haccept : slicedSession.appendInput [0, 1, 0x0a, 0, 2, 0x0a, 1] =
      .ok (.ok { slicedSession with
        buffer := [0, 0, 1, 0x65, 0x88, 0, 0, 0, 0, 0, 0, 0, 0, 0, 1] }) := rfl
  obtain ⟨buffer, us, vs, hbuffer, hus, hvs, hiff⟩ := appendInput_endsSequence_iff haccept
  refine ⟨_, vs, haccept, hvs, ?_⟩
  obtain rfl : [0, 0, 1, 0x65, 0x88, 0, 0, 0, 1, 0x0a, 0, 0, 1, 0x0a, 1] = buffer :=
    Except.ok.inj hbuffer
  rw [hiff, hus.eq_startCodeUnits]
  decide

/-- A session at the start of a stream with start codes. -/
def openedSession : Session SimulatedEngine := { engine := {}, phase := .opened }

/-- An end of sequence unit comes out as the one that hides it is blanked out. -/
theorem openedSession_hidden : ∃ t vs,
    openedSession.appendInput [0, 0, 1, 0x0a, 1, 0x0a] = .ok (.ok t) ∧
      Finds .startCodes t.buffer vs ∧ ∃ v ∈ vs, v.endsSequence = true := by
  have haccept : openedSession.appendInput [0, 0, 1, 0x0a, 1, 0x0a] =
      .ok (.ok { openedSession with buffer := [0, 0, 0, 0, 1, 0x0a] }) := rfl
  exact ⟨_, _, haccept, finds_startCodeUnits _, by decide⟩

end Session

/-! ## What is kept -/

section Lone

variable {bs bs' : Bytes} {u : NalUnit} {e p : Nat}

/-- Behind the header bytes of end of sequence units there are zero bytes only. -/
def EndsLone (bs : Bytes) : Prop :=
  ∀ e ∈ endOfSequenceStarts bs, ∀ i, e + 4 ≤ i → i < nextCode bs e → bs[i]? = some 0

theorem endsLone_of_length
    (h : ∀ u ∈ startCodeUnits bs, u.endsSequence = true → u.data.length = 1) : EndsLone bs := by
  intro e he i hei hi
  obtain ⟨u, hu, hend, rfl⟩ := mem_ends_iff_unit.mp he
  obtain ⟨hcode, hfrom⟩ := splitFrom_of_mem hu
  have hpos := hfrom.pos
  have hlength := h u hu hend
  refine (hfrom.slice_eq hcode).2 i ?_ hi
  unfold NalUnit.stop
  omega

theorem EndsLone.not_uncovers (h : EndsLone bs) (he : e ∈ endOfSequenceStarts bs) :
    ¬ Uncovers bs e p := by
  intro hun
  have hcode := (mem_endOfSequenceStarts.mp he).1
  have hgt := add_three_le_nextCode hcode
  have hbehind : p + 3 ≤ nextCode bs e := by
    rcases Nat.lt_or_ge (nextCode bs e) bs.length with hin | hout
    · exact hun.le_code he (nextCode_mem hcode hin) (by omega)
    · cases hun <;> omega
  cases hun with
  | one hone _ => simp [h e he (e + 4) (by omega) (by omega)] at hone
  | zero _ hone _ => simp [h e he (e + 5) (by omega) (by omega)] at hone

section Blanked

variable (h : Blanks (endOfSequenceStarts bs) bs bs') (hlone : EndsLone bs)

include h hlone

theorem code_blanked :
    p ∈ codeOffsets bs' ↔ p ∈ codeOffsets bs ∧ p ∉ endOfSequenceStarts bs := by
  rw [h.mem_codeOffsets]
  constructor
  · rintro (hp | ⟨e, he, hun⟩)
    · exact hp
    · exact absurd hun (hlone.not_uncovers he)
  · exact .inl

/-- Up to the next start code that is left there are zero bytes in place of the units that were blanked
out. -/
theorem zeros_blanked (hp : p ∈ codeOffsets bs') :
    nextCode bs p ≤ nextCode bs' p ∧
      ∀ i, nextCode bs p ≤ i → i < nextCode bs' p → bs'[i]? = some 0 := by
  have hold := ((code_blanked h hlone).mp hp).1
  have hgt := add_three_le_nextCode hold
  have hgt' := add_three_le_nextCode hp
  have hlen := nextCode_le_length hold
  have hlen' := nextCode_le_length hp
  rw [h.length] at hlen'
  constructor
  · rcases Nat.lt_or_ge (nextCode bs' p) bs'.length with hin | hout
    · have hmem := (code_blanked h hlone).mp (nextCode_mem hp hin)
      exact nextCode_le hold hmem.1 (by omega)
    · exact Nat.le_trans hlen (h.length ▸ hout)
  · intro i hge hlt
    obtain ⟨e, he, hne, hei, hie⟩ :=
      exists_code_around (nextCode_mem hold (by omega)) hge (by omega)
    have hend : e ∈ endOfSequenceStarts bs := by
      by_contra hnot
      have hleft := nextCode_le hp ((code_blanked h hlone).mpr ⟨he, hnot⟩) (by omega)
      omega
    rcases Nat.lt_or_ge i (e + 4) with hin | hout
    · exact h.zero e hend i hei hin (by omega)
    · exact h.zero_of_zero (hlone e hend i hout hie)

/-- A unit that is not blanked out is split off as before. -/
theorem NalUnit.SplitFrom.blanked (hu : u.SplitFrom bs) (hp : u.start ∈ codeOffsets bs')
    (hne : u.data ≠ []) : u.SplitFrom bs' := by
  obtain ⟨hcode, hnot⟩ := (code_blanked h hlone).mp hp
  obtain ⟨hle, hzeros⟩ := zeros_blanked h hlone hp
  have hpos := hu.pos
  have hnext := hu.stop_le_next
  have hlong := List.length_pos_iff.mpr hne
  have hsame : ∀ i, u.pos ≤ i → i < nextCode bs u.start → bs'[i]? = bs[i]? := by
    intro i hge hlt
    exact h.kept_of_unit hcode (by omega) hlt (absurd · hnot)
  have hstop : u.stop = u.pos + u.data.length := rfl
  refine ⟨hpos, ?_, ⟨?_, fun _ => hne, hu.data.last⟩, Nat.le_trans hnext hle, ?_⟩
  · rw [hsame u.pos (Nat.le_refl _) (by omega)]
    exact hu.header
  · obtain ⟨n, hn⟩ := hu.data.zeros
    refine ⟨n + (nextCode bs' u.start - nextCode bs u.start), ?_⟩
    rw [← Bytes.slice_append hu.pos_le_next hle, Bytes.slice_congr hsame, hn,
      Bytes.slice_zeros hzeros, List.append_assoc, List.replicate_append_replicate]
  · rw [h.length]
    exact hu.stop_le_length

end Blanked

/-- If no unit is empty and end of sequence units have nothing behind their header bytes, then blanking
leaves all other units where and as they are. -/
theorem blankEndOfSequence_leaves {bs : Bytes} {us : List NalUnit} (hus : Finds .startCodes bs us)
    (hne : ∀ u ∈ us, u.data ≠ []) (hlone : ∀ u ∈ us, u.endsSequence = true → u.data.length = 1) :
    ∃ b, blankEndOfSequence bs = .ok b ∧ b.length = bs.length ∧
      Finds .startCodes b (us.filter (!·.endsSequence)) := by
  obtain rfl := hus.eq_startCodeUnits
  obtain ⟨b, hb, hblanks⟩ := blankEndOfSequence_blanks bs
  have hends := endsLone_of_length hlone
  refine ⟨b, hb, hblanks.length, ?_⟩
  have hunits : startCodeUnits b = (startCodeUnits bs).filter (!·.endsSequence) := by
    apply startCodeUnits_of_splits
    · exact (pairwise_startCodeUnits bs).filter _
    · intro u hu
      obtain ⟨hu, hgoes⟩ := List.mem_filter.mp hu
      obtain ⟨hcode, hfrom⟩ := splitFrom_of_mem hu
      have hnot : u.start ∉ endOfSequenceStarts bs := by
        intro hend
        obtain ⟨v, hv, hend, hstart⟩ := mem_ends_iff_unit.mp hend
        rw [(splitFrom_of_mem hv).2.unique hfrom hstart] at hend
        simp [hend] at hgoes
      have hp := (code_blanked hblanks hends).mpr ⟨hcode, hnot⟩
      exact ⟨hp, hfrom.blanked hblanks hends hp (hne u hu)⟩
    · intro p hp
      obtain ⟨hcode, hnot⟩ := (code_blanked hblanks hends).mp hp
      obtain ⟨u, hu, rfl⟩ := exists_unit hcode
      refine ⟨u, List.mem_filter.mpr ⟨hu, ?_⟩, rfl⟩
      rw [Bool.not_eq_true', Bool.eq_false_iff]
      exact fun hend => hnot (mem_ends_iff_unit.mpr ⟨u, hu, hend, rfl⟩)
  rw [← hunits]
  exact finds_startCodeUnits b

/-- A slice, two end of sequence units in a row, a slice, and an end of sequence unit with a zero byte behind
it. -/
def endsBuffer : Bytes :=
  [0, 0, 1, 0x65, 0x88, 0, 0, 1, 0x0a, 0, 0, 0, 1, 0x0a, 0, 0, 1, 0x74, 0x81, 0, 0, 1, 0x0a, 0]

theorem endsBuffer_leaves : ∃ b, blankEndOfSequence endsBuffer = .ok b ∧ b.length = 24 ∧
    Finds .startCodes b [⟨NalHeader.parse 0x65, 0, 3, [0x65, 0x88]⟩,
      ⟨NalHeader.parse 0x74, 14, 17, [0x74, 0x81]⟩] :=
  blankEndOfSequence_leaves (finds_startCodeUnits endsBuffer) (by decide) (by decide)

end Lone

end Multiview
