import Multiview.Proofs.Nal.Lengths
import Multiview.Proofs.Nal.Offsets
import Multiview.Proofs.Outcome

/-!
Headers of units. The header of a unit is read from the buffer, apart from the data that are cut out for
it. The two go together for every unit that has data: its first byte is the header byte. Between start
codes there may be units without data. They are those whose header byte belongs to the next start code.
-/

namespace Multiview

open Outcome

/-- The unit lies in the buffer where it says, and its header byte with it. -/
structure NalUnit.PlacedIn (bs : Bytes) (u : NalUnit) : Prop where
  data : bs.slice u.pos u.stop = u.data
  header : bs[u.pos]?.map NalHeader.parse = some u.header

section Placed

variable {bs : Bytes} {u : NalUnit}

theorem NalUnit.head?_data (hdata : bs.slice u.pos u.stop = u.data) (hne : u.data ≠ []) :
    u.data.head? = bs[u.pos]? := by
  have hpos := List.length_pos_iff.mpr hne
  rw [List.head?_eq_getElem?, ← hdata, Bytes.getElem?_slice, Nat.add_zero, if_pos]
  exact Nat.lt_add_of_pos_right hpos

/-- The first byte of the data, if there is one, is the header byte. -/
theorem NalUnit.PlacedIn.first (h : u.PlacedIn bs) :
    u.data.head?.map NalHeader.parse = if u.data = [] then none else some u.header := by
  by_cases hnil : u.data = []
  · rw [if_pos hnil, hnil]
    rfl
  · rw [if_neg hnil, NalUnit.head?_data h.data hnil, h.header]

end Placed

/-! ## Start codes -/

section StartCodes

variable {bs : Bytes} {u : NalUnit}

theorem placedIn_of_mem_startCodeUnits (h : u ∈ startCodeUnits bs) : u.PlacedIn bs := by
  obtain ⟨hcode, hsplit⟩ := splitFrom_of_mem h
  exact ⟨(hsplit.slice_eq hcode).1, hsplit.header⟩

/-- A unit is without data if the next start code begins where its header byte should be. -/
theorem data_eq_nil_iff (h : u ∈ startCodeUnits bs) : u.data = [] ↔ u.pos ∈ codeOffsets bs := by
  obtain ⟨hcode, hsplit⟩ := splitFrom_of_mem h
  constructor
  · intro hdata
    exact (hsplit.of_empty hcode hdata).2.1
  · intro hnext
    have hpos := hsplit.pos
    have hle := nextCode_le hcode hnext (by omega)
    have hstop := hsplit.stop_le_next
    unfold NalUnit.stop at hstop
    exact List.eq_nil_of_length_eq_zero (by omega)

end StartCodes

/-! ## Length fields -/

section LengthFields

variable {bs : Bytes} {size : Nat} {c c' : Cursor} {u : NalUnit}

/-- A unit is found behind a length field if that declares some bytes and they are there. -/
theorem lengthFieldUnit?_found (h : lengthFieldUnit? size c = .ok (some (u, c'))) :
    ∃ head tail length, c.rest.drop size = head :: tail ∧ 0 < length ∧
      length ≤ (head :: tail).length ∧
      u = ⟨NalHeader.parse head, c.offset, c.offset + size, (head :: tail).take length⟩ ∧
      c' = ⟨c.offset + size + length, (head :: tail).drop length⟩ := by
  unfold lengthFieldUnit? at h
  split at h
  · cases h
  · cases hpos : below wordLimit (c.offset + size) with
    | error fault =>
      rw [hpos] at h
      cases h
    | ok pos =>
      obtain ⟨-, rfl⟩ := below_eq_ok_iff.mp hpos
      rw [hpos] at h
      simp only [bind, Except.bind] at h
      split at h
      · cases h
      · rename_i head tail hbody
        split at h
        · cases h
        · generalize Bytes.toNumber (c.rest.take size) = length at h
          split at h
          · cases h
          · rename_i hlength
            rw [List.length_take] at hlength
            obtain ⟨hu, hc'⟩ := Prod.mk.inj (Option.some.inj (Except.ok.inj h))
            exact ⟨head, tail, length, hbody, by omega, by omega, hu.symm, hc'.symm⟩

/-- It has data, with the header byte in front, and the scan goes on in the same buffer. -/
theorem lengthFieldUnit?_placed (h : lengthFieldUnit? size c = .ok (some (u, c'))) (hc : c.In bs) :
    u.data ≠ [] ∧ u.PlacedIn bs ∧ c'.In bs := by
  obtain ⟨head, tail, length, hbody, hpos, hle, rfl, rfl⟩ := lengthFieldUnit?_found h
  rw [hc, List.drop_drop] at hbody
  have hlength : ((head :: tail).take length).length = length := by
    rw [List.length_take, Nat.min_eq_left hle]
  have hne : (head :: tail).take length ≠ [] := List.ne_nil_of_length_pos (by omega)
  refine ⟨hne, ⟨?_, ?_⟩, ?_⟩
  · unfold NalUnit.stop Bytes.slice
    dsimp only
    rw [hlength, hbody, Nat.add_sub_cancel_left]
  · dsimp only
    rw [← List.head?_drop, hbody]
    rfl
  · unfold Cursor.In
    dsimp only
    rw [← List.drop_drop, hbody]

theorem Cursor.In.atEnd (h : c.In bs) : In bs ⟨c.offset + c.rest.length, []⟩ := by
  have hlen := congrArg List.length h
  rw [List.length_drop] at hlen
  have hend : bs.length ≤ c.offset + c.rest.length := by omega
  exact (List.drop_eq_nil_of_le hend).symm

end LengthFields

/-! ## Scans -/

/-- The data of the unit begin with its header byte. It has none if that byte is in the next start code. -/
structure NalUnit.Headed (framing : Framing) (bs : Bytes) (u : NalUnit) : Prop extends
    u.PlacedIn bs where
  empty : u.data = [] ↔ framing = .startCodes ∧ u.pos ∈ codeOffsets bs

namespace UnitScanner

variable {bs : Bytes} {size : Nat} {s : UnitScanner}

/-- A scanner in a buffer with length fields stays in it, and finds units of it. -/
theorem next_lengthField_headed (hs : s.framing = .lengthField size) (hc : s.cursor.In bs) :
    Yields s.next fun x => x.2.framing = .lengthField size ∧ x.2.cursor.In bs ∧
      ∀ u, x.1 = some u → u.Headed (.lengthField size) bs := by
  obtain ⟨framing, c⟩ := s
  cases hs
  cases hfound : lengthFieldUnit? size c with
  | error fault =>
    have hnext : next ⟨.lengthField size, c⟩ = .error fault := by
      unfold next
      dsimp only
      rw [hfound]
      rfl
    rw [hnext]
    exact .error fault
  | ok found =>
    rw [next_lengthField hfound]
    cases found with
    | none => exact .ok ⟨rfl, hc.atEnd, nofun⟩
    | some x =>
      obtain ⟨hne, hplaced, hc'⟩ := lengthFieldUnit?_placed hfound hc
      refine .ok ⟨rfl, hc', fun u hu => ?_⟩
      cases hu
      exact ⟨hplaced, iff_of_false hne nofun⟩

/-- All answers of a scanner are units of its buffer. -/
theorem answers_lengthField_headed (hs : s.framing = .lengthField size) (hc : s.cursor.In bs)
    (k : Nat) : Yields (s.answers k) fun found =>
      ∀ u, some u ∈ found → u.Headed (.lengthField size) bs := by
  induction k generalizing s with
  | zero => exact .ok nofun
  | succ k ih =>
    refine (next_lengthField_headed hs hc).bind ?_
    rintro ⟨first, s'⟩ ⟨hs', hc', hfirst⟩
    refine (ih hs' hc').bind fun found hfound => .pure fun u hu => ?_
    rcases List.mem_cons.mp hu with hu | hu
    · exact hfirst u hu.symm
    · exact hfound u hu

theorem answers_startCodes_headed (bs : Bytes) (k : Nat) :
    Yields (answers k (.over .startCodes bs)) fun found =>
      ∀ u, some u ∈ found → u.Headed .startCodes bs := by
  rw [(finds_startCodeUnits bs).answers k]
  refine .ok fun u hu => ?_
  have hmem : u ∈ startCodeUnits bs := by simpa using List.mem_of_mem_take hu
  refine ⟨placedIn_of_mem_startCodeUnits hmem, ?_⟩
  rw [data_eq_nil_iff hmem]
  exact ⟨fun h => ⟨rfl, h⟩, And.right⟩

end UnitScanner

/-- With lengths of up to four bytes every buffer in memory is scanned to its end. -/
theorem exists_finds {n : Nat} (hn : n ≤ 4) {bs : Bytes} (hbs : Addressable bs) :
    ∃ us, Finds (.ofLengthSize n) bs us := by
  cases n with
  | zero => exact ⟨_, finds_startCodeUnits bs⟩
  | succ n =>
    obtain ⟨ps, rest, hps, rfl, hrest⟩ :=
      exists_noRecord ⟨n + 1, Nat.le_add_left 1 n, hn⟩ bs
    exact ⟨_, (LeadingRecords.of_noRecord hps hrest).finds hbs⟩

/-- Every unit that a scanner answers with is where it says, with its header byte first. The only ones
without that byte are between start codes, where the next start code takes it; they have no data at all. -/
theorem answers_headed (n : Nat) (bs : Bytes) :
    (∀ k, Yields (UnitScanner.answers k (.over (.ofLengthSize n) bs)) fun found =>
      ∀ u, some u ∈ found → bs.slice u.pos u.stop = u.data ∧
        bs[u.pos]?.map NalHeader.parse = some u.header ∧
        (u.data = [] ↔ n = 0 ∧ u.pos ∈ codeOffsets bs) ∧
        u.data.head?.map NalHeader.parse = if u.data = [] then none else some u.header) ∧
    (n ≤ 4 → Addressable bs → ∃ us, Finds (.ofLengthSize n) bs us) := by
  have hframing : Framing.ofLengthSize n = .startCodes ↔ n = 0 := by
    cases n with
    | zero => exact iff_of_true rfl rfl
    | succ n => exact iff_of_false nofun (Nat.succ_ne_zero n)
  have hheaded : ∀ k, Yields (UnitScanner.answers k (.over (.ofLengthSize n) bs)) fun found =>
      ∀ u, some u ∈ found → u.Headed (.ofLengthSize n) bs := by
    intro k
    cases n with
    | zero => exact UnitScanner.answers_startCodes_headed bs k
    | succ n =>
      have hstart : Cursor.In bs ⟨0, bs⟩ := List.drop_zero.symm
      exact UnitScanner.answers_lengthField_headed rfl hstart k
  refine ⟨fun k => (hheaded k).mono fun found hfound u hu => ?_, fun hn hbs => exists_finds hn hbs⟩
  have h := hfound u hu
  have hempty := h.empty
  rw [hframing] at hempty
  exact ⟨h.data, h.header, hempty, h.first⟩

/-- The header byte of the first unit is the first byte of the second start code. -/
theorem adjacentCodes_empty : ∃ us, Finds .startCodes [0, 0, 1, 0, 0, 1, 0x65] us ∧
    ∃ u ∈ us, u.header = NalHeader.parse 0 ∧ u.data = [] :=
  ⟨_, finds_startCodeUnits _, by decide⟩

end Multiview
