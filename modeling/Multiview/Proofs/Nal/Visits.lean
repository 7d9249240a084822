import Multiview.Proofs.Nal.Scan

/-!
Visiting units one at a time. Whatever the framing, a scanner answers with each unit in turn and then
with nothing for good, and the list of all units is made of the units it answers with.
-/

namespace Multiview

namespace UnitScanner

/-- The answers to the next `n` calls. -/
def answers : Nat → UnitScanner → Outcome (List (Option NalUnit))
  | 0, _ => .ok []
  | n + 1, s => do
    let (found, s) ← s.next
    return found :: (← s.answers n)

/-- The units that a scanner has yet to visit. Behind the last one it is at the end of the buffer. -/
inductive Visits : UnitScanner → List NalUnit → Prop
  | done {s : UnitScanner} {framing : Framing} {offset : Nat}
      (h : s.next = .ok (none, ⟨framing, offset, []⟩)) : Visits s []
  | unit {s s' : UnitScanner} {u : NalUnit} {us : List NalUnit} (h : s.next = .ok (some u, s'))
      (hs : Visits s' us) : Visits s (u :: us)

section Next

variable {s s' : UnitScanner} {found : Option NalUnit}

theorem answers_succ {n : Nat} {rest : List (Option NalUnit)} (h : s.next = .ok (found, s'))
    (hrest : s'.answers n = .ok rest) : s.answers (n + 1) = .ok (found :: rest) := by
  simp [answers, h, hrest, bind, Except.bind, pure, Except.pure]

theorem step_eq (h : s.next = .ok (found, s')) : s.step = .ok (found.map (·, s')) := by
  rw [step, h]
  cases found <;> rfl

/-- A scanner at the end stays there. -/
theorem next_end (framing : Framing) (offset : Nat) :
    next ⟨framing, offset, []⟩ = .ok (none, ⟨framing, offset, []⟩) := by
  cases framing <;> rfl

theorem answers_end (framing : Framing) (offset n : Nat) :
    answers n ⟨framing, offset, []⟩ = .ok (List.replicate n none) := by
  induction n with
  | zero => rfl
  | succ n ih => exact answers_succ (next_end framing offset) ih

end Next

namespace Visits

variable {s : UnitScanner} {us : List NalUnit}

/-- Each unit in turn, then nothing for good. -/
theorem answers (h : Visits s us) (n : Nat) :
    s.answers n = .ok ((us.map some ++ List.replicate n none).take n) := by
  induction h generalizing n with
  | done h =>
    cases n with
    | zero => rfl
    | succ n =>
      rw [answers_succ h (answers_end _ _ n)]
      simp [List.replicate_succ]
  | @unit s s' u us h _ ih =>
    cases n with
    | zero => rfl
    | succ n =>
      have hmore : (us.map some ++ List.replicate (n + 1) none).take n =
          (us.map some ++ List.replicate n none).take n := by
        rw [List.replicate_succ', ← List.append_assoc, List.take_append_of_le_length (by simp)]
      rw [answers_succ h (ih n)]
      simp [hmore]

theorem tryCollect (h : Visits s us) {fuel : Nat} (hf : us.length < fuel) (taken : List NalUnit) :
    tryCollect step fuel s taken = .ok (taken.reverse ++ us) := by
  induction h generalizing fuel taken with
  | done h =>
    cases fuel with
    | zero => simp at hf
    | succ fuel => simp [Multiview.tryCollect, step_eq h]
  | unit h _ ih =>
    cases fuel with
    | zero => simp at hf
    | succ fuel => simp [Multiview.tryCollect, step_eq h, ih (Nat.lt_of_succ_lt_succ hf)]

end Visits

end UnitScanner

open UnitScanner

/-- A scan of the buffer finds these units: together, and one after another with nothing behind them. -/
structure Finds (framing : Framing) (data : Bytes) (us : List NalUnit) : Prop where
  all : scanUnits framing data = .ok us
  answers : ∀ n, answers n (.over framing data) =
    .ok ((us.map some ++ List.replicate n none).take n)

theorem UnitScanner.Visits.finds {framing : Framing} {data : Bytes} {us : List NalUnit}
    (h : Visits (.over framing data) us) (hlen : us.length ≤ data.length) :
    Finds framing data us where
  all := h.tryCollect (Nat.lt_succ_of_le hlen) []
  answers := h.answers

/-! ## Start codes -/

theorem next_startCodes (c : Cursor) :
    next ⟨.startCodes, c⟩ = .ok (match startCodeUnit? c with
      | none => (none, ⟨.startCodes, c.offset + c.rest.length, []⟩)
      | some (u, c') => (some u, ⟨.startCodes, c'⟩)) := by
  cases h : startCodeUnit? c <;> simp [next, h, bind, Except.bind, pure, Except.pure]

theorem Scans.visits {c : Cursor} {us : List NalUnit} (h : Scans c us) :
    Visits ⟨.startCodes, c⟩ us := by
  induction h with
  | done h => exact .done (by rw [next_startCodes, h])
  | unit h _ ih => exact .unit (by rw [next_startCodes, h]) ih

theorem Scans.length_le {c : Cursor} {us : List NalUnit} (h : Scans c us) :
    us.length ≤ c.rest.length := by
  induction h with
  | done h => simp
  | unit h _ ih =>
    have hshort := startCodeUnit?_shorter h
    simp only [List.length_cons]
    omega

/-- Visited one by one, the units between start codes are those found in one go. -/
theorem finds_startCodeUnits (bs : Bytes) : Finds .startCodes bs (startCodeUnits bs) := by
  have hscans := scans_startCodeUnits bs
  have hlen := hscans.length_le
  apply hscans.visits.finds
  simp only [seekStartCode_eq, List.length_drop] at hlen
  omega

end Multiview
