/-!
A computation that breaks one of its own bounds stops without an answer. `Fault` lists the ways in
which this can happen and `Outcome` is a computation that may end in one. Errors a caller is meant
to handle are ordinary values and never a `Fault`.
-/

namespace Multiview

/-- Reasons for which a computation stops without an answer. -/
inductive Fault where
  /-- A number left the range of the word that holds it. -/
  | overflow
  /-- A slice reached outside its sequence. -/
  | outOfRange
  | divisionByZero
  /-- Two surfaces that do not form a stereo pair were combined. -/
  | mismatch
  /-- A loop that waits for the device never ends. -/
  | endless
  deriving DecidableEq, Repr

abbrev Outcome := Except Fault

/-- Sizes, offsets and counters are words of 64 bits. -/
def wordLimit : Nat := UInt64.size

/-- The value itself, as long as it is below `limit`. -/
def below (limit value : Nat) : Outcome Nat :=
  if value < limit then .ok value else .error .overflow

theorem below_eq_ok_iff {limit value r : Nat} :
    below limit value = .ok r ↔ value < limit ∧ r = value := by
  unfold below
  split <;> grind

/-- The first `n` elements, of which there must be as many. Only these elements are visited. -/
def takeExactly {α : Type} (n : Nat) (xs : List α) : Outcome (List α) :=
  let front := xs.take n
  if front.length = n then .ok front else .error .outOfRange

/-- What follows the first `n` elements, of which there must be as many. -/
def dropExactly {α : Type} (n : Nat) (xs : List α) : Outcome (List α) :=
  if n ≤ xs.length then .ok (xs.drop n) else .error .outOfRange

theorem takeExactly_of_le {α : Type} {n : Nat} {xs : List α} (h : n ≤ xs.length) :
    takeExactly n xs = .ok (xs.take n) := by
  simp [takeExactly, Nat.min_eq_left h]

theorem dropExactly_of_le {α : Type} {n : Nat} {xs : List α} (h : n ≤ xs.length) :
    dropExactly n xs = .ok (xs.drop n) := if_pos h

end Multiview
