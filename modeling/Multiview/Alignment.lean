import Multiview.Fault

/-!
Rounding up to a multiple. `roundUp` is the rule on natural numbers and `alignUp` the same
computation carried out in the words of a bounded integer type, where every intermediate result has
to fit.
-/

namespace Multiview

/-- The values of a bounded integer type, from `lo` to `hi`. -/
structure IntRange where
  lo : Int
  hi : Int
  deriving DecidableEq, Repr

namespace IntRange

def unsigned (bits : Nat) : IntRange := ⟨0, Int.ofNat (1 <<< bits) - 1⟩

def signed (bits : Nat) : IntRange := ⟨-Int.ofNat (1 <<< (bits - 1)), Int.ofNat (1 <<< (bits - 1)) - 1⟩

/-- The value itself, if the type holds it. -/
def hold (range : IntRange) (value : Int) : Outcome Int :=
  if range.lo ≤ value ∧ value ≤ range.hi then .ok value else .error .overflow

end IntRange

/-- The smallest multiple of `alignment` that is at least `value`. -/
def roundUp (value alignment : Nat) : Nat :=
  (value + alignment - 1) / alignment * alignment

/-- Rounds `value` up to a multiple of `alignment` within the words of `range`. The quotient is
taken toward zero. -/
def alignUp (range : IntRange) (value alignment : Int) : Outcome Int := do
  let sum ← range.hold (value + alignment)
  let last ← range.hold (sum - 1)
  if alignment = 0 then
    throw .divisionByZero
  let quotient ← range.hold (last.tdiv alignment)
  range.hold (quotient * alignment)

end Multiview
