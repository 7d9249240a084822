import Mathlib.Algebra.Order.Floor.Div
import Multiview.Proofs.Outcome

/-!
Rounding up within the words of an unsigned type. The smallest multiple is found by way of a sum that is
larger than it, so that it is found exactly for the values that leave room for a whole alignment. In the
last step below the end of the type there is no such room, not even for a value that is a multiple itself.
-/

namespace Multiview

open Outcome

/-! ## Natural numbers -/

section RoundUp

variable {alignment : Nat}

theorem roundUp_eq_ceilDiv (value alignment : Nat) :
    roundUp value alignment = alignment * (value ⌈/⌉ alignment) := by
  rw [roundUp, Nat.ceilDiv_eq_add_pred_div, Nat.mul_comm]

theorem le_roundUp (h : 0 < alignment) (value : Nat) : value ≤ roundUp value alignment := by
  rw [roundUp_eq_ceilDiv]
  exact (ceilDiv_le_iff_le_mul h).mp (Nat.le_refl _)

theorem dvd_roundUp (value alignment : Nat) : alignment ∣ roundUp value alignment :=
  Nat.dvd_mul_left ..

theorem roundUp_le (h : 0 < alignment) {value m : Nat} (hm : alignment ∣ m) (hle : value ≤ m) :
    roundUp value alignment ≤ m := by
  obtain ⟨k, rfl⟩ := hm
  rw [roundUp_eq_ceilDiv]
  exact Nat.mul_le_mul_left alignment ((ceilDiv_le_iff_le_mul h).mpr hle)

theorem isLeast_roundUp (h : 0 < alignment) (value : Nat) :
    IsLeast {m | alignment ∣ m ∧ value ≤ m} (roundUp value alignment) :=
  ⟨⟨dvd_roundUp value alignment, le_roundUp h value⟩, fun _ hm => roundUp_le h hm.1 hm.2⟩

theorem roundUp_lt (h : 0 < alignment) (value : Nat) : roundUp value alignment < value + alignment := by
  have hle : roundUp value alignment ≤ value + alignment - 1 := Nat.div_mul_le_self ..
  omega

end RoundUp

/-! ## Words -/

section Words

variable {bits value alignment : Nat}

theorem hold_unsigned (bits n : Nat) :
    (IntRange.unsigned bits).hold n = if n < 2 ^ bits then .ok (n : Int) else .error .overflow := by
  have hlo : (IntRange.unsigned bits).lo = 0 := rfl
  have hhi : (IntRange.unsigned bits).hi = ((2 ^ bits : Nat) : Int) - 1 := by
    rw [IntRange.unsigned, Nat.one_shiftLeft]
    rfl
  unfold IntRange.hold
  rw [hlo, hhi]
  by_cases hn : n < 2 ^ bits
  · rw [if_pos hn, if_pos (by omega)]
  · rw [if_neg hn, if_neg (by omega)]

theorem hold_of_lt {n : Nat} (h : n < 2 ^ bits) : (IntRange.unsigned bits).hold n = .ok (n : Int) := by
  rw [hold_unsigned, if_pos h]

/-- A value that leaves room for the alignment is rounded up. -/
theorem alignUp_of_room (h : 0 < alignment) (hroom : value + alignment < 2 ^ bits) :
    alignUp (.unsigned bits) value alignment = .ok (roundUp value alignment : Int) := by
  have hlast : ((value + alignment : Nat) : Int) - 1 = (value + alignment - 1 : Nat) := by omega
  have hquotient : ((value + alignment - 1 : Nat) : Int).tdiv alignment =
      ((value + alignment - 1) / alignment : Nat) := rfl
  have hne : ¬ (alignment : Int) = 0 := by omega
  -- Neither the quotient nor the product is larger than the sum.
  have hle : (value + alignment - 1) / alignment ≤ value + alignment - 1 := Nat.div_le_self ..
  have hlt := roundUp_lt h value
  calc alignUp (.unsigned bits) value alignment
    _ = ((IntRange.unsigned bits).hold (value + alignment : Nat)).bind fun sum =>
          ((IntRange.unsigned bits).hold (sum - 1)).bind fun last =>
            if (alignment : Int) = 0 then .error .divisionByZero
            else ((IntRange.unsigned bits).hold (last.tdiv alignment)).bind fun quotient =>
              (IntRange.unsigned bits).hold (quotient * alignment) := rfl
    _ = ((IntRange.unsigned bits).hold ((value + alignment - 1) / alignment : Nat)).bind fun quotient =>
          (IntRange.unsigned bits).hold (quotient * alignment) := by
        rw [hold_of_lt hroom, Except.bind, hlast, hold_of_lt (by omega), Except.bind, if_neg hne,
          hquotient]
    _ = (IntRange.unsigned bits).hold (roundUp value alignment : Nat) := by
        rw [hold_of_lt (by omega), Except.bind]
        rfl
    _ = .ok (roundUp value alignment : Int) := hold_of_lt (by omega)

/-- Without such room there is an overflow, whatever the multiple would be. -/
theorem alignUp_without_room (hroom : 2 ^ bits ≤ value + alignment) :
    alignUp (.unsigned bits) value alignment = .error .overflow := by
  have hsum : (IntRange.unsigned bits).hold ((value : Int) + alignment) = .error .overflow := by
    rw [← Int.natCast_add, hold_unsigned, if_neg (Nat.not_lt.mpr hroom)]
  unfold alignUp
  rw [hsum]
  rfl

end Words

/-! ## Resolutions -/

namespace Resolution

/-- The smallest resolution that covers `r` with both dimensions multiples of `alignment`. -/
structure RoundsUpTo (r : Resolution) (alignment : Nat) (out : Resolution) : Prop where
  width : IsLeast {m | alignment ∣ m ∧ r.width.toNat ≤ m} out.width.toNat
  height : IsLeast {m | alignment ∣ m ∧ r.height.toNat ≤ m} out.height.toNat

/-- Both dimensions leave room for the alignment. -/
structure HasRoom (r : Resolution) (alignment : Nat) : Prop where
  width : r.width.toNat + alignment < 2 ^ 32
  height : r.height.toNat + alignment < 2 ^ 32

variable {r : Resolution} {alignment : UInt32}

theorem round_of_room (h : 0 < alignment.toNat) (hr : r.HasRoom alignment.toNat) :
    Returns (r.round alignment) (r.RoundsUpTo alignment.toNat) := by
  have hword : ∀ n, n + alignment.toNat < 2 ^ 32 →
      IsLeast {m | alignment.toNat ∣ m ∧ n ≤ m}
        (UInt32.ofNat (roundUp n alignment.toNat : Int).toNat).toNat := by
    intro n hn
    have hlt := roundUp_lt h n
    rw [Int.toNat_natCast, UInt32.toNat_ofNat', Nat.mod_eq_of_lt (by omega)]
    exact isLeast_roundUp h n
  unfold round
  rw [alignUp_of_room h hr.width, alignUp_of_room h hr.height]
  exact .ok ⟨hword _ hr.width, hword _ hr.height⟩

theorem round_without_room (h : 0 < alignment.toNat) (hr : ¬ r.HasRoom alignment.toNat) :
    r.round alignment = .error .overflow := by
  unfold round
  by_cases hwidth : r.width.toNat + alignment.toNat < 2 ^ 32
  · have hheight : ¬ r.height.toNat + alignment.toNat < 2 ^ 32 := fun hheight =>
      hr ⟨hwidth, hheight⟩
    rw [alignUp_of_room h hwidth, alignUp_without_room (Nat.not_lt.mp hheight)]
    rfl
  · rw [alignUp_without_room (Nat.not_lt.mp hwidth)]
    rfl

end Resolution

/-- Values are rounded up to the smallest multiple as long as their sum with the alignment is a word, and so
are resolutions. Any other value overflows, also where the multiple itself is a word. -/
theorem alignUp_smallest {alignment : Nat} (h : 1 ≤ alignment) :
    (∀ bits value : Nat, ∃ m, IsLeast {m | alignment ∣ m ∧ value ≤ m} m ∧
      alignUp (.unsigned bits) value alignment =
        if value + alignment < 2 ^ bits then .ok (m : Int) else .error .overflow) ∧
    ∀ (r : Resolution) (word : UInt32), word.toNat = alignment →
      r.HasRoom alignment ∧ Returns (r.round word) (r.RoundsUpTo alignment) ∨
        ¬ r.HasRoom alignment ∧ r.round word = .error .overflow := by
  constructor
  · intro bits value
    refine ⟨roundUp value alignment, isLeast_roundUp h value, ?_⟩
    split
    · rename_i hroom
      exact alignUp_of_room h hroom
    · rename_i hroom
      exact alignUp_without_room (Nat.not_lt.mp hroom)
  · rintro r word rfl
    by_cases hroom : r.HasRoom word.toNat
    · exact .inl ⟨hroom, Resolution.round_of_room h hroom⟩
    · exact .inr ⟨hroom, Resolution.round_without_room h hroom⟩

/-- The last value of 16 bits that is rounded up to whole macroblocks, the first one that is not, and a
resolution with one dimension that is aligned already. -/
theorem macroblocks_smallest :
    alignUp (.unsigned 16) 65519 16 = .ok 65520 ∧ alignUp (.unsigned 16) 65520 16 = .error .overflow ∧
      Returns (Resolution.round ⟨1920, 1080⟩ 16) (Resolution.RoundsUpTo ⟨1920, 1080⟩ 16) := by
  obtain ⟨hwords, hresolutions⟩ := @alignUp_smallest 16 (by decide)
  obtain ⟨m, hm, hlast⟩ := hwords 16 65519
  obtain ⟨_, -, hfirst⟩ := hwords 16 65520
  have hvalue : m = 65520 := hm.unique (isLeast_roundUp (by decide) 65519)
  refine ⟨?_, hfirst, ?_⟩
  · rw [hvalue] at hlast
    exact hlast
  · rcases hresolutions ⟨1920, 1080⟩ 16 rfl with ⟨-, hround⟩ | ⟨hno, -⟩
    · exact hround
    · exact absurd ⟨by decide, by decide⟩ hno

/-- A multiple of 16 that is a word of 32 bits overflows nevertheless. -/
theorem lastMultiple_overflows :
    IsLeast {m | 16 ∣ m ∧ 4294967280 ≤ m} 4294967280 ∧ 4294967280 < 2 ^ 32 ∧
      alignUp (.unsigned 32) 4294967280 16 = .error .overflow ∧
      Resolution.round ⟨4294967280, 0⟩ 16 = .error .overflow :=
  ⟨isLeast_roundUp (by decide) 4294967280, by decide, by decide, by decide⟩

end Multiview
