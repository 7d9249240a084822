/-!
Byte strings: numbers written in them most significant byte first, and loops that take one item
after another off their front.
-/

namespace Multiview

abbrev Bytes := List UInt8

namespace Bytes

/-- The number written in `bytes`, most significant byte first. -/
def toNumber (bytes : Bytes) : Nat :=
  bytes.foldl (fun n b => 256 * n + b.toNat) 0

/-- The last `width` bytes of `n`, most significant byte first. -/
def ofNumber : Nat → Nat → Bytes
  | 0, _ => []
  | width + 1, n => ofNumber width (n / 256) ++ [UInt8.ofNat n]

/-- The bytes from offset `start` up to offset `stop`. -/
def slice (start stop : Nat) (bytes : Bytes) : Bytes :=
  (bytes.drop start).take (stop - start)

theorem ofNumber_length (width n : Nat) : (ofNumber width n).length = width := by
  induction width generalizing n with
  | zero => rfl
  | succ width ih => simp [ofNumber, ih]

end Bytes

/-- The items that `step` yields one after another, at most `fuel` of them, added to those of
`taken`, which are held in reverse. -/
def collect {σ α : Type} (step : σ → Option (α × σ)) : Nat → σ → List α → List α
  | 0, _, taken => taken.reverse
  | fuel + 1, s, taken =>
    match step s with
    | none => taken.reverse
    | some (a, s') => collect step fuel s' (a :: taken)

/-- Like `collect`, for steps that can fail. -/
def tryCollect {ε σ α : Type} (step : σ → Except ε (Option (α × σ))) :
    Nat → σ → List α → Except ε (List α)
  | 0, _, taken => .ok taken.reverse
  | fuel + 1, s, taken =>
    match step s with
    | .error e => .error e
    | .ok none => .ok taken.reverse
    | .ok (some (a, s')) => tryCollect step fuel s' (a :: taken)

theorem collect_eq_append {σ α : Type} (step : σ → Option (α × σ)) (fuel : Nat) (s : σ)
    (taken : List α) : collect step fuel s taken = taken.reverse ++ collect step fuel s [] := by
  induction fuel generalizing s taken with
  | zero => simp [collect]
  | succ fuel ih =>
    simp only [collect]
    split
    · simp
    · rw [ih _ (_ :: taken), ih _ [_]]
      simp

end Multiview
