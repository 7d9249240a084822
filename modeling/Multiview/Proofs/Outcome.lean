import Multiview.Session.Decode

/-!
Reasoning about computations that may end in a fault. A computation is sound for a property if its
result has the property and if it never combines surfaces of different pictures. Other faults are left
open. Sequences of sound computations are sound, and so is all arithmetic.
-/

namespace Multiview

namespace Outcome

variable {α β : Type}

/-- Results satisfy `q`, and no fault is a mismatch of surfaces. -/
structure Sound (x : Outcome α) (q : α → Prop) : Prop where
  result : ∀ {a : α}, x = .ok a → q a
  ne_mismatch : x ≠ .error .mismatch

theorem Sound.ok {q : α → Prop} {a : α} (h : q a) : Sound (.ok a) q where
  result := fun he => by
    cases he
    exact h
  ne_mismatch := nofun

theorem Sound.pure {q : α → Prop} {a : α} (h : q a) : Sound (Pure.pure a : Outcome α) q := .ok h

theorem Sound.error {q : α → Prop} {fault : Fault} (h : fault ≠ .mismatch) :
    Sound (.error fault) q where
  result := nofun
  ne_mismatch := fun he => h (by
    cases he
    rfl)

theorem Sound.mono {x : Outcome α} {p q : α → Prop} (h : Sound x p) (hpq : ∀ a, p a → q a) :
    Sound x q where
  result := fun hx => hpq _ (h.result hx)
  ne_mismatch := h.ne_mismatch

theorem Sound.bind {x : Outcome α} {f : α → Outcome β} {p : α → Prop} {q : β → Prop}
    (h : Sound x p) (hf : ∀ a, p a → Sound (f a) q) : Sound (x >>= f) q := by
  cases hx : x with
  | ok a => exact hf a (h.result hx)
  | error fault =>
    refine .error fun he => h.ne_mismatch ?_
    rw [hx, he]

/-- What is known of the results is known of the result. -/
theorem Sound.itself {x : Outcome α} {q : α → Prop} (h : Sound x q) :
    Sound x fun a => q a ∧ x = .ok a where
  result := fun hx => ⟨h.result hx, hx⟩
  ne_mismatch := h.ne_mismatch

theorem Sound.map {x : Outcome α} {f : α → β} {q : β → Prop} (h : Sound x fun a => q (f a)) :
    Sound (f <$> x) q := by
  cases hx : x with
  | ok a => exact .ok (h.result hx)
  | error fault =>
    refine .error fun he => h.ne_mismatch ?_
    rw [hx, he]

theorem Sound.foldlM {f : β → α → Outcome β} {q : β → Prop} {as : List α}
    (hf : ∀ b a, q b → Sound (f b a) q) {b : β} (hb : q b) : Sound (as.foldlM f b) q := by
  induction as generalizing b with
  | nil => exact .ok hb
  | cons a as ih => exact (hf b a hb).bind fun _ => ih

/-- Results satisfy `q`, whatever the faults. -/
def Yields (x : Outcome α) (q : α → Prop) : Prop := ∀ a, x = .ok a → q a

theorem Sound.yields {x : Outcome α} {q : α → Prop} (h : Sound x q) : Yields x q :=
  fun _ => h.result

theorem Yields.ok {q : α → Prop} {a : α} (h : q a) : Yields (.ok a) q := by
  intro b hb
  cases hb
  exact h

theorem Yields.pure {q : α → Prop} {a : α} (h : q a) : Yields (Pure.pure a : Outcome α) q := .ok h

theorem Yields.error {q : α → Prop} (fault : Fault) : Yields (.error fault) q := nofun

theorem Yields.mono {x : Outcome α} {p q : α → Prop} (h : Yields x p) (hpq : ∀ a, p a → q a) :
    Yields x q :=
  fun a ha => hpq a (h a ha)

theorem Yields.bind {x : Outcome α} {f : α → Outcome β} {p : α → Prop} {q : β → Prop}
    (h : Yields x p) (hf : ∀ a, p a → Yields (f a) q) : Yields (x >>= f) q := by
  cases hx : x with
  | ok a => exact hf a (h a hx)
  | error fault => exact .error fault

theorem Yields.map {x : Outcome α} {f : α → β} {q : β → Prop} (h : Yields x fun a => q (f a)) :
    Yields (f <$> x) q := by
  cases hx : x with
  | ok a => exact .ok (h a hx)
  | error fault => exact .error fault

theorem Yields.foldlM {f : β → α → Outcome β} {q : β → Prop} {as : List α}
    (hf : ∀ b a, q b → Yields (f b a) q) {b : β} (hb : q b) : Yields (as.foldlM f b) q := by
  induction as generalizing b with
  | nil => exact .ok hb
  | cons a as ih => exact (hf b a hb).bind fun _ => ih

/-- There is a result, and it satisfies `q`. -/
def Returns (x : Outcome α) (q : α → Prop) : Prop := ∃ a, x = .ok a ∧ q a

theorem Returns.ok {q : α → Prop} {a : α} (h : q a) : Returns (.ok a) q := ⟨a, rfl, h⟩

theorem Returns.pure {q : α → Prop} {a : α} (h : q a) : Returns (Pure.pure a : Outcome α) q := .ok h

theorem Returns.mono {x : Outcome α} {p q : α → Prop} (h : Returns x p) (hpq : ∀ a, p a → q a) :
    Returns x q := by
  obtain ⟨a, ha, hp⟩ := h
  exact ⟨a, ha, hpq a hp⟩

theorem Returns.bind {x : Outcome α} {f : α → Outcome β} {p : α → Prop} {q : β → Prop}
    (h : Returns x p) (hf : ∀ a, p a → Returns (f a) q) : Returns (x >>= f) q := by
  obtain ⟨a, rfl, hp⟩ := h
  exact hf a hp

theorem Returns.map {x : Outcome α} {f : α → β} {q : β → Prop} (h : Returns x fun a => q (f a)) :
    Returns (f <$> x) q := by
  obtain ⟨a, rfl, hq⟩ := h
  exact .ok hq

theorem Returns.sound {x : Outcome α} {q : α → Prop} (h : Returns x q) : Sound x q := by
  obtain ⟨a, rfl, hq⟩ := h
  exact .ok hq

/-- The result has whatever all results have. -/
theorem Returns.and {x : Outcome α} {p q : α → Prop} (h : Returns x p) (h' : Yields x q) :
    Returns x fun a => p a ∧ q a := by
  obtain ⟨a, ha, hp⟩ := h
  exact ⟨a, ha, hp, h' a ha⟩

/-- Two computations end alike: with related results, or in the same fault. -/
inductive Agree (r : α → β → Prop) : Outcome α → Outcome β → Prop
  | ok {a : α} {b : β} (h : r a b) : Agree r (.ok a) (.ok b)
  | error (fault : Fault) : Agree r (.error fault) (.error fault)

theorem Agree.pure {r : α → β → Prop} {a : α} {b : β} (h : r a b) :
    Agree r (Pure.pure a) (Pure.pure b) := .ok h

theorem Agree.mono {r r' : α → β → Prop} {x : Outcome α} {y : Outcome β} (h : Agree r x y)
    (hr : ∀ a b, r a b → r' a b) : Agree r' x y := by
  cases h with
  | ok h => exact .ok (hr _ _ h)
  | error fault => exact .error fault

theorem Agree.bind {γ δ : Type} {r : α → β → Prop} {r' : γ → δ → Prop} {x : Outcome α}
    {y : Outcome β} {f : α → Outcome γ} {g : β → Outcome δ} (h : Agree r x y)
    (hf : ∀ a b, r a b → Agree r' (f a) (g b)) : Agree r' (x >>= f) (y >>= g) := by
  cases h with
  | ok h => exact hf _ _ h
  | error fault => exact .error fault

/-- Results that agree have whatever all results of either side have. -/
theorem Agree.and {r : α → β → Prop} {x : Outcome α} {y : Outcome β} {p : α → Prop} {q : β → Prop}
    (h : Agree r x y) (hx : Yields x p) (hy : Yields y q) :
    Agree (fun a b => r a b ∧ p a ∧ q b) x y := by
  cases h with
  | ok h => exact .ok ⟨h, hx _ rfl, hy _ rfl⟩
  | error fault => exact .error fault

theorem Agree.returns {r : α → β → Prop} {a : α} {y : Outcome β} (h : Agree r (.ok a) y) :
    Returns y (r a) := by
  cases h with
  | ok h => exact .ok h

/-- A computation agrees with itself on whatever its results have. -/
theorem Yields.agree {x : Outcome α} {q : α → Prop} (h : Yields x q) :
    Agree (fun a b => b = a ∧ q a) x x := by
  cases x with
  | ok a => exact .ok ⟨rfl, h a rfl⟩
  | error fault => exact .error fault

end Outcome

open Outcome

/-- Evaluating a run shows that it came to an end. -/
theorem eq_ok_of_toOption {ε α : Type} {x : Except ε α} {a : α} (h : x.toOption = some a) :
    x = .ok a := by
  cases x with
  | error e => cases h
  | ok b => exact congrArg Except.ok (Option.some.inj h)

/-! ## Arithmetic -/

theorem below_sound (limit value : Nat) : Sound (below limit value) fun r => r = value := by
  unfold below
  split
  · exact .ok rfl
  · exact .error nofun

theorem below_returns {limit value : Nat} (h : value < limit) :
    Returns (below limit value) fun r => r = value := by
  unfold below
  rw [if_pos h]
  exact .ok rfl

theorem takeExactly_returns {α : Type} {n : Nat} {xs : List α} (h : n ≤ xs.length) :
    Returns (takeExactly n xs) fun front => front = xs.take n := ⟨_, takeExactly_of_le h, rfl⟩

theorem dropExactly_returns {α : Type} {n : Nat} {xs : List α} (h : n ≤ xs.length) :
    Returns (dropExactly n xs) fun rest => rest = xs.drop n := ⟨_, dropExactly_of_le h, rfl⟩

theorem takeExactly_sound {α : Type} (n : Nat) (xs : List α) :
    Sound (takeExactly n xs) fun _ => True := by
  unfold takeExactly
  dsimp only
  split
  · exact .ok trivial
  · exact .error nofun

theorem dropExactly_sound {α : Type} (n : Nat) (xs : List α) :
    Sound (dropExactly n xs) fun _ => True := by
  unfold dropExactly
  split
  · exact .ok trivial
  · exact .error nofun

theorem hold_sound (range : IntRange) (value : Int) :
    Sound (range.hold value) fun _ => True := by
  unfold IntRange.hold
  split
  · exact .ok trivial
  · exact .error nofun

theorem alignUp_sound (range : IntRange) (value alignment : Int) :
    Sound (alignUp range value alignment) fun _ => True := by
  unfold alignUp
  refine (hold_sound range _).bind fun sum _ => (hold_sound range _).bind fun last _ => ?_
  by_cases h : alignment = 0
  · rw [if_pos h]
    exact .error nofun
  · rw [if_neg h]
    exact (hold_sound range _).bind fun quotient _ => hold_sound range _

theorem round_sound (r : Resolution) (alignment : UInt32) :
    Sound (r.round alignment) fun _ => True := by
  unfold Resolution.round
  refine (alignUp_sound _ _ _).bind fun width _ => ?_
  exact (alignUp_sound _ _ _).bind fun height _ => .pure trivial

/-! ## Input -/

theorem blankEndOfSequence_sound (buffer : Bytes) :
    Sound (blankEndOfSequence buffer) fun _ => True := by
  have hstep : ∀ (b : Bytes) (start : Nat), True → Sound (blankUnit start b) fun _ => True :=
    fun b start _ => (takeExactly_sound start b).bind fun _ _ => Sound.pure trivial
  exact Sound.foldlM hstep trivial

/-- Input only ever goes to the buffer. -/
theorem appendInput_sound {σ : Type} (data : Bytes) (s : Session σ) :
    Sound (s.appendInput data) fun r => ∀ t, r = .ok t → ∃ b, t = { s with buffer := b } := by
  unfold Session.appendInput
  split
  · refine (blankEndOfSequence_sound _).bind fun b _ => Sound.pure ?_
    intro t ht
    cases ht
    exact ⟨b, rfl⟩
  · split
    · refine Sound.pure fun t ht => ?_
      cases ht
    · refine (blankEndOfSequence_sound _).bind fun b _ => Sound.pure ?_
      intro t ht
      cases ht
      exact ⟨b, rfl⟩

theorem leftover_sound (buffer : Bytes) (p : Submission) :
    Sound (Session.leftover buffer p) fun _ => True := by
  unfold Session.leftover
  split
  · exact .ok trivial
  · split
    · exact .ok trivial
    · exact dropExactly_sound _ _

end Multiview
