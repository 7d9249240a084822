import Multiview.Memory.Allocator
import Multiview.Proofs.Outcome

/-!
What a request to an allocator comes to. It is refused, or answered with a response that is held for the
requester, and then nothing changes. Otherwise it goes to the store, and the allocator takes over whatever
the store answers: the error, or the frames in a response of its own.
-/

namespace Multiview

open Outcome

namespace Allocator

variable {β : Type} {r : Request} {a : Allocator β} {p : Platform}
  {x : Except AllocError (List MemId) × β × Platform} {response : Response}

/-- The answer of an allocator whose store has answered `x`. New frames are held from then on. -/
def takeOver (r : Request) (a : Allocator β) (x : Except AllocError (List MemId) × β × Platform) :
    Except AllocError Response × Allocator β × Platform :=
  match x.1 with
  | .error e => (.error e, { a with store := x.2.1 }, x.2.2)
  | .ok mids =>
    if r.isExternal then
      (.ok ⟨r.allocId, mids⟩,
        { a with store := x.2.1, external := a.external ++ [⟨r.allocId, mids⟩] }, x.2.2)
    else
      (.ok ⟨0, mids⟩, { a with store := x.2.1, oneShot := a.oneShot ++ [⟨0, mids⟩] }, x.2.2)

@[simp] theorem takeOver_store : (takeOver r a x).2.1.store = x.2.1 := by
  unfold takeOver
  split
  · rfl
  · split <;> rfl

@[simp] theorem takeOver_platform : (takeOver r a x).2.2 = x.2.2 := by
  unfold takeOver
  split
  · rfl
  · split <;> rfl

/-- The frames of the response are those of the store. -/
theorem takeOver_eq_ok (h : (takeOver r a x).1 = .ok response) : x.1 = .ok response.mids := by
  unfold takeOver at h
  split at h
  · cases h
  · rename_i mids hmids
    rw [hmids]
    split at h
    · cases h
      rfl
    · cases h
      rfl

variable [FrameStore β]

theorem allocateNew_eq (r : Request) (a : Allocator β) (p : Platform) :
    a.allocateNew r p = takeOver r a <$> FrameStore.allocate r a.store p := by
  unfold allocateNew
  cases FrameStore.allocate r a.store p with
  | error fault => rfl
  | ok x =>
    obtain ⟨answer, store, p'⟩ := x
    cases answer with
    | error e => rfl
    | ok mids =>
      simp only [takeOver, bind, Except.bind, Functor.map, Except.map]
      split <;> rfl

/-- What is acceptable and not held yet goes to the store. -/
theorem allocate_anew (hs : r.suggested ≠ 0) (ha : FrameStore.accepts β r = true)
    (hr : (if r.isExternal then a.heldFor r.allocId else none) = none) (p : Platform) :
    a.allocate r p = takeOver r a <$> FrameStore.allocate r a.store p := by
  unfold allocate
  rw [if_neg hs, ha, hr]
  exact allocateNew_eq r a p

theorem allocate_split (r : Request) (a : Allocator β) (p : Platform) :
    (∃ e, a.allocate r p = .ok (.error e, a, p)) ∨
    (∃ held ∈ a.external, (if r.isExternal then a.heldFor r.allocId else none) = some held ∧
      a.allocate r p = .ok (.ok held, a, p)) ∨
    (r.suggested ≠ 0 ∧ (if r.isExternal then a.heldFor r.allocId else none) = none ∧
      a.allocate r p = takeOver r a <$> FrameStore.allocate r a.store p) := by
  by_cases hs : r.suggested = 0
  · exact .inl ⟨_, if_pos hs⟩
  by_cases ha : FrameStore.accepts β r = true
  · cases hr : if r.isExternal then a.heldFor r.allocId else none with
    | none => exact .inr (.inr ⟨hs, rfl, allocate_anew hs ha hr p⟩)
    | some held =>
      have hmem : held ∈ a.external := by
        split at hr
        · exact List.mem_of_find?_eq_some hr
        · cases hr
      have hresult : a.allocate r p = if held.mids.length < r.suggested.toNat then
          .ok (.error .memory, a, p) else .ok (.ok held, a, p) := by
        unfold allocate
        rw [if_neg hs, ha, hr]
        rfl
      by_cases hlt : held.mids.length < r.suggested.toNat
      · exact .inl ⟨_, hresult.trans (if_pos hlt)⟩
      · exact .inr (.inl ⟨held, hmem, rfl, hresult.trans (if_neg hlt)⟩)
  · have hrefused : (!FrameStore.accepts β r) = true := by simpa using ha
    refine .inl ⟨.unsupported, ?_⟩
    unfold allocate
    rw [if_neg hs, if_pos hrefused]

end Allocator

end Multiview
