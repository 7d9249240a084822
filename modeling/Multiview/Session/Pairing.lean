import Multiview.Pool.Surface

/-!
Surfaces of both views waiting to be paired. Each view has a queue in which frame orders rise. The
front surfaces make a pair if they have the same frame order; otherwise the one of lower order can
find no partner any more and is dropped.
-/

namespace Multiview

def SurfaceInfo.order (s : SurfaceInfo) : UInt32 := s.frameMeta.frameOrder

/-- What to do with surfaces taken off the queues. -/
inductive PairingStep where
  | pair (base extra : SurfaceInfo)
  | drop (surface : SurfaceInfo)
  deriving DecidableEq, Repr

structure ViewQueues where
  base : List SurfaceInfo := []
  extra : List SurfaceInfo := []
  deriving DecidableEq, Repr

namespace ViewQueues

def length (q : ViewQueues) : Nat := q.base.length + q.extra.length

/-- Base surfaces, then extra ones. -/
def toList (q : ViewQueues) : List SurfaceInfo := q.base ++ q.extra

/-- Puts a surface at the end of the queue of its view. -/
def push (s : SurfaceInfo) (q : ViewQueues) : ViewQueues :=
  if s.info.viewId = 0 then { q with base := q.base ++ [s] } else { q with extra := q.extra ++ [s] }

/-- Takes a pair, or a surface without partner, off the front. -/
def step? : ViewQueues → Option (PairingStep × ViewQueues)
  | ⟨b :: base, e :: extra⟩ =>
    if b.order = e.order then some (.pair b e, ⟨base, extra⟩)
    else if b.order < e.order then some (.drop b, ⟨base, e :: extra⟩)
    else some (.drop e, ⟨b :: base, extra⟩)
  | _ => none

/-- Takes steps, at most `fuel` of them, while both queues hold at least `least` surfaces. -/
def resolveWithin (least : Nat) : Nat → ViewQueues → List PairingStep × ViewQueues
  | 0, q => ([], q)
  | fuel + 1, q =>
    if least ≤ q.base.length ∧ least ≤ q.extra.length then
      match q.step? with
      | none => ([], q)
      | some (step, q) =>
        let (steps, q) := resolveWithin least fuel q
        (step :: steps, q)
    else
      ([], q)

/-- Takes steps while both queues hold at least `least` surfaces. Each step shortens a queue. -/
def resolve (least : Nat) (q : ViewQueues) : List PairingStep × ViewQueues :=
  resolveWithin least q.length q

theorem length_step? {q : ViewQueues} {step : PairingStep} {q' : ViewQueues}
    (h : q.step? = some (step, q')) : q'.length < q.length := by
  unfold step? at h
  split at h
  · split at h
    · cases h
      simp [length]
      omega
    · split at h <;> cases h <;> simp [length]
  · cases h

end ViewQueues

end Multiview
