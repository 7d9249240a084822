import Multiview.Memory.Buffer
import Multiview.Memory.Platform

/-!
Frame allocators. `FrameStore` is what differs between kinds of memory. `Allocator` adds the
bookkeeping that all of them share: it holds the responses not freed yet, hands the same external
response to the same requester again, and recognises responses that come back.
-/

namespace Multiview

/-- A kind of memory from which frames are taken. Operations that fail still leave a store behind. -/
class FrameStore (β : Type) where
  /-- Requests that the store can serve. -/
  accepts : Request → Bool
  /-- The identifiers of new frames. -/
  allocate : Request → β → Platform → Outcome (Except AllocError (List MemId) × β × Platform)
  release : List MemId → β → Platform → Except AllocError Unit × β × Platform
  /-- Maps a frame into host memory. -/
  view : MemId → β → Except AllocError FrameView
  /-- Ends a mapping. -/
  endView : MemId → β → Except AllocError Unit
  handle : MemId → β → Except AllocError NativeHandle
  /-- Sets a range of bytes of a mapped frame. -/
  fill : MemId → Nat → Nat → UInt8 → β → Outcome β
  /-- Called once all responses have been released. -/
  close : β → Platform → Except AllocError Unit × β × Platform

structure Allocator (β : Type) where
  store : β
  /-- Responses that nobody else gets. -/
  oneShot : List Response := []
  /-- Responses handed to the same requester again. -/
  external : List Response := []

namespace Allocator

variable {β : Type}

def responseCount (a : Allocator β) : Nat := a.oneShot.length + a.external.length

/-- The external response held for a requester. -/
def heldFor (a : Allocator β) (allocId : UInt32) : Option Response :=
  a.external.find? (·.allocId == allocId)

variable [FrameStore β]

/-- Takes new frames from the store and holds the response. -/
def allocateNew (r : Request) (a : Allocator β) (p : Platform) :
    Outcome (Except AllocError Response × Allocator β × Platform) := do
  let (answer, store, p) ← FrameStore.allocate r a.store p
  match answer with
  | .error e => return (.error e, { a with store := store }, p)
  | .ok mids =>
    if r.isExternal then
      let response := ⟨r.allocId, mids⟩
      return (.ok response, { a with store := store, external := a.external ++ [response] }, p)
    else
      let response := ⟨0, mids⟩
      return (.ok response, { a with store := store, oneShot := a.oneShot ++ [response] }, p)

/-- Serves a request. A repeated external request gets the frames it already has, as long as they
are enough. -/
def allocate (r : Request) (a : Allocator β) (p : Platform) :
    Outcome (Except AllocError Response × Allocator β × Platform) :=
  if r.suggested = 0 then
    .ok (.error .memory, a, p)
  else if !FrameStore.accepts β r then
    .ok (.error .unsupported, a, p)
  else
    match if r.isExternal then a.heldFor r.allocId else none with
    | some held =>
      if held.mids.length < r.suggested.toNat then .ok (.error .memory, a, p)
      else .ok (.ok held, a, p)
    | none => a.allocateNew r p

/-- Frees a held response. It is no longer held afterwards, even if the store fails to release it. -/
def free (given : Response) (a : Allocator β) (p : Platform) :
    Except AllocError Unit × Allocator β × Platform :=
  match a.external.find? (·.matches given) with
  | some held =>
    let (answer, store, p) := FrameStore.release held.mids a.store p
    (answer, { a with store := store, external := a.external.eraseP (·.matches given) }, p)
  | none =>
    match a.oneShot.find? (·.matches given) with
    | some held =>
      let (answer, store, p) := FrameStore.release held.mids a.store p
      (answer, { a with store := store, oneShot := a.oneShot.eraseP (·.matches given) }, p)
    | none => (.error .unknownResponse, a, p)

/-- Releases one response after another. The answer is that of the last release that failed. -/
def releaseAll : List Response → Except AllocError Unit → β → Platform →
    Except AllocError Unit × β × Platform
  | [], answer, store, p => (answer, store, p)
  | r :: rest, answer, store, p =>
    match FrameStore.release r.mids store p with
    | (.error e, store, p) => releaseAll rest (.error e) store p
    | (.ok _, store, p) => releaseAll rest answer store p

/-- Releases every held response and closes the store. -/
def close (a : Allocator β) (p : Platform) : Except AllocError Unit × Allocator β × Platform :=
  let (released, store, p) := releaseAll (a.external ++ a.oneShot) (.ok ()) a.store p
  let (closed, store, p) := FrameStore.close store p
  let answer := match closed with
    | .error e => .error e
    | .ok _ => released
  (answer, ⟨store, [], []⟩, p)

def view (mid : MemId) (a : Allocator β) : Except AllocError FrameView :=
  FrameStore.view mid a.store

def endView (mid : MemId) (a : Allocator β) : Except AllocError Unit :=
  FrameStore.endView mid a.store

def handle (mid : MemId) (a : Allocator β) : Except AllocError NativeHandle :=
  FrameStore.handle mid a.store

def fill (mid : MemId) (start stop : Nat) (value : UInt8) (a : Allocator β) :
    Outcome (Allocator β) := do
  let store ← FrameStore.fill mid start stop value a.store
  return { a with store := store }

end Allocator

end Multiview
