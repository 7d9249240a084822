import Multiview.Frame.Info

/-!
Requests for frames, the responses to them, and the ways in which an allocator can refuse.
-/

namespace Multiview

/-- Kinds of memory and purpose, one bit each. -/
structure MemType where
  bits : UInt16
  deriving DecidableEq, Repr

namespace MemType

def externalFrame : MemType := ⟨0x0002⟩
def decoderTarget : MemType := ⟨0x0010⟩
def processorTarget : MemType := ⟨0x0020⟩
def systemMemory : MemType := ⟨0x0040⟩
def fromDecode : MemType := ⟨0x0200⟩

def union (a b : MemType) : MemType := ⟨a.bits ||| b.bits⟩

/-- All bits of `b` are set. -/
def contains (a b : MemType) : Bool := a.bits &&& b.bits == b.bits

/-- Some bit of `b` is set. -/
def intersects (a b : MemType) : Bool := a.bits &&& b.bits != 0

/-- Kinds of memory that are backed by textures. -/
def videoMemory : MemType := union decoderTarget processorTarget

end MemType

/-- The frames that a component needs. -/
structure Request where
  /-- Tells requesters apart: the same one gets the same external frames again. -/
  allocId : UInt32 := 0
  info : FrameInfo := {}
  memType : MemType := ⟨0⟩
  minimum : UInt16 := 0
  suggested : UInt16 := 0
  deriving DecidableEq, Repr

/-- Frames for the decoder that stay in the hands of the requester. -/
def Request.isExternal (r : Request) : Bool :=
  r.memType.contains (.union .externalFrame .fromDecode)

/-- The frames allocated for a request. -/
structure Response where
  allocId : UInt32
  mids : List MemId
  deriving DecidableEq, Repr

/-- A held response is recognised by its first frame and its size. -/
def Response.matches (held given : Response) : Bool :=
  !held.mids.isEmpty && held.mids.head? == given.mids.head? &&
    held.mids.length == given.mids.length

inductive AllocError where
  | unsupported
  | memory
  | invalidHandle (mid : MemId)
  | unknownResponse
  | notInitialized
  deriving DecidableEq, Repr

def AllocError.message : AllocError → String
  | unsupported => "operation not supported by this allocator"
  | memory => "frame memory allocation failed"
  | invalidHandle mid => "unknown memory id " ++ mid.describe
  | unknownResponse => "response does not belong to this allocator"
  | notInitialized => "allocator is not initialized"

end Multiview
