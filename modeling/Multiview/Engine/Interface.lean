import Multiview.Engine.Resources

/-!
What a decode engine can be asked. It is handed stream data together with a free surface and answers
with a status and, for a picture that it started to decode, the surface and a sync point.
-/

namespace Multiview

/-- Answer to a piece of the stream. -/
structure DecodeAnswer (σ : Type) where
  status : EngineStatus
  output : Option DecodedSurface
  /-- The stream after the engine took from it, or nothing when the engine was drained. -/
  stream : Option Bitstream
  engine : σ
  resources : Resources

/-- Engines with states in `σ`. -/
class DecodeEngine (σ : Type) where
  implementation : σ → Implementation
  /-- Registers the allocator of the frames that work surfaces name. -/
  useAllocator : AllocatorId → σ → EngineStatus × σ
  /-- Reads the parameters of a stream off its beginning. -/
  readHeader : Bytes → VideoParams → σ → Outcome (EngineStatus × VideoParams × σ)
  /-- Checks parameters and may correct them. -/
  query : VideoParams → σ → EngineStatus × VideoParams × σ
  /-- The frames that the engine needs. -/
  requireFrames : VideoParams → σ → Except EngineStatus Request × σ
  init : VideoParams → σ → EngineStatus × σ
  /-- Takes stream data and a free surface. Without data the engine is drained. -/
  decode : Option Bitstream → WorkSurface → σ → Resources → Outcome (DecodeAnswer σ)
  /-- Waits at most `waitMs` for an operation to complete. -/
  sync : SyncPoint → (waitMs : UInt32) → σ → Resources → EngineStatus × σ × Resources
  /-- Drops the work in flight and starts again. -/
  reset : VideoParams → σ → Resources → EngineStatus × σ × Resources
  closeDecoder : σ → Resources → EngineStatus × σ × Resources
  close : σ → σ
  /-- Answers that the engine can give to `decode` before it takes data or asks for more. -/
  patience : σ → Nat

end Multiview
