import Multiview.Config.ParameterSets
import Multiview.Engine.Status
import Multiview.Memory.Request
import Multiview.Session.Stream

/-!
Ways in which opening a stream or decoding a part of it can fail.
-/

namespace Multiview

inductive DecodeError where
  | record (e : RecordError)
  | header (e : EngineError)
  | init (e : EngineError)
  | decode (e : EngineError)
  | allocation (e : AllocError)
  | wrongViewCount (count : UInt16)
  | notEnoughSurfaces (suggested required : UInt16)
  | notOpened
  | stopped
  deriving DecidableEq, Repr

namespace DecodeError

def message : DecodeError → String
  | record e => "malformed input: " ++ e.message
  | header e => "failed to parse the stream header: " ++ e.message
  | init e => "failed to initialize the engine: " ++ e.message
  | decode e => "the engine failed to decode: " ++ e.message
  | allocation e => "frame allocation failed: " ++ e.message
  | wrongViewCount count => s!"only MVC with two views is supported, stream has {count}"
  | notEnoughSurfaces suggested required =>
    s!"engine suggested {suggested} surfaces, at least {required} are needed"
  | notOpened => "decoder is not opened"
  | stopped => "decoder stopped after a fatal error"

/-- The decoder cannot go on with the stream. -/
def isFatal : DecodeError → Bool
  | init _ | decode _ | allocation _ | wrongViewCount _ | notEnoughSurfaces _ _ => true
  | _ => false

end DecodeError

inductive OpenError where
  | codec (codec : Codec)
  | tag (tag : Fourcc)
  | config (e : ConfigError)
  | record (e : RecordError)
  /-- The sequence header could not be decoded. -/
  | sequenceHeader (e : DecodeError)
  | closed
  deriving DecidableEq, Repr

def OpenError.message : OpenError → String
  | codec c => "unsupported codec " ++ c.name
  | tag t => "unsupported codec tag " ++ t.describe
  | config e => "invalid MVC extradata: " ++ e.message
  | record e => "invalid sequence header: " ++ e.message
  | sequenceHeader e => "failed to decode the sequence header: " ++ e.message
  | closed => "decoder is closed"

end Multiview
