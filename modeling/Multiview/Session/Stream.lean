import Multiview.Frame.Fourcc

/-!
What a client says about a stream before it is decoded: codec and tag, the extradata of its
container, hints on the layout of both views, and free-form options.
-/

namespace Multiview

inductive Codec where
  | h264
  | h264Mvc
  | hevc
  | other
  deriving DecidableEq, Repr

def Codec.name : Codec → String
  | h264 => "H264"
  | h264Mvc => "H264Mvc"
  | hevc => "Hevc"
  | other => "Other"

/-- Where the base view is shown. -/
inductive StereoMode where
  | baseLeft
  | baseRight
  deriving DecidableEq, Repr

namespace StereoMode

/-- Every hint but `block_rl` puts the base view on the left. -/
def ofHint (hint : String) : StereoMode := if hint = "block_rl" then baseRight else baseLeft

def text : StereoMode → String
  | baseLeft => "block_lr"
  | baseRight => "block_rl"

theorem ofHint_text (m : StereoMode) : ofHint m.text = m := by
  cases m <;> decide

end StereoMode

structure StreamHints where
  codec : Codec := .h264Mvc
  tag : Fourcc := .amvc
  extradata : Bytes := []
  width : UInt32 := 0
  height : UInt32 := 0
  /-- Layout of the views. Opening replaces the hint by the layout in use. -/
  stereoMode : String := ""
  deriving DecidableEq, Repr

/-- Options as pairs of key and value. -/
abbrev Options := List (String × String)

namespace Options

/-- The value of the first option with a given key. -/
def get? (o : Options) (key : String) : Option String := (o.find? (·.1 == key)).map (·.2)

/-- Pictures that the client keeps for itself; a value that is no number is ignored. -/
def surfaces? (o : Options) : Option UInt16 := do
  let value ← o.get? "surfaces"
  let n ← Text.number? UInt16.size (Text.trim value.toList)
  return UInt16.ofNat n

end Options

end Multiview
