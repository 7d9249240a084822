import Multiview.Session.Decode

/-!
Pictures as the client gets them and gives them back.
-/

namespace Multiview

/-- A stereo picture in the hands of the client. -/
structure StereoPicture where
  width : UInt32
  height : UInt32
  displayWidth : UInt32
  displayHeight : UInt32
  memory : MemoryKind
  stereoMode : StereoMode
  colorRange : Nat := 0
  control : Control
  decodeTimestamp : Option UInt64 := none
  timestamp : Option UInt64
  base : Option ViewHandle
  extra : Option ViewHandle
  /-- Keeps both surfaces out of the pool. -/
  picture : Option PictureId
  deriving DecidableEq, Repr

namespace Session

variable {σ : Type}

/-- The next picture, with its views mapped. Its reference goes over to the client. -/
def getPicture (s : Session σ) : Option (StereoPicture × Session σ) :=
  match s.pictures with
  | [] => none
  | id :: rest => do
    let picture ← s.pools.pictures[id]?
    let info := picture.base.info
    let (base, extra) := s.pools.mapPicture picture
    let (displayWidth, displayHeight) := displaySize info
    return ({
      width := info.width
      height := info.height
      displayWidth := displayWidth
      displayHeight := displayHeight
      memory := (s.pools.pool picture.pool).memory
      stereoMode := s.stereoMode
      control := s.control
      timestamp := picture.base.frameMeta.streamTimestamp
      base := base
      extra := extra
      picture := some id }, { s with pictures := rest })

/-- Ends the mapping of both views and drops the reference to the surfaces. -/
def clearPicture (p : StereoPicture) (s : Session σ) : StereoPicture × Session σ :=
  let cleared := { p with base := none, extra := none, picture := none }
  match p.picture with
  | none => (cleared, s)
  | some id => (cleared, { s with pools := s.pools.drop id })

/-- The surfaces that a picture of the client holds. -/
def surfacesOf (p : StereoPicture) (s : Session σ) : Option Picture :=
  p.picture.bind fun id => s.pools.pictures[id]?

/-- Takes pictures, at most `n` of them. -/
def takeReady : Nat → Session σ → List StereoPicture × Session σ
  | 0, s => ([], s)
  | n + 1, s =>
    match s.getPicture with
    | none => ([], s)
    | some (p, s) =>
      let (taken, s) := takeReady n s
      (p :: taken, s)

/-- Takes pictures, at most `n` of them, and clears each at once. -/
def playReady : Nat → Session σ → List StereoPicture × Session σ
  | 0, s => ([], s)
  | n + 1, s =>
    match s.getPicture with
    | none => ([], s)
    | some (p, s) =>
      let (shown, s) := playReady n (s.clearPicture p).2
      (p :: shown, s)

/-- Takes all pictures that are ready and clears each at once. -/
def playAllReady (s : Session σ) : List StereoPicture × Session σ := s.playReady s.pictures.length

end Session

end Multiview
