import Multiview.Engine.Simulated
import Multiview.Session.Client

/-!
A client and everything it can do with a session: the operations of the session itself, and what it
does with the pictures it got. `Client.run` carries out any sequence of operations.
-/

namespace Multiview

/-- A client of a session. -/
structure Client (σ : Type) where
  session : Session σ
  /-- Pictures in the order in which they were taken. One that was dropped leaves a gap. -/
  held : List (Option StereoPicture) := []
  /-- Further references to the surfaces of pictures. -/
  shared : List (Option PictureId) := []

/-- What a client can do. Pictures and references are named by their place among those it has. -/
inductive Operation where
  | «open» (hints : StreamHints) (options : Options)
  | decode (data : Option Bytes) (dts pts : Option UInt64)
  | drain
  | flush
  | close
  | control (flags : Control)
  /-- Prepare the engine. -/
  | prepare (preparation : Preparation)
  /-- Take at most `n` pictures. -/
  | take (n : Nat)
  /-- Take all pictures and clear each at once. -/
  | play
  | clear (picture : Nat)
  /-- Drop a picture without clearing it. -/
  | drop (picture : Nat)
  /-- Take another reference to the surfaces of a picture. -/
  | share (picture : Nat)
  /-- Mark the surfaces of a reference as being displayed. -/
  | mark (reference : Nat)
  /-- Get access to the views of a reference. -/
  | view (reference : Nat)
  | dropShared (reference : Nat)

inductive Answer where
  | done
  | opened (result : Except OpenError Unit) (hints : StreamHints)
  | status (status : DecodeStatus)
  | pictures (pictures : List StereoPicture)
  | picture (picture : Option StereoPicture)
  | reference (place : Nat)
  /-- Whether there was anything to work on. -/
  | found (found : Bool)
  | views (views : Option (Option ViewHandle × Option ViewHandle × MemoryKind))

namespace Client

variable {σ : Type}

/-- The picture at a place, unless it was dropped. -/
def held? (place : Nat) (c : Client σ) : Option StereoPicture := c.held[place]?.join

/-- The reference at a place, unless it was dropped. -/
def shared? (place : Nat) (c : Client σ) : Option PictureId := c.shared[place]?.join

/-- The surfaces that the reference at a place holds. -/
def surfaces? (place : Nat) (c : Client σ) : Option Picture :=
  (c.shared? place).bind fun id => c.session.pools.pictures[id]?

def withPools (pools : Pools) (c : Client σ) : Client σ :=
  { c with session := { c.session with pools := pools } }

/-- Drops a reference, if it is one. -/
def dropReference (id : Option PictureId) (c : Client σ) : Client σ :=
  match id with
  | none => c
  | some id => c.withPools (c.session.pools.drop id)

/-- References that the client has: those of its pictures, then further ones. -/
def references (c : Client σ) : List PictureId :=
  c.held.filterMap (fun p => p.bind (·.picture)) ++ c.shared.filterMap id

/-- Drops everything that the client has. -/
def release (c : Client σ) : Client σ :=
  { session := { c.session with pools := c.session.pools.dropAll c.references } }

def take (n : Nat) (c : Client σ) : Answer × Client σ :=
  let (taken, s) := c.session.takeReady n
  (.pictures taken, { c with session := s, held := c.held ++ taken.map some })

def clear (place : Nat) (c : Client σ) : Answer × Client σ :=
  match c.held? place with
  | none => (.picture none, c)
  | some p =>
    let (p, s) := c.session.clearPicture p
    (.picture (some p), { c with session := s, held := c.held.set place (some p) })

def drop (place : Nat) (c : Client σ) : Answer × Client σ :=
  let p := c.held? place
  (.found p.isSome,
    { c.dropReference (p.bind (·.picture)) with held := c.held.set place none })

/-- A picture that was cleared or dropped has nothing to share; the place is used up all the same. -/
def share (place : Nat) (c : Client σ) : Answer × Client σ :=
  let id := (c.held? place).bind (·.picture)
  let pools := match id with
    | none => c.session.pools
    | some id => c.session.pools.share id
  (.reference c.shared.length, { c.withPools pools with shared := c.shared ++ [id] })

def mark (place : Nat) (c : Client σ) : Answer × Client σ :=
  match c.surfaces? place with
  | none => (.found false, c)
  | some p => (.found true, c.withPools (c.session.pools.markPicture p))

def view (place : Nat) (c : Client σ) : Answer :=
  .views ((c.surfaces? place).map fun p =>
    let (base, extra) := c.session.pools.mapPicture p
    (base, extra, (c.session.pools.pool p.pool).memory))

def dropShared (place : Nat) (c : Client σ) : Answer × Client σ :=
  let id := c.shared? place
  (.found id.isSome, { c.dropReference id with shared := c.shared.set place none })

variable [DecodeEngine σ] [Preparable σ]

def perform (op : Operation) (c : Client σ) : Outcome (Answer × Client σ) := do
  let s := c.session
  match op with
  | .open hints options =>
    let (result, hints, s) ← s.open hints options
    return (.opened result hints, { c with session := s })
  | .decode data dts pts =>
    let (status, s) ← s.decode data dts pts
    return (.status status, { c with session := s })
  | .drain =>
    let (status, s) ← s.drain
    return (.status status, { c with session := s })
  | .flush => return (.done, { c with session := s.flush })
  | .close => return (.done, { c with session := s.close })
  | .control flags => return (.done, { c with session := s.setControl flags })
  | .prepare p =>
    return (.done, { c with session := { s with engine := Preparable.prepare p s.engine } })
  | .take n => return c.take n
  | .play =>
    let (shown, s) := s.playAllReady
    return (.pictures shown, { c with session := s })
  | .clear place => return c.clear place
  | .drop place => return c.drop place
  | .share place => return c.share place
  | .mark place => return c.mark place
  | .view place => return (c.view place, c)
  | .dropShared place => return c.dropShared place

/-- The client after a sequence of operations. -/
def run (ops : List Operation) (c : Client σ) : Outcome (Client σ) :=
  ops.foldlM (fun c op => (·.2) <$> c.perform op) c

end Client

end Multiview
