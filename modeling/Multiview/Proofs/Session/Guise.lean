import Multiview.Proofs.Memory.Past
import Multiview.Proofs.Session.Attuned
import Multiview.Session.Operation

/-!
What a session does apart from feeding its engine does not depend on the input, nor on the answers that
the engine has prepared. These and the calls of the past are the guise of a session. Setting up an
engine, pairing, and whatever the client does with pictures is done under every guise alike, and leaves
the input and the prepared answers alone.
-/

namespace Multiview

namespace SimulatedEngine

/-- The same engine with other answers prepared. -/
def answering (busy : Busy) (injected : List EngineStatus) (e : SimulatedEngine) : SimulatedEngine :=
  { e with busy := busy, injected := injected }

variable (busy : Busy) (injected : List EngineStatus) (e : SimulatedEngine)

theorem query_answering (params : VideoParams) :
    query params (e.answering busy injected) =
      ((query params e).1, (query params e).2.1, (query params e).2.2.answering busy injected) := by
  by_cases h : (e.traits.partialAcceleration && params.memory == .video) = true
  · simp only [query, answering, h, ↓reduceIte]
  · simp only [query, answering, h]
    rfl

theorem init_answering (params : VideoParams) :
    init params (e.answering busy injected) =
      ((init params e).1, (init params e).2.answering busy injected) := by
  by_cases h : params.sequence.viewCount = 0
  · simp only [init, h, ↓reduceIte]
  · simp only [init, h, ↓reduceIte]
    rfl

theorem sync_answering (point : SyncPoint) (r : Resources) :
    (e.answering busy injected).sync point r =
      ((e.sync point r).1, (e.sync point r).2.1.answering busy injected, (e.sync point r).2.2) := by
  obtain ⟨traits, b, i, polls, headerProbes, inits, resets, submissions, syncs, decoderCloses, closed,
    params, allocator, nextSync, nextOrder, lastBaseOrder, inFlight⟩ := e
  unfold sync
  cases polls with
  | succ n => rfl
  | zero =>
    dsimp only [answering]
    cases inFlight.find? (·.1 == point) <;> rfl

end SimulatedEngine

/-- What is only looked at when a session is fed, and the calls that were made before. -/
structure Guise where
  past : List Event
  buffer : Bytes
  lengthSize : Option LengthSize
  busy : Busy
  injected : List EngineStatus

namespace Session

/-- The session with calls before those in its journal, with other input and other prepared answers. -/
def under (g : Guise) (s : Session SimulatedEngine) : Session SimulatedEngine :=
  { s with
    engine := s.engine.answering g.busy g.injected
    buffer := g.buffer
    lengthSize := g.lengthSize
    pools := s.pools.after g.past }

/-- The session without anything that belongs to its guise. -/
def bare (s : Session SimulatedEngine) : Session SimulatedEngine :=
  { s with
    engine := s.engine.answering (.calls 0) []
    buffer := []
    lengthSize := none
    pools := { s.pools with platform := { s.pools.platform with journal := [] } } }

def guise (s : Session SimulatedEngine) : Guise :=
  ⟨s.pools.platform.journal, s.buffer, s.lengthSize, s.engine.busy, s.engine.injected⟩

theorem under_guise (s : Session SimulatedEngine) : s.bare.under s.guise = s := rfl

theorem under_params (g : Guise) (s : Session SimulatedEngine) :
    (s.under g).params = s.params := rfl

theorem under_config (g : Guise) (s : Session SimulatedEngine) :
    (s.under g).config = s.config := rfl

/-! ## Surfaces and pools -/

section Pools

variable (g : Guise) (s : Session SimulatedEngine)

theorem dropPictures_under : (s.under g).dropPictures = s.dropPictures.under g := by
  unfold dropPictures
  have hdrop := Pools.dropAll_after g.past s.pools s.pictures
  change ({ s.under g with pictures := [], pools := (s.pools.after g.past).dropAll s.pictures } :
    Session SimulatedEngine) = _
  rw [hdrop]
  rfl

theorem releaseQueued_under : (s.under g).releaseQueued = s.releaseQueued.under g := by
  have hfold : ∀ (pool : PoolId) (xs : List SurfaceInfo) (p : Pools),
      xs.foldl (fun p (x : SurfaceInfo) => p.release pool x.index) (p.after g.past) =
        (xs.foldl (fun p x => p.release pool x.index) p).after g.past := by
    intro pool xs
    induction xs with
    | nil => exact fun p => rfl
    | cons x xs ih => exact fun p => ih (p.release pool x.index)
  cases hc : s.current with
  | none =>
    have hc' : (s.under g).current = none := hc
    simp only [releaseQueued, hc, hc']
    rfl
  | some pool =>
    have hpools := hfold pool s.queues.toList s.pools
    rw [releaseQueued_of_current hc, releaseQueued_of_current (s := s.under g) hc]
    change ({ s.under g with
      queues := {}
      pools := s.queues.toList.foldl (fun p x => p.release pool x.index) (s.pools.after g.past) } :
        Session SimulatedEngine) = _
    rw [hpools]
    rfl

theorem releasePool_under : (s.under g).releasePool = s.releasePool.under g := by
  unfold releasePool
  rw [dropPictures_under, releaseQueued_under]
  generalize s.dropPictures.releaseQueued = t
  cases hc : t.current with
  | none =>
    have hc' : (t.under g).current = none := hc
    simp only [hc, hc']
  | some pool =>
    have hc' : (t.under g).current = some pool := hc
    have hdisown := Pools.disown_after g.past t.pools pool
    simp only [hc, hc']
    change ({ t.under g with current := none, pools := (t.pools.after g.past).disown pool } :
      Session SimulatedEngine) = _
    rw [hdisown]
    rfl

theorem startPool_under : (s.under g).startPool = s.startPool.under g := rfl

end Pools

/-! ## The engine -/

section Engine

variable (g : Guise) (s : Session SimulatedEngine)

/-- The same, whatever comes back with the session. -/
def outcomeUnder {α : Type} (g : Guise) (x : α × Session SimulatedEngine) : α × Session SimulatedEngine :=
  (x.1, x.2.under g)

theorem resetEngine_under : (s.under g).resetEngine = s.resetEngine.under g := rfl

theorem closeEngineDecoder_under :
    (s.under g).closeEngineDecoder = s.closeEngineDecoder.under g := by
  unfold closeEngineDecoder
  change (if s.engineReady = true then _ else s.under g) = _
  split <;> rfl

theorem retire_under : (s.under g).retire = s.retire.under g := by
  unfold retire
  dsimp only
  rw [closeEngineDecoder_under, releasePool_under, startPool_under]
  change (if (s.engineReady || s.current.any fun pool => (s.pools.pool pool).frames.isSome) = true
    then _ else s.under g) = _
  split <;> rfl

theorem askQuery_under : (s.under g).askQuery = outcomeUnder g s.askQuery := by
  have hquery : DecodeEngine.query (s.under g).params (s.under g).engine = _ :=
    SimulatedEngine.query_answering g.busy g.injected s.engine s.params
  simp only [askQuery, hquery]
  rfl

theorem askRequireFrames_under :
    (s.under g).askRequireFrames = outcomeUnder g s.askRequireFrames := rfl

theorem askInit_under : (s.under g).askInit = outcomeUnder g s.askInit := by
  have hinit : DecodeEngine.init (s.under g).params (s.under g).engine = _ :=
    SimulatedEngine.init_answering g.busy g.injected s.engine s.params
  simp only [askInit, hinit]
  rfl

theorem askSync_under (point : SyncPoint) :
    (s.under g).askSync point = outcomeUnder g (s.askSync point) := by
  have hsync : DecodeEngine.sync point (s.under g).config.syncTimeoutMs (s.under g).engine
      (s.under g).pools.resources = _ :=
    SimulatedEngine.sync_answering g.busy g.injected s.engine point s.pools.resources
  simp only [askSync, hsync]
  rfl

/-- The second half of a negotiation that gave up video memory. -/
def settleForSystem (s : Session SimulatedEngine) :
    Except DecodeError (Request × MemoryKind) × Session SimulatedEngine :=
  let (status, s) := askQuery { s with params := { s.params with memory := .system } }
  match status.check "query" with
  | .error e => (.error (.init e), s)
  | .ok _ =>
    match s.askRequireFrames with
    | (.ok request, s) => (.ok (request, .system), s)
    | (.error refusal, s) => (.error (.init ⟨"query_io_surf", refusal⟩), s)

/-- The second half of a negotiation. -/
def settleFor (memory : MemoryKind) (s : Session SimulatedEngine) :
    Except DecodeError (Request × MemoryKind) × Session SimulatedEngine :=
  match s.askRequireFrames with
  | (.ok request, s) => (.ok (request, memory), s)
  | (.error refusal, s) =>
    if refusal = .unsupported ∧ memory = .video then s.settleForSystem
    else (.error (.init ⟨"query_io_surf", refusal⟩), s)

theorem negotiate_eq (s : Session SimulatedEngine) :
    s.negotiate =
      let wanted : MemoryKind :=
        if s.isHardware && s.pools.platform.device.isSome then .video else .system
      let (status, t) := askQuery { s with params :=
        { s.params with memory := wanted, asyncDepth := s.config.asyncDepth } }
      match status.check "query" with
      | .error e => (.error (.init e), t)
      | .ok _ =>
        if status = .partialAcceleration then
          settleFor .system { t with params := { t.params with memory := .system } }
        else settleFor wanted t := by
  unfold negotiate settleFor
  dsimp only
  generalize askQuery (σ := SimulatedEngine) _ = asked
  by_cases hp : asked.1 = .partialAcceleration
  · simp only [hp, ↓reduceIte]
    rfl
  · simp only [hp, ↓reduceIte]
    rfl

theorem askQuery_params_under (params : VideoParams) :
    askQuery { s.under g with params := params } =
      outcomeUnder g (askQuery { s with params := params }) :=
  askQuery_under g { s with params := params }

theorem settleForSystem_under :
    (s.under g).settleForSystem = outcomeUnder g s.settleForSystem := by
  unfold settleForSystem
  rw [askQuery_params_under, under_params]
  generalize askQuery (σ := SimulatedEngine) _ = asked
  obtain ⟨status, t⟩ := asked
  dsimp only [outcomeUnder]
  rw [askRequireFrames_under]
  generalize t.askRequireFrames = required
  obtain ⟨answer, t⟩ := required
  split
  · rfl
  · cases answer <;> rfl

theorem settleFor_under (memory : MemoryKind) :
    (s.under g).settleFor memory = outcomeUnder g (s.settleFor memory) := by
  unfold settleFor
  rw [askRequireFrames_under]
  generalize s.askRequireFrames = required
  obtain ⟨answer, t⟩ := required
  cases answer with
  | ok request => rfl
  | error refusal =>
    dsimp only [outcomeUnder]
    rw [settleForSystem_under]
    split <;> rfl

theorem negotiate_under : (s.under g).negotiate = outcomeUnder g s.negotiate := by
  have hwanted : ((s.under g).isHardware && (s.under g).pools.platform.device.isSome) =
      (s.isHardware && s.pools.platform.device.isSome) := rfl
  rw [negotiate_eq, negotiate_eq, hwanted]
  generalize (if (s.isHardware && s.pools.platform.device.isSome) = true then MemoryKind.video
    else MemoryKind.system) = wanted
  dsimp only
  rw [askQuery_params_under, under_params, under_config]
  generalize askQuery (σ := SimulatedEngine) _ = asked
  obtain ⟨status, t⟩ := asked
  dsimp only [outcomeUnder]
  rw [settleFor_under]
  cases status.check "query" with
  | error e => rfl
  | ok _ =>
    by_cases hp : status = .partialAcceleration
    · simp only [hp, ↓reduceIte]
      exact settleFor_under g { t with params := { t.params with memory := .system } } .system
    · simp only [hp, ↓reduceIte]
      rfl

theorem supplyFrames_under (pool : PoolId) (request : Request) (memory : MemoryKind) :
    (s.under g).supplyFrames pool request memory =
      outcomeUnder g <$> s.supplyFrames pool request memory := by
  have hdevice : (s.pools.after g.past).platform.device = s.pools.platform.device := rfl
  unfold supplyFrames
  dsimp only [under]
  rw [Pools.supply_after, hdevice]
  generalize Pools.supply pool s.params.info memory _ _ s.pools = supplied
  cases supplied with
  | error fault => rfl
  | ok x =>
    obtain ⟨answer, pools⟩ := x
    cases answer with
    | error e => rfl
    | ok a =>
      obtain ⟨allocator, response⟩ := a
      rfl

theorem allocateFrames_under (pool : PoolId) :
    (s.under g).allocateFrames pool = outcomeUnder g <$> s.allocateFrames pool := by
  unfold allocateFrames
  rw [negotiate_under]
  obtain ⟨answer, t⟩ := s.negotiate
  cases answer with
  | error e => rfl
  | ok answer =>
    obtain ⟨request, memory⟩ := answer
    dsimp only [outcomeUnder]
    rw [supplyFrames_under]
    change (if t.isHardware ∧ request.suggested < t.params.asyncDepth then _ else _) = _
    split <;> rfl

theorem startEngine_under (pool : PoolId) :
    (s.under g).startEngine pool = outcomeUnder g <$> s.startEngine pool := by
  unfold startEngine
  rw [allocateFrames_under]
  cases s.allocateFrames pool with
  | error fault => rfl
  | ok x =>
    obtain ⟨answer, t⟩ := x
    cases answer with
    | error e => rfl
    | ok u =>
      simp only [outcomeUnder, Functor.map, Except.map, bind, Except.bind]
      rw [askInit_under]
      generalize t.askInit = asked
      obtain ⟨status, v⟩ := asked
      dsimp only [outcomeUnder]
      cases status.check "init" with
      | error e => rfl
      | ok _ =>
        by_cases hv : v.params.sequence.viewCount = 2
        · simp only [hv, under_params, ne_eq, not_true_eq_false, ↓reduceIte]
          rfl
        · simp only [hv, under_params, ne_eq, not_false_eq_true, ↓reduceIte]
          rfl

/-! ## Pairing -/

theorem waitFor_under (point : SyncPoint) (attempts : Nat) :
    (s.under g).waitFor point attempts = (s.waitFor point attempts).under g := by
  induction attempts generalizing s with
  | zero => rfl
  | succ attempts ih =>
    unfold waitFor
    rw [askSync_under]
    dsimp only [outcomeUnder]
    split
    · exact ih _
    · rfl

theorem syncSurface_under (pool : PoolId) (surface : SurfaceInfo) :
    (s.under g).syncSurface pool surface = (s.syncSurface pool surface).under g := by
  have htake : (s.under g).pools.takeSync pool surface.index =
      ((s.pools.takeSync pool surface.index).1,
        (s.pools.takeSync pool surface.index).2.after g.past) := rfl
  unfold syncSurface
  rw [htake]
  obtain ⟨point, pools⟩ := s.pools.takeSync pool surface.index
  cases point with
  | none => rfl
  | some point => exact waitFor_under g { s with pools := pools } point _

theorem perform_under (pool : PoolId) (step : PairingStep) :
    (s.under g).perform pool step = under g <$> s.perform pool step := by
  cases step with
  | drop surface => rfl
  | pair base extra =>
    unfold perform
    dsimp only
    rw [syncSurface_under, syncSurface_under]
    generalize (s.syncSurface pool base).syncSurface pool extra = t
    have hjoin : (t.under g).pools.join pool base extra =
        Prod.map id (Pools.after g.past) <$> t.pools.join pool base extra := by
      unfold Pools.join
      split <;> rfl
    rw [hjoin]
    cases t.pools.join pool base extra with
    | error fault => rfl
    | ok x => rfl

theorem pairQueued_under (least : Nat) :
    (s.under g).pairQueued least = under g <$> s.pairQueued least := by
  have hfold : ∀ (pool : PoolId) (steps : List PairingStep) (s : Session SimulatedEngine),
      steps.foldlM (fun s step => s.perform pool step) (s.under g) =
        under g <$> steps.foldlM (fun s step => s.perform pool step) s := by
    intro pool steps
    induction steps with
    | nil => exact fun s => rfl
    | cons step steps ih =>
      intro s
      rw [List.foldlM_cons, List.foldlM_cons, perform_under]
      cases s.perform pool step with
      | error fault => rfl
      | ok t => exact ih t
  cases hc : s.current with
  | none =>
    have hc' : (s.under g).current = none := hc
    simp only [pairQueued, hc, hc']
    rfl
  | some pool =>
    have hc' : (s.under g).current = some pool := hc
    simp only [pairQueued, hc, hc']
    exact hfold pool (s.queues.resolve least).1
      { s with queues := (s.queues.resolve least).2, current := some pool }

theorem handleOutput_under (surface : SurfaceInfo) :
    (s.under g).handleOutput surface = under g <$> s.handleOutput surface :=
  pairQueued_under g { s with queues := s.queues.push surface } _

theorem flushQueues_under (engineEmpty : Bool) :
    (s.under g).flushQueues engineEmpty = under g <$> s.flushQueues engineEmpty := by
  unfold flushQueues
  rw [pairQueued_under]
  change (if s.phase ≠ .ready then _ else _) = _
  split
  · rfl
  · cases s.pairQueued 1 with
    | error fault => rfl
    | ok t =>
      cases engineEmpty with
      | false => rfl
      | true => exact congrArg Except.ok (releaseQueued_under g t)

end Engine

/-! ## Pictures -/

section Pictures

variable (g : Guise) (s : Session SimulatedEngine)

theorem getPicture_under :
    (s.under g).getPicture = s.getPicture.map (Prod.map id (under g)) := by
  cases hp : s.pictures with
  | nil =>
    have hp' : (s.under g).pictures = [] := hp
    simp only [getPicture, hp, hp']
    rfl
  | cons id rest =>
    have hp' : (s.under g).pictures = id :: rest := hp
    have htable : (s.under g).pools.pictures = s.pools.pictures := rfl
    simp only [getPicture, hp, hp', htable]
    cases s.pools.pictures[id]? <;> rfl

theorem clearPicture_under (p : StereoPicture) :
    (s.under g).clearPicture p = outcomeUnder g (s.clearPicture p) := by
  unfold clearPicture
  cases p.picture with
  | none => rfl
  | some id =>
    have hdrop := Pools.drop_after g.past s.pools id
    change (_, { s.under g with pools := (s.pools.after g.past).drop id }) = _
    rw [hdrop]
    rfl

theorem takeReady_under (n : Nat) :
    (s.under g).takeReady n = outcomeUnder g (s.takeReady n) := by
  induction n generalizing s with
  | zero => rfl
  | succ n ih =>
    unfold takeReady
    rw [getPicture_under]
    cases s.getPicture with
    | none => rfl
    | some x =>
      obtain ⟨p, t⟩ := x
      simp only [Option.map_some, Prod.map]
      rw [ih]
      rfl

theorem playReady_under (n : Nat) :
    (s.under g).playReady n = outcomeUnder g (s.playReady n) := by
  induction n generalizing s with
  | zero => rfl
  | succ n ih =>
    unfold playReady
    rw [getPicture_under]
    cases s.getPicture with
    | none => rfl
    | some x =>
      obtain ⟨p, t⟩ := x
      simp only [Option.map_some, Prod.map]
      rw [clearPicture_under]
      dsimp only [outcomeUnder]
      rw [ih]
      rfl

end Pictures

end Session

namespace Client

open Session

/-- The client of a session in another guise. -/
def under (g : Guise) (c : Client SimulatedEngine) : Client SimulatedEngine :=
  { c with session := c.session.under g }

/-- Whether an operation only deals with pictures that are there, or sets the control flags. -/
def handles : Operation → Bool
  | .control _ | .take _ | .play | .clear _ | .drop _ | .share _ | .mark _ | .view _
  | .dropShared _ => true
  | _ => false

variable (g : Guise) (c : Client SimulatedEngine)

theorem dropReference_under (id : Option PictureId) :
    (c.under g).dropReference id = (c.dropReference id).under g := by
  cases id with
  | none => rfl
  | some id =>
    have hdrop := Pools.drop_after g.past c.session.pools id
    change (c.under g).withPools ((c.session.pools.after g.past).drop id) = _
    rw [hdrop]
    rfl

theorem take_under (n : Nat) : (c.under g).take n = ((c.take n).1, (c.take n).2.under g) := by
  have htake : (c.under g).session.takeReady n = outcomeUnder g (c.session.takeReady n) :=
    takeReady_under g c.session n
  unfold take
  rw [htake]
  rfl

theorem clear_under (place : Nat) :
    (c.under g).clear place = ((c.clear place).1, (c.clear place).2.under g) := by
  have hheld : (c.under g).held? place = c.held? place := rfl
  unfold clear
  rw [hheld]
  cases c.held? place with
  | none => rfl
  | some p =>
    have hclear : (c.under g).session.clearPicture p = outcomeUnder g (c.session.clearPicture p) :=
      clearPicture_under g c.session p
    dsimp only
    rw [hclear]
    rfl

theorem drop_under (place : Nat) :
    (c.under g).drop place = ((c.drop place).1, (c.drop place).2.under g) := by
  have hheld : (c.under g).held? place = c.held? place := rfl
  unfold drop
  dsimp only
  rw [hheld, dropReference_under]
  rfl

theorem dropShared_under (place : Nat) :
    (c.under g).dropShared place = ((c.dropShared place).1, (c.dropShared place).2.under g) := by
  have hshared : (c.under g).shared? place = c.shared? place := rfl
  unfold dropShared
  dsimp only
  rw [hshared, dropReference_under]
  rfl

theorem share_under (place : Nat) :
    (c.under g).share place = ((c.share place).1, (c.share place).2.under g) := by
  have hheld : (c.under g).held? place = c.held? place := rfl
  unfold share
  dsimp only
  rw [hheld]
  cases (c.held? place).bind (·.picture) <;> rfl

theorem mark_under (place : Nat) :
    (c.under g).mark place = ((c.mark place).1, (c.mark place).2.under g) := by
  have hsurfaces : (c.under g).surfaces? place = c.surfaces? place := rfl
  unfold mark
  rw [hsurfaces]
  cases c.surfaces? place <;> rfl

/-- What a client does with its pictures is the same under every guise. -/
theorem perform_under {op : Operation} (hop : handles op = true) :
    (c.under g).perform op = (fun x => (x.1, x.2.under g)) <$> c.perform op := by
  cases op with
  | control flags => rfl
  | take n => exact congrArg Except.ok (take_under g c n)
  | play =>
    have hplay : (c.under g).session.playAllReady = outcomeUnder g c.session.playAllReady :=
      playReady_under g c.session c.session.pictures.length
    unfold perform
    dsimp only
    rw [hplay]
    rfl
  | clear place => exact congrArg Except.ok (clear_under g c place)
  | drop place => exact congrArg Except.ok (drop_under g c place)
  | share place => exact congrArg Except.ok (share_under g c place)
  | mark place => exact congrArg Except.ok (mark_under g c place)
  | view place => rfl
  | dropShared place => exact congrArg Except.ok (dropShared_under g c place)
  | _ => cases hop

end Client

end Multiview
