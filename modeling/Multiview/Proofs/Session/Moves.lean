import Mathlib.Logic.Relation
import Multiview.Proofs.Engine.Simulated
import Multiview.Proofs.Pairing.Perform

/-!
The steps that a session with the simulated engine is made of. `Move` lists everything that can happen
to surfaces and pools, apart from the start of the engine (`Starts`) and the making of pictures
(`Pairs`). A property kept by these three is kept by every operation. `InStep` is the first such
property: session, engine and pools know of each other.
-/

namespace Multiview

open Outcome

namespace Event

/-- The surface that the engine returned. -/
def output? : Event → Option DecodedSurface
  | engine (.decode _ _ _ _ output) => output
  | _ => none

/-- The engine returned a surface of the base view. -/
def returnsBase (e : Event) : Bool := e.output?.any (·.info.viewId == 0)

/-- The engine was set up for a stream. -/
def starts : Event → Bool
  | engine (.init _ status) => !status.isError
  | _ => false

end Event

namespace Session

/-- The journal, latest event first. -/
def journal {σ : Type} (s : Session σ) : List Event := s.pools.platform.journal

/-- Nothing was done to surfaces, pools and pictures, and the engine was not started. -/
structure Aside (s s' : Session SimulatedEngine) : Prop where
  engine : s.engine.Alike s'.engine
  engineReady : s'.engineReady = s.engineReady
  current : s'.current = s.current
  queues : s'.queues = s.queues
  pictures : s'.pictures = s.pictures
  pools : s'.pools.pools = s.pools.pools
  table : s'.pools.pictures = s.pools.pictures
  resources : s'.pools.resources = s.pools.resources
  journal : ∃ events, s'.journal = events ++ s.journal ∧
    ∀ e ∈ events, e.output? = none ∧ e.starts = false
  textures : s.pools.platform.Gains s'.pools.platform []
  ready : s'.phase = .ready → s'.engineReady = true

/-- The session after an answer of the engine to stream data. -/
def submitted (input : Option Bitstream) (work : WorkSurface) (a : DecodeAnswer SimulatedEngine)
    (s : Session SimulatedEngine) : Session SimulatedEngine :=
  record (.decode input work.mid a.status (a.stream.map (·.offset)) a.output)
    ({ s with engine := a.engine }.withResources a.resources)

/-- What the session makes of an answer. -/
theorem askDecode_eq {s : Session SimulatedEngine} {input : Option Bitstream} {work : WorkSurface}
    {a : DecodeAnswer SimulatedEngine}
    (h : s.engine.decode input work s.pools.resources = .ok a) :
    s.askDecode input work = .ok (a.status, a.output, a.stream, s.submitted input work a) := by
  have hdecode : DecodeEngine.decode input work s.engine s.pools.resources = .ok a := h
  unfold askDecode
  rw [hdecode]
  rfl

/-- What every turn keeps, a submission keeps. -/
theorem submitWithin_keeps {pool : PoolId} {q : Session SimulatedEngine → Submission → Prop}
    (hturn : ∀ s p, q s p → Yields (turn pool s p) fun x => q x.2.1 x.2.2) (fuel : Nat)
    {s : Session SimulatedEngine} {p : Submission} (h : q s p) :
    Yields (submitWithin pool fuel s p) fun x => q x.1 x.2 := by
  induction fuel generalizing s p with
  | zero => exact .error _
  | succ fuel ih =>
    unfold submitWithin
    refine (hturn s p h).bind ?_
    rintro ⟨goOn, t, p'⟩ ht
    dsimp only at ht ⊢
    split
    · exact ih ht
    · exact .pure ht

/-- What holds whatever is left of the input, and after the queues are flushed, holds when a
submission is concluded. -/
theorem conclude_keeps {s : Session SimulatedEngine} {q : Session SimulatedEngine → Prop}
    (hbuffer : ∀ b, q { s with buffer := b })
    (hflush : ∀ b engineEmpty, Yields (flushQueues engineEmpty { s with buffer := b }) q)
    (buffer : Bytes) (p : Submission) :
    Yields (s.conclude buffer p) fun x => q x.2 ∧ x.1 ≠ .error .notOpened := by
  unfold conclude
  split
  · exact .pure ⟨hbuffer buffer, nofun⟩
  · refine (leftover_sound buffer p).yields.bind fun rest _ => ?_
    dsimp only
    split
    · exact .pure ⟨hbuffer rest, nofun⟩
    · split
      · exact (hflush rest _).bind fun t ht => .pure ⟨ht, nofun⟩
      · exact .pure ⟨hbuffer rest, nofun⟩

/-- The session after surface `index` has come back with a picture of one view. -/
def received (pool : PoolId) (index : Nat) (d : DecodedSurface) (s : Session SimulatedEngine) :
    Session SimulatedEngine :=
  { s with
    pools := s.pools.modifySurface pool index (·.queue d)
    queues := s.queues.push ⟨index, d.mid, d.info, d.frameMeta⟩ }

/-- The session with frames for its pool, which the engine writes to. -/
def equipped (pool : PoolId) (info : FrameInfo) (memory : MemoryKind) (response : Response)
    (a : MixedAllocator) (platform : Platform) (s : Session SimulatedEngine) :
    Session SimulatedEngine :=
  (askUseAllocator s.pools.resources.allocators.length
    { s with
      pools := s.pools.supplied pool info memory response a platform
      memory := memory }).2

/-- One step of a session that neither starts the engine nor makes a picture. -/
inductive Move : Session SimulatedEngine → Session SimulatedEngine → Prop
  | aside {s s' : Session SimulatedEngine} (h : Aside s s') : Move s s'
  /-- The engine gave no surface back. -/
  | submit {s : Session SimulatedEngine} {pool : PoolId} {index : Nat} {work : WorkSurface}
      {a : DecodeAnswer SimulatedEngine} (input : Option Bitstream) (he : s.engineReady = true)
      (hc : s.current = some pool) (hf : s.pools.freeSurface? pool = some (index, work))
      (ha : s.engine.Idled s.pools.resources a) : Move s (s.submitted input work a)
  /-- The engine gave the free surface back with a picture of one view. -/
  | receive {s : Session SimulatedEngine} {pool : PoolId} {index found : Nat} {work : WorkSurface}
      {a : DecodeAnswer SimulatedEngine} {d : DecodedSurface} (input : Option Bitstream)
      (he : s.engineReady = true) (hc : s.current = some pool)
      (hf : s.pools.freeSurface? pool = some (index, work))
      (ha : SimulatedEngine.Sliced work s.engine s.pools.resources a d)
      (hm : (s.pools.pool pool).find? d.mid = some found) :
      Move s ((s.submitted input work a).received pool found d)
  | wait (s : Session SimulatedEngine) (point : SyncPoint) : Move s (s.askSync point).2
  | reset (s : Session SimulatedEngine) (he : s.engineReady = true) : Move s s.resetEngine
  | closeDecoder (s : Session SimulatedEngine) (hp : s.phase ≠ .ready) :
      Move s { s.askCloseDecoder.2 with engineReady := false }
  /-- The oldest base surface is given up. -/
  | dropBase {s : Session SimulatedEngine} {pool : PoolId} {x : SurfaceInfo}
      {base : List SurfaceInfo} (hc : s.current = some pool) (hq : s.queues.base = x :: base) :
      Move s ((s.withQueues ⟨base, s.queues.extra⟩).released pool x)
  /-- The oldest extra surface is given up. -/
  | dropExtra {s : Session SimulatedEngine} {pool : PoolId} {x : SurfaceInfo}
      {extra : List SurfaceInfo} (hc : s.current = some pool) (hq : s.queues.extra = x :: extra) :
      Move s ((s.withQueues ⟨s.queues.base, extra⟩).released pool x)
  /-- The next picture for the client is given up. -/
  | dropPicture {s : Session SimulatedEngine} {id : PictureId} {rest : List PictureId}
      (hp : s.pictures = id :: rest) :
      Move s { s with pictures := rest, pools := s.pools.drop id }
  | startPool (s : Session SimulatedEngine) (hc : s.current = none) (he : s.engineReady = false) :
      Move s s.startPool
  | leavePool {s : Session SimulatedEngine} {pool : PoolId} (hc : s.current = some pool)
      (hq : s.queues = {}) (he : s.engineReady = false) :
      Move s { s with current := none, pools := s.pools.disown pool }
  | equip {s : Session SimulatedEngine} {pool : PoolId} {response : Response}
      {memory : MemoryKind} {platform : Platform} (info : FrameInfo) (a : MixedAllocator)
      (he : s.engineReady = false) (hc : s.current = some pool)
      (hf : (s.pools.pool pool).frames = none) (hn : response.mids.Nodup)
      (hm : memory = .system → ∀ mid ∈ response.mids, Views.Maps (fun m => a.view m) mid)
      (hg : Platform.Grew s.pools.platform platform)
      (ha : MixedAllocator.Furnished memory response a)
      (ht : s.pools.platform.Gains platform (MixedAllocator.handles a)) :
      Move s (s.equipped pool info memory response a platform)

/-- The engine is started with the frames of the pool. -/
inductive Starts : Session SimulatedEngine → Session SimulatedEngine → Prop
  | start {s : Session SimulatedEngine} {pool : PoolId} {frames : PoolFrames}
      (hc : s.current = some pool) (hf : (s.pools.pool pool).frames = some frames)
      (ha : s.engine.allocator = some frames.allocator) (hq : s.queues = {})
      (hs : s.askInit.1.isError = false) : Starts s { s.askInit.2 with engineReady := true }

/-- The oldest surfaces of both views become a picture. -/
inductive Pairs : Session SimulatedEngine → Session SimulatedEngine → Prop
  | pair {s : Session SimulatedEngine} {pool : PoolId} {b e : SurfaceInfo}
      {base extra : List SurfaceInfo} (hc : s.current = some pool)
      (hq : s.queues = ⟨b :: base, e :: extra⟩) (hf : Fits b e) :
      Pairs s ((s.withQueues ⟨base, extra⟩).joined pool b e)

open Relation

abbrev Moves := ReflTransGen Move

/-- Steps that make no pictures. -/
abbrev Preparing := ReflTransGen fun s s' => Move s s' ∨ Starts s s'

/-- Steps that do not start the engine. -/
abbrev Feeding := ReflTransGen fun s s' => Move s s' ∨ Pairs s s'

/-- The course of an operation: no picture is made before the engine is running for good. -/
def Course (s s' : Session SimulatedEngine) : Prop := ∃ t, Preparing s t ∧ Feeding t s'

section Closure

variable {s t u : Session SimulatedEngine}

/-- All other fields may change, so long as no phase promises an engine that is not there. -/
theorem Aside.edit {config : SessionConfig} {phase : Phase} {params : VideoParams}
    {lengthSize : Option LengthSize} {buffer : Bytes} {stereoMode : StereoMode} {control : Control}
    {clientSurfaces : UInt16} {memory : MemoryKind} {busyAnswers : Nat}
    (h : phase = .ready → s.engineReady = true) :
    Aside s { s with
      config := config
      phase := phase
      params := params
      lengthSize := lengthSize
      buffer := buffer
      stereoMode := stereoMode
      control := control
      clientSurfaces := clientSurfaces
      memory := memory
      busyAnswers := busyAnswers } where
  engine := .refl _
  engineReady := rfl
  current := rfl
  queues := rfl
  pictures := rfl
  pools := rfl
  table := rfl
  resources := rfl
  journal := ⟨[], rfl, fun _ he => absurd he List.not_mem_nil⟩
  textures := .refl _
  ready := h

theorem Moves.preparing (h : Moves s t) : Preparing s t :=
  ReflTransGen.mono (fun _ _ => Or.inl) _ _ h

theorem Moves.feeding (h : Moves s t) : Feeding s t :=
  ReflTransGen.mono (fun _ _ => Or.inl) _ _ h

theorem Preparing.course (h : Preparing s t) : Course s t := ⟨t, h, .refl⟩

theorem Feeding.course (h : Feeding s t) : Course s t := ⟨s, .refl, h⟩

theorem Moves.course (h : Moves s t) : Course s t := h.feeding.course

theorem Course.feed (h : Course s t) (h' : Feeding t u) : Course s u := by
  obtain ⟨v, hp, hf⟩ := h
  exact ⟨v, hp, hf.trans h'⟩

theorem Course.prepared (h : Preparing s t) (h' : Course t u) : Course s u := by
  obtain ⟨v, hp, hf⟩ := h'
  exact ⟨v, h.trans hp, hf⟩

theorem Preparing.keeps {q : Session SimulatedEngine → Prop}
    (hmove : ∀ s s', Move s s' → q s → q s') (hstart : ∀ s s', Starts s s' → q s → q s')
    (h : Preparing s t) (hs : q s) : q t := by
  induction h with
  | refl => exact hs
  | tail _ hstep ih => exact hstep.elim (hmove _ _ · ih) (hstart _ _ · ih)

theorem Feeding.keeps {q : Session SimulatedEngine → Prop}
    (hmove : ∀ s s', Move s s' → q s → q s') (hpair : ∀ s s', Pairs s s' → q s → q s')
    (h : Feeding s t) (hs : q s) : q t := by
  induction h with
  | refl => exact hs
  | tail _ hstep ih => exact hstep.elim (hmove _ _ · ih) (hpair _ _ · ih)

/-- What every step keeps is kept by the whole course of an operation. -/
theorem Course.keeps {q : Session SimulatedEngine → Prop}
    (hmove : ∀ s s', Move s s' → q s → q s') (hstart : ∀ s s', Starts s s' → q s → q s')
    (hpair : ∀ s s', Pairs s s' → q s → q s') (h : Course s t) (hs : q s) : q t := by
  obtain ⟨v, hp, hf⟩ := h
  exact hf.keeps hmove hpair (hp.keeps hmove hstart hs)

end Closure

end Session

end Multiview
