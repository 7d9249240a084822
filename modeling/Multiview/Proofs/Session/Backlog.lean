import Multiview.Proofs.Session.Lockstep
import Multiview.Proofs.Session.Opening
import Multiview.Proofs.Session.Tending

/-!
How many surfaces can wait for the other view. In every reachable state one of both view queues holds
half of the operations in flight at most, and the pool of a running engine has two pairs of surfaces
more than operations in flight, besides those that the engine suggests. So without pictures the pool is
only exhausted by surfaces of one view that the other view does not keep up with.
-/

namespace Multiview

open Outcome Session

namespace Pools

theorem length_surfaces_drop (id : PictureId) (id' : PoolId) (s : Pools) :
    ((s.drop id).pool id').surfaces.length = (s.pool id').surfaces.length := by
  rcases drop_cases id s with ⟨hd, _⟩ | ⟨x, n, _, _, ⟨_, hd⟩ | ⟨_, hd⟩⟩
  · rw [hd]
  · rw [hd]
    rfl
  · rw [hd, surfaces_settle, length_surfaces_modifySurface, length_surfaces_modifySurface]
    rfl

/-- A pool that is supplied with frames has a surface for each of them. -/
theorem supply_room (id : PoolId) (info : FrameInfo) (memory : MemoryKind)
    (settings : Option TextureSettings) (request : Request) {s : Pools} (hlt : id < s.pools.length) :
    Yields (s.supply id info memory settings request) fun x =>
      x.2.pools.length = s.pools.length ∧
        ∀ a, x.1 = .ok a → request.suggested.toNat ≤ (x.2.pool id).surfaces.length := by
  unfold supply
  refine (MixedAllocator.allocate_sound settings request s.platform).yields.bind ?_
  rintro ⟨answer, a, platform⟩ hcount
  cases answer with
  | error e => exact .pure ⟨rfl, nofun⟩
  | ok response =>
    have hnew := congrArg List.length (mids_newSurfaces info response.mids s)
    rw [List.length_map, (hcount response rfl).1.length] at hnew
    refine .pure ⟨(supplied_rest id info memory response a platform s).2.1, fun _ _ => ?_⟩
    change _ ≤ ((s.supplied id info memory response a platform).pool id).surfaces.length
    rw [pool_supplied hlt, if_pos rfl, List.length_append, hnew]
    exact Nat.le_add_left _ _

end Pools

namespace Session

variable {s t u : Session SimulatedEngine} {pool : PoolId}

/-! ## Room -/

/-- Surfaces that a pool gets at least. -/
def leastRoom (s : Session SimulatedEngine) : Nat :=
  min (s.engine.traits.suggested.toNat + s.config.asyncDepth.toNat + 4) 65535

/-- One view queue is short, and there is a pool with room for a running engine. -/
structure Roomy (s : Session SimulatedEngine) : Prop where
  shorter : s.queues.shorter ≤ s.config.asyncDepth.toNat / 2
  present : ∀ pool, s.current = some pool → pool < s.pools.pools.length
  room : s.engineReady = true → ∀ pool, s.current = some pool →
    s.leastRoom ≤ (s.pools.pool pool).surfaces.length

/-- Room is kept while no pool loses surfaces and the engine is not started. -/
theorem Roomy.frame (h : Roomy s) (hconfig : t.config = s.config)
    (htraits : t.engine.traits = s.engine.traits) (hcurrent : t.current = s.current)
    (hready : t.engineReady = true → s.engineReady = true)
    (hqueues : t.queues = s.queues ∨ t.queues.shorter ≤ s.config.asyncDepth.toNat / 2)
    (hlength : t.pools.pools.length = s.pools.pools.length)
    (hsurfaces : ∀ pool,
      (t.pools.pool pool).surfaces.length = (s.pools.pool pool).surfaces.length) : Roomy t where
  shorter := by
    rw [hconfig]
    rcases hqueues with hq | hq
    · rw [hq]
      exact h.shorter
    · exact hq
  present := fun pool hc => hlength ▸ h.present pool (hcurrent ▸ hc)
  room := fun he pool hc => by
    rw [leastRoom, hconfig, htraits, hsurfaces pool]
    exact h.room (hready he) pool (hcurrent ▸ hc)

theorem Roomy.edit (h : Roomy s) {phase : Phase} {params : VideoParams}
    {lengthSize : Option LengthSize} {buffer : Bytes} {pictures : List PictureId}
    {stereoMode : StereoMode} {control : Control} {clientSurfaces : UInt16} {memory : MemoryKind} :
    Roomy { s with
      phase := phase
      params := params
      lengthSize := lengthSize
      buffer := buffer
      pictures := pictures
      stereoMode := stereoMode
      control := control
      clientSurfaces := clientSurfaces
      memory := memory } :=
  ⟨h.shorter, h.present, h.room⟩

theorem Roomy.fed (h : Roomy s) (hs : Served s t) (ht : Tended s t) : Roomy t :=
  h.frame hs.config ht.traits hs.current (fun he => hs.engineReady.symm.trans he) ht.queues
    hs.pools.length hs.pools.surfaces

/-! ## Taking down -/

theorem Roomy.drop (h : Roomy s) (id : PictureId) (pictures : List PictureId) :
    Roomy { s with pictures := pictures, pools := s.pools.drop id } :=
  h.frame rfl rfl rfl (fun he => he) (Or.inl rfl) (Pools.length_drop id s.pools)
    fun pool => Pools.length_surfaces_drop id pool s.pools

theorem Roomy.dropPictures (h : Roomy s) : Roomy s.dropPictures := by
  have hall : ∀ (ids : List PictureId) (s : Session SimulatedEngine), Roomy s →
      Roomy { s with pictures := [], pools := s.pools.dropAll ids } := by
    intro ids
    induction ids with
    | nil => exact fun s h => h.edit
    | cons id ids ih => exact fun s h => ih _ (h.drop id [])
  exact hall s.pictures s h

theorem Roomy.releaseQueued (h : Roomy s) : Roomy s.releaseQueued := by
  have hs := served_releaseQueued s
  refine h.frame hs.config ?_ hs.current (fun he => hs.engineReady.symm.trans he) (Or.inr ?_)
    hs.pools.length hs.pools.surfaces
  · rw [releaseQueued_rest]
  · rw [releaseQueued_rest]
    exact Nat.zero_le _

/-- Without a pool no room is needed. -/
theorem roomy_releasePool (s : Session SimulatedEngine) : Roomy s.releasePool := by
  rw [releasePool_rest]
  exact ⟨Nat.zero_le _, nofun, fun _ => nofun⟩

theorem roomy_tearDown (s : Session SimulatedEngine) : Roomy s.tearDown :=
  (roomy_releasePool s.closeEngineDecoder).edit

theorem Roomy.startPool (h : Roomy s) (he : s.engineReady = false) : Roomy s.startPool where
  shorter := h.shorter
  present := fun pool hc => by
    cases hc
    change s.pools.pools.length < (s.pools.pools ++ [_]).length
    simp
  room := fun hready => by
    cases he.symm.trans hready

theorem roomy_restart (options : Options) (s : Session SimulatedEngine) :
    Roomy (s.restart options) :=
  Roomy.startPool (roomy_tearDown s).edit (vacant_tearDown s).engineReady

theorem Roomy.close (h : Roomy s) : Roomy s.close := by
  unfold Session.close
  split
  · exact h
  · have hdown := roomy_tearDown s
    exact ⟨hdown.shorter, hdown.present, hdown.room⟩

theorem Roomy.flush (h : Roomy s) : Roomy s.flush := by
  have hreset : ∀ u : Session SimulatedEngine, Roomy u → Roomy u.resetEngine := fun u hu =>
    hu.frame rfl rfl rfl (fun he => he) (Or.inl rfl) rfl fun _ => rfl
  unfold Session.flush
  dsimp only
  split
  · exact (hreset _ h.edit).dropPictures.releaseQueued
  · exact Roomy.releaseQueued (Roomy.dropPictures h.edit)

theorem Roomy.retire (h : Roomy s) : Roomy s.retire := by
  unfold Session.retire
  dsimp only
  generalize (s.current.any fun pool => (s.pools.pool pool).frames.isSome) = hasFrames
  split
  · exact (roomy_releasePool _).startPool
      ((engineReady_releasePool _).trans (engineReady_closeEngineDecoder s))
  · exact h

/-! ## Setting up -/

/-- Talking to the engine takes no room. -/
theorem Roomy.talked (h : Roomy s) (ht : Talked s t) (htraits : t.engine.traits = s.engine.traits) :
    Roomy t := by
  have hpool : ∀ pool, t.pools.pool pool = s.pools.pool pool := by
    rw [ht.rest]
    exact fun _ => rfl
  refine h.frame ?_ htraits ?_ ?_ (Or.inl ?_) ?_ fun pool => by rw [hpool pool]
  · rw [ht.rest]
  · rw [ht.rest]
  · rw [ht.rest]
    exact fun he => he
  · rw [ht.rest]
  · rw [ht.rest]

theorem traits_probeHeader (s : Session SimulatedEngine) :
    Yields s.probeHeader fun x => x.2.engine.traits = s.engine.traits := by
  have hask : ∀ u : Session SimulatedEngine,
      Yields u.askReadHeader fun x => x.2.engine.traits = u.engine.traits := fun u =>
    (SimulatedEngine.readHeader_traits u.buffer u.params u.engine).bind fun _ ha => .pure ha
  unfold probeHeader
  refine (hask s).bind ?_
  rintro ⟨status, t⟩ ht
  dsimp only at ht ⊢
  split
  · exact (hask _).mono fun x hx => hx.trans ht
  · exact .pure ht

/-- Frames were agreed on and maybe supplied, while the engine was idle. -/
structure Supplied (pool : PoolId) (enough : Bool) (t : Session SimulatedEngine) : Prop where
  roomy : Roomy t
  engineReady : t.engineReady = false
  current : t.current = some pool
  room : enough = true → t.leastRoom ≤ (t.pools.pool pool).surfaces.length

theorem supplied_supplyFrames (h : Roomy s) (he : s.engineReady = false)
    (hc : s.current = some pool) {request : Request} (memory : MemoryKind)
    (hsuggested : request.suggested = s.engine.traits.suggested)
    (hdepth : s.params.asyncDepth = s.config.asyncDepth) :
    Yields (s.supplyFrames pool request memory) fun x => Supplied pool x.1.isOk x.2 := by
  unfold supplyFrames
  dsimp only
  refine (Pools.supply_room pool s.params.info memory _ _ (h.present pool hc)).bind ?_
  rintro ⟨answer, pools⟩ ⟨hlength, hroom⟩
  dsimp only at hlength hroom ⊢
  have hpresent : ∀ p, s.current = some p → p < pools.pools.length := fun p hp =>
    hlength ▸ h.present p hp
  have hidle : ∀ {p : Prop}, s.engineReady = true → p := fun hr => by cases he.symm.trans hr
  cases answer with
  | error e => exact .pure ⟨⟨h.shorter, hpresent, hidle⟩, he, hc, nofun⟩
  | ok answer =>
    have hle : s.leastRoom ≤ (pools.pool pool).surfaces.length := by
      refine Nat.le_trans ?_ (hroom answer rfl)
      rw [hsuggested, hdepth]
      exact min_le_poolSize _ _ _ memory
    exact .pure ⟨⟨h.shorter, hpresent, hidle⟩, he, hc, fun _ => hle⟩

theorem supplied_allocateFrames (h : Roomy s) (he : s.engineReady = false)
    (hc : s.current = some pool) :
    Yields (s.allocateFrames pool) fun x => Supplied pool x.1.isOk x.2 := by
  obtain ⟨t, memory, -, hneg, hengine, hdepth, -⟩ := negotiate_settles s
  have htalked := (talked_negotiate s).1
  rw [hneg] at htalked
  dsimp only at htalked
  have hroomy : Roomy t := h.talked htalked (congrArg _ hengine)
  obtain ⟨hready, hcur, hconfig⟩ : t.engineReady = s.engineReady ∧ t.current = s.current ∧
      t.config = s.config := by
    rw [htalked.rest]
    exact ⟨rfl, rfl, rfl⟩
  unfold allocateFrames
  rw [hneg]
  dsimp only
  split
  · exact .ok ⟨hroomy, hready.trans he, hcur.trans hc, nofun⟩
  · refine supplied_supplyFrames hroomy (hready.trans he) (hcur.trans hc) memory ?_ ?_
    · rw [hengine]
      rfl
    · rw [hdepth, hconfig]

theorem roomy_startEngine (h : Roomy s) (he : s.engineReady = false) (hc : s.current = some pool) :
    Yields (s.startEngine pool) fun x => Roomy x.2 := by
  unfold startEngine
  refine (supplied_allocateFrames h he hc).bind ?_
  rintro ⟨answer, t⟩ ht
  cases answer with
  | error e => exact .pure ht.roomy
  | ok u =>
    have htraits : t.askInit.2.engine.traits = t.engine.traits := by
      change (SimulatedEngine.init t.params t.engine).2.traits = _
      unfold SimulatedEngine.init
      split <;> rfl
    have hasked : Roomy t.askInit.2 :=
      ht.roomy.frame rfl htraits rfl (fun hr => hr) (Or.inl rfl) rfl fun _ => rfl
    have hstarted : Roomy { t.askInit.2 with engineReady := true } := by
      refine ⟨hasked.shorter, hasked.present, fun _ pool' hc' => ?_⟩
      cases ht.current.symm.trans hc'
      rw [leastRoom, htraits]
      exact ht.room rfl
    dsimp only
    split
    · exact .pure hasked
    · split
      · exact .pure hstarted
      · exact .pure hstarted.edit

theorem roomy_setUp (h : Roomy s) (hs : Settled s) (hp : s.phase = .opened) :
    Yields s.setUp fun x => Roomy x.2 := by
  obtain ⟨-, -, he⟩ := hs.retire hp
  have hretired := h.retire
  unfold setUp
  dsimp only
  generalize s.retire = t at he hretired ⊢
  split
  · exact .pure hretired
  · rename_i pool hc
    have hprobe : Yields t.probeHeader fun x => Talked t x.2 ∧
        x.2.engine.traits = t.engine.traits := fun x hx =>
      ⟨(talked_probeHeader t x hx).1, traits_probeHeader t x hx⟩
    refine hprobe.bind ?_
    rintro ⟨status, u⟩ ⟨ht, htraits⟩
    have hu := hretired.talked ht htraits
    dsimp only at ht hu ⊢
    split
    · exact .pure hu.edit
    · split
      · exact .pure hu.edit
      · refine (roomy_startEngine hu ?_ ?_).bind fun x hx => .pure hx
        · rw [ht.rest]
          exact he
        · rw [ht.rest]
          exact hc

/-! ## Operations -/

theorem roomy_advance (flushing : Bool) (dts pts : Option UInt64) (h : Roomy s) (hs : Settled s)
    (ha : Active s) : Yields (s.advance flushing dts pts) fun x => Roomy x.2 := by
  have harrange : Yields (s.arrange flushing) fun x => Roomy x.2 := by
    unfold arrange
    split
    · exact .ok h
    · rename_i hp
      split
      · exact .ok h
      · exact roomy_setUp h hs (ha.resolve_right hp)
  have hboth : Yields (s.arrange flushing) fun x => Roomy x.2 ∧ Settled x.2 ∧
      (x.1 = .ok true → x.2.phase = .ready) := fun x hx => by
    obtain ⟨hsettled, -, -, hready⟩ := arrange_settled flushing hs ha x hx
    exact ⟨harrange x hx, hsettled, hready⟩
  unfold advance
  refine hboth.bind ?_
  rintro ⟨answer, t⟩ ⟨ht, hsettled, hready⟩
  cases answer with
  | error e => exact .pure ht
  | ok goOn =>
    cases goOn with
    | false => exact .pure ht
    | true =>
      have hphase : t.phase = .ready := hready rfl
      have hcur := hsettled.active (Or.inr hphase)
      obtain ⟨pool, hpool⟩ := Option.isSome_iff_exists.mp hcur
      intro x hx
      have hserving := hsettled.attuned.serving (hsettled.ready hphase).1
      exact ht.fed (served_decodeBuffer flushing dts pts hserving hcur x hx).1
        (tended_decodeBuffer flushing dts pts hpool x hx)

theorem roomy_tryDecode (data : Option Bytes) (dts pts : Option UInt64) (h : Roomy s)
    (hs : Settled s) : Yields (s.tryDecode data dts pts) fun x => Roomy x.2 := by
  unfold tryDecode
  refine (accept_cases data s).bind ?_
  rintro r (⟨ha, ⟨e, rfl⟩ | ⟨b, rfl⟩⟩ | ⟨ha, rfl | rfl⟩)
  · exact .pure h
  · exact roomy_advance _ dts pts h.edit (hs.buffer ha b) ha
  · exact .pure h
  · exact .pure h

theorem roomy_decode (data : Option Bytes) (dts pts : Option UInt64) (h : Roomy s)
    (hs : Settled s) : Yields (s.decode data dts pts) fun x => Roomy x.2 := by
  rw [decode_eq]
  exact (roomy_tryDecode data dts pts h hs).bind fun x hx =>
    .pure (answered_keeps hx fun t ht => ht.edit)

theorem roomy_bootstrap (data : Bytes) (h : Roomy s) (hs : Settled s) :
    Yields (s.bootstrap data) fun x => Roomy x.2 := by
  unfold bootstrap
  refine (roomy_tryDecode (some data) none none h hs).bind ?_
  rintro ⟨answer, t⟩ ht
  cases answer with
  | ok status => exact .pure ht
  | error e => exact .pure ht

theorem roomy_tryOpen (hints : StreamHints) (options : Options) (h : Roomy s) (hs : Settled s) :
    Yields (s.tryOpen hints options) fun x => Roomy x.2 := by
  have hrestart := roomy_restart options s
  unfold tryOpen
  split
  · exact .pure h
  · rename_i hp
    have hsettled := hs.restart hp options
    split
    · exact .pure h
    · split
      · exact .pure h
      · split
        · exact .pure h
        · rename_i header _
          unfold feedHeader
          refine (roomy_bootstrap header.data hrestart.edit (hsettled.lengthSize _)).bind ?_
          rintro ⟨answer, t⟩ ht
          cases answer with
          | error e => exact .pure ht
          | ok u =>
            dsimp only
            split
            · exact .pure ht
            · exact .pure ht.edit
        · split
          · exact .pure hrestart
          · exact roomy_bootstrap _ hrestart hsettled

theorem roomy_open (hints : StreamHints) (options : Options) (h : Roomy s) (hs : Settled s) :
    Yields (s.open hints options) fun x => Roomy x.2.2 := by
  unfold «open»
  refine (roomy_tryOpen hints options h hs).bind ?_
  rintro ⟨answer, t⟩ ht
  cases answer with
  | ok u => exact .pure ht.edit
  | error e =>
    dsimp only
    split
    · exact .pure ht
    · exact .pure (roomy_tearDown t).edit

end Session

namespace Custody

theorem Step.roomy {c c' : Custody} (h : Step c c') (hc : Roomy c.session) : Roomy c'.session := by
  cases h with
  | take hp => exact hc.edit
  | share hid => exact ⟨hc.shorter, hc.present, hc.room⟩
  | drop => exact hc.drop _ _
  | @mark refs taken s id p hid hp =>
    have hsteady := Pools.Steady.pair p.pool p.base.index p.extra.index Surface.display s.pools
    exact hc.frame rfl rfl rfl (fun he => he) (Or.inl rfl) hsteady.length hsteady.surfaces
  | reorder hr => exact hc

theorem Steps.roomy {c c' : Custody} (h : Steps c c') (hc : Roomy c.session) :
    Roomy c'.session := by
  induction h with
  | refl => exact hc
  | tail _ hstep ih => exact hstep.roomy ih

end Custody

namespace Event

/-- Stream data was handed to the engine, or it was drained. -/
def submits : Event → Bool
  | engine (.decode _ _ _ _ _) => true
  | _ => false

end Event

namespace Session

variable {s t u : Session SimulatedEngine} {pool : PoolId}

/-- The engine was handed stream data in between. -/
def Submits (s t : Session SimulatedEngine) : Prop :=
  ∃ new, t.journal = new ++ s.journal ∧ ∃ e ∈ new, e.submits = true

theorem Submits.served (h : Submits s t) (ht : Served t u) : Submits s u := by
  obtain ⟨new, hj, e, he, hs⟩ := h
  obtain ⟨calls, hj', -⟩ := ht.journal
  refine ⟨calls.map .engine ++ new, by rw [hj', hj, List.append_assoc], e, ?_, hs⟩
  exact List.mem_append_right _ he

/-- The first turn of a submission is the engine's if a surface is free. -/
theorem submits_submitWithin {index : Nat} {work : WorkSurface} (hs : Serving s)
    (hf : s.pools.freeSurface? pool = some (index, work)) (fuel : Nat) (p : Submission) :
    Yields (submitWithin pool fuel s p) fun x => Submits s x.1 := by
  have hask : ∀ input work, Yields (s.askDecode input work) fun y =>
      Submits s y.2.2.2 ∧ Served s y.2.2.2 := by
    intro input work y hy
    have hbind : Yields (s.askDecode input work) fun y => Submits s y.2.2.2 :=
      Yields.bind (p := fun _ => True) (fun _ _ => trivial) fun a _ =>
        .pure ⟨[_], rfl, _, List.mem_singleton_self _, rfl⟩
    exact ⟨hbind y hy, served_askDecode input work s y hy⟩
  have hturn : Yields (turn pool s p) fun x => Submits s x.2.1 := by
    unfold turn
    rw [hf]
    refine (hask _ work).bind ?_
    rintro ⟨status, output, stream, t⟩ ⟨hsub, ht⟩
    dsimp only at hsub ht ⊢
    split
    · exact .pure (hsub.served (served_handleBusy (ht.serving hs) _))
    · exact (served_handleAnswer _ _ _ t).mono fun y hy => hsub.served hy
  cases fuel with
  | zero => exact .error _
  | succ fuel =>
    unfold submitWithin
    have hboth : Yields (turn pool s p) fun x => Submits s x.2.1 ∧ Served s x.2.1 := fun x hx =>
      ⟨hturn x hx, served_turn hs p x hx⟩
    refine hboth.bind ?_
    rintro ⟨goOn, t, p'⟩ ⟨hsub, ht⟩
    dsimp only at hsub ht ⊢
    split
    · exact (served_submitWithin fuel (ht.serving hs) p').mono fun x hx => hsub.served hx
    · exact .pure hsub

theorem submits_decodeBuffer {index : Nat} {work : WorkSurface} (hs : Serving s)
    (hc : s.current = some pool) (hf : s.pools.freeSurface? pool = some (index, work))
    (flushing : Bool) (dts pts : Option UInt64) :
    Yields (s.decodeBuffer flushing dts pts) fun x => Submits s x.2 := by
  rw [decodeBuffer_eq hc]
  refine Yields.bind (submits_submitWithin (s := { s with buffer := [] }) ⟨hs.engineReady, hs.held⟩
    hf _ _) ?_
  rintro ⟨t, p⟩ ht
  exact fun x hx => ht.served (served_conclude s.buffer p t x hx).1

/-- Input that is decoded without error was handed to the engine. -/
theorem submits_decode {index : Nat} {work : WorkSurface} (hs : Settled s)
    (hp : s.phase = .ready) (hc : s.current = some pool)
    (hf : s.pools.freeSurface? pool = some (index, work)) (data : Option Bytes)
    (dts pts : Option UInt64) :
    Yields (s.decode data dts pts) fun x => x.1.error = false → Submits s x.2 := by
  have hserving : Serving s := hs.attuned.serving (hs.ready hp).1
  have htry : Yields (s.tryDecode data dts pts) fun x =>
      (∃ e, x.1 = .error e) ∨ Submits s x.2 := by
    unfold tryDecode
    refine (accept_cases data s).bind ?_
    rintro r (⟨ha, ⟨e, rfl⟩ | ⟨b, rfl⟩⟩ | ⟨ha, -⟩)
    · exact .pure (Or.inl ⟨_, rfl⟩)
    · dsimp only
      rw [advance_of_ready (s := { s with buffer := b }) hp]
      exact (submits_decodeBuffer (s := { s with buffer := b })
        ⟨hserving.engineReady, hserving.held⟩ hc hf _ dts pts).mono fun x hx => Or.inr hx
    · exact absurd (Or.inr hp) ha
  unfold decode
  refine htry.bind ?_
  rintro ⟨answer, t⟩ ht
  cases answer with
  | error e => exact .pure nofun
  | ok status =>
    refine .pure fun _ => ?_
    rcases ht with ⟨e, he⟩ | hsub
    · cases he
    · exact hsub

end Session

namespace Client

variable {c : Client SimulatedEngine}

theorem start_roomy (traits : SimulatedTraits) (config : SessionConfig)
    (device : Option TextureDevice) (memory : HostMemory) :
    Roomy (start traits config device memory).session :=
  ⟨Nat.zero_le _, nofun, nofun⟩

theorem perform_roomy (op : Operation) (h : Roomy c.session) (hs : Settled c.session) :
    Yields (c.perform op) fun x => Roomy x.2.session := by
  cases op with
  | «open» hints options => exact (roomy_open hints options h hs).bind fun x hx => .pure hx
  | decode data dts pts => exact (roomy_decode data dts pts h hs).bind fun x hx => .pure hx
  | drain => exact (roomy_decode none none none h.edit (hs.control _)).bind fun x hx => .pure hx
  | flush => exact .pure h.flush
  | close => exact .pure h.close
  | control flags => exact .pure h.edit
  | prepare p =>
    refine .pure (h.frame rfl ?_ rfl (fun he => he) (Or.inl rfl) rfl fun _ => rfl)
    cases p <;> rfl
  | take n => exact .pure ((take_steps n [] c).roomy h)
  | play => exact .pure ((Session.playReady_steps _ c.session c.references []).roomy h)
  | clear place => exact .pure ((clear_steps place [] c).roomy h)
  | drop place => exact .pure ((drop_steps place [] c).roomy h)
  | share place => exact .pure ((share_steps place [] c).roomy h)
  | mark place => exact .pure ((mark_steps place [] c).roomy h)
  | view place => exact .pure h
  | dropShared place => exact .pure ((dropShared_steps place [] c).roomy h)

theorem Reachable.roomy (h : c.Reachable) : Roomy c.session := by
  obtain ⟨traits, config, device, memory, ops, hrun⟩ := h
  have hstep : ∀ (c : Client SimulatedEngine) (op : Operation),
      Roomy c.session ∧ Settled c.session →
        Yields ((·.2) <$> c.perform op) fun c' => Roomy c'.session ∧ Settled c'.session := by
    rintro c op ⟨hc, hs⟩
    cases hop : c.perform op with
    | error fault => exact .error fault
    | ok x => exact .ok ⟨perform_roomy op hc hs x hop, (perform_settled op hs x hop).1⟩
  exact (Yields.foldlM (q := fun c => Roomy c.session ∧ Settled c.session) hstep
    ⟨start_roomy traits config device memory, start_settled traits config device memory⟩ c hrun).1

theorem perform_decode_eq {c' : Client SimulatedEngine} {data : Option Bytes}
    {dts pts : Option UInt64} {a : Answer} (h : c.perform (.decode data dts pts) = .ok (a, c')) :
    ∃ status t, c.session.decode data dts pts = .ok (status, t) ∧ a = .status status ∧
      c' = { c with session := t } := by
  unfold Client.perform at h
  dsimp only at h
  cases hdecode : c.session.decode data dts pts with
  | error fault =>
    rw [hdecode] at h
    cases h
  | ok x =>
    obtain ⟨status, t⟩ := x
    rw [hdecode] at h
    cases h
    exact ⟨status, t, rfl, rfl, rfl⟩

/-- No picture of the pool is alive or waits for the client. -/
def Unshown (pool : PoolId) (c : Client SimulatedEngine) : Prop :=
  c.session.pictures = [] ∧
    ∀ p ∈ c.session.pools.pictures, p.pool = pool → p.isAlive = false

instance (pool : PoolId) (c : Client SimulatedEngine) : Decidable (c.Unshown pool) :=
  inferInstanceAs (Decidable (_ ∧ _))

theorem Unshown.liveCount_eq_zero {pool : PoolId} (h : c.Unshown pool) :
    c.session.pools.liveCount pool = 0 := by
  refine List.countP_eq_zero.mpr fun p hmem hboth => ?_
  obtain ⟨ha, hpool⟩ := Bool.and_eq_true_iff.mp hboth
  rw [h.2 p hmem (beq_iff_eq.mp hpool)] at ha
  cases ha

/-- Parameter sets of two views, and `n` slices of the base view. -/
def baseOnly (n : Nat) : Bytes :=
  [0, 0, 1, 0x67, 1, 0, 0, 1, 0x6f, 1, 0, 0, 1, 0x68, 1] ++
    (List.replicate n [0, 0, 1, 0x65, 1]).flatten

/-- Decoding `n` slices of the base view with eight surfaces. -/
def baseOnlyRun (n : Nat) : Outcome (Client SimulatedEngine) :=
  (start { suggested := 2 } { asyncDepth := 2 } none).run
    [.open {} {}, .decode (some (baseOnly n)) none none]

end Client

end Multiview
