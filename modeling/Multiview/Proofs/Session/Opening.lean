import Multiview.Proofs.Session.Streaming

/-!
Opening a stereo stream on a new session. The first packet holds the parameter sets; with them the engine
is set up, and the pool gets two pairs of surfaces more than there are operations in flight, besides
those that the engine suggests.
-/

namespace Multiview

open Outcome

namespace SimulatedEngine

/-- The frames of a stream, as its header describes them. -/
def frameInfo (traits : SimulatedTraits) (coded : Resolution) : FrameInfo where
  fourcc := .nv12
  width := coded.width
  height := coded.height
  cropWidth := traits.display.width
  cropHeight := traits.display.height
  aspectWidth := 1
  aspectHeight := 1
  rateNumerator := 24000
  rateDenominator := 1001

/-- A stream with the parameter sets of two views. -/
def BringsStereo (input : Bytes) : Prop :=
  ((startCodeUnits input).map (·.header.type)).contains .subsetSps = true ∧
    ((startCodeUnits input).map (·.header.type)).contains .pps = true

/-- The description of a sequence with two views, before its tables are filled in. -/
def countViews (d : SequenceDesc) : SequenceDesc :=
  { d with viewCount := 2, viewIdCount := 2, pointCount := 1 }

variable {input : Bytes} {params : VideoParams} {e : SimulatedEngine} {coded : Resolution}

theorem readHeader_small (h : BringsStereo input) (e : SimulatedEngine)
    (hroom : (countViews params.sequence).hasRoom = false) :
    readHeader input params e = .ok (.notEnoughBuffer,
      { params with sequence := countViews params.sequence },
      { e with headerProbes := e.headerProbes + 1 }) := by
  obtain ⟨hsub, hpps⟩ := h
  unfold readHeader
  simp only [hsub, hpps, Bool.or_true, Bool.not_true, Bool.or_self, Bool.false_eq_true, ↓reduceIte]
  exact if_pos (congrArg Bool.not hroom)

theorem readHeader_room (h : BringsStereo input)
    (hroom : (countViews params.sequence).hasRoom = true)
    (hcoded : e.traits.codedResolution = .ok coded) :
    readHeader input params e = .ok (.ok,
      { params with
        info := frameInfo e.traits coded
        sequence := describeViews 2 (countViews params.sequence) },
      { e with headerProbes := e.headerProbes + 1 }) := by
  obtain ⟨hsub, hpps⟩ := h
  have htwo : (2 : UInt16).toNat = 2 := by decide
  unfold readHeader
  simp only [hsub, hpps, Bool.or_true, Bool.not_true, Bool.or_self, Bool.false_eq_true, ↓reduceIte]
  generalize e.traits.codedResolution = r at hcoded ⊢
  subst hcoded
  refine (if_neg ?_).trans ?_
  · rw [Bool.not_eq_true]
    exact congrArg Bool.not hroom
  · rw [htwo]
    rfl

end SimulatedEngine

namespace Session

open SimulatedEngine

variable {s t : Session SimulatedEngine} {pool : PoolId} {coded : Resolution}

/-- The tables of an empty description have no room for two views, so that the header is read twice. -/
theorem probeHeader_stereo (h : BringsStereo s.buffer) (hs : s.params.sequence = {})
    (hcoded : s.engine.traits.codedResolution = .ok coded) :
    Returns s.probeHeader fun x => x.1 = .ok ∧
      x.2.params.info = frameInfo s.engine.traits coded ∧ x.2.params.sequence.viewCount = 2 ∧
      ∃ probes, x.2.engine = { s.engine with headerProbes := probes } := by
  have hsmall : (countViews s.params.sequence).hasRoom = false := by
    rw [hs]
    rfl
  have hfirst : DecodeEngine.readHeader s.buffer s.params s.engine = _ :=
    readHeader_small h s.engine hsmall
  have hask : ∃ t, s.askReadHeader = .ok (.notEnoughBuffer, t) ∧ t.buffer = s.buffer ∧
      t.params.sequence = countViews s.params.sequence ∧
      t.engine = { s.engine with headerProbes := s.engine.headerProbes + 1 } := by
    unfold askReadHeader
    rw [hfirst]
    exact ⟨_, rfl, rfl, rfl, rfl⟩
  obtain ⟨t, ht, hbuffer, hseq, hengine⟩ := hask
  have hroom : (countViews t.params.sequence.allocate).hasRoom = true := by
    rw [hseq]
    exact (countViews s.params.sequence).hasRoom_allocate
  have hcoded' : t.engine.traits.codedResolution = .ok coded := by
    rw [hengine]
    exact hcoded
  have hsecond : DecodeEngine.readHeader t.buffer
      { t.params with sequence := t.params.sequence.allocate } t.engine = _ :=
    readHeader_room (hbuffer ▸ h) hroom hcoded'
  unfold probeHeader
  rw [ht]
  simp only [bind, Except.bind, ↓reduceIte]
  unfold askReadHeader
  dsimp only
  rw [hsecond]
  refine .ok ⟨rfl, ?_, rfl, s.engine.headerProbes + 1 + 1, ?_⟩
  · rw [hengine]
    rfl
  · rw [hengine]
    rfl

theorem supplyFrames_returns (pool : PoolId) (request : Request) (memory : MemoryKind)
    (h : Returns ((MixedAllocator.empty.init
        (textureSettings s.config s.pools.platform.device memory)).allocate
          { request with
            suggested := poolSize request.suggested s.params.asyncDepth s.clientSurfaces memory }
          s.pools.platform) fun x => ∃ response, x.1 = .ok response) :
    Returns (s.supplyFrames pool request memory) fun x => x.1 = .ok () ∧
      ∃ response a platform, x.2 = s.equipped pool s.params.info memory response a platform ∧
        response.mids.length =
          (poolSize request.suggested s.params.asyncDepth s.clientSurfaces memory).toNat := by
  obtain ⟨⟨answer, a, platform⟩, ha, response, hresponse⟩ := h
  dsimp only at hresponse
  subst hresponse
  have hcount := ((MixedAllocator.allocate_sound _ _ _).result ha response rfl).1.length
  have hsupply : s.pools.supply pool s.params.info memory
      (textureSettings s.config s.pools.platform.device memory) { request with
        suggested := poolSize request.suggested s.params.asyncDepth s.clientSurfaces memory } =
      .ok (.ok (s.pools.resources.allocators.length, response),
        s.pools.supplied pool s.params.info memory response a platform) := by
    unfold Pools.supply
    rw [ha]
    rfl
  have hframes : s.supplyFrames pool request memory =
      .ok (.ok (), s.equipped pool s.params.info memory response a platform) := by
    unfold supplyFrames
    cases memory with
    | system =>
      have hsupply : s.pools.supply pool s.params.info .system none _ = _ := hsupply
      dsimp only
      rw [hsupply]
      rfl
    | video =>
      have hsupply : s.pools.supply pool s.params.info .video
        (s.pools.platform.device.map fun _ => ⟨s.config.singleTexture⟩) _ = _ := hsupply
      dsimp only
      rw [hsupply]
      rfl
  exact ⟨_, hframes, rfl, response, a, platform, rfl, hcount⟩

/-- The frames that a session asks for to decode a stereo stream. -/
def poolRequest (traits : SimulatedTraits) (config : SessionConfig) (clientSurfaces : UInt16)
    (coded : Resolution) (memory : MemoryKind) : Request :=
  { frameRequest traits (frameInfo traits coded) memory with
    suggested := poolSize traits.suggested config.asyncDepth clientSurfaces memory }

/-- The frames of a stereo stream can be allocated, whatever was done on the platform before. -/
def CanAllocate (traits : SimulatedTraits) (config : SessionConfig) (platform : Platform)
    (clientSurfaces : UInt16) (coded : Resolution) : Prop :=
  ∀ journal, Returns ((MixedAllocator.empty.init
      (textureSettings config platform.device (frameMemory traits platform.device))).allocate
        (poolRequest traits config clientSurfaces coded (frameMemory traits platform.device))
        { platform with journal := journal }) fun x => ∃ response, x.1 = .ok response

/-- The pool got `n` surfaces or more, and the engine their allocator. -/
structure Equipped (pool : PoolId) (n : Nat) (s t : Session SimulatedEngine) : Prop where
  rest : ∃ engine params memory pools, t = { s with
    engine := engine, params := params, memory := memory, pools := pools }
  engine : ∃ allocator, t.engine = { s.engine with allocator := some allocator }
  sequence : t.params.sequence = s.params.sequence
  pictures : t.pools.pictures = s.pools.pictures
  surfaces : n ≤ (t.pools.pool pool).surfaces.length

theorem allocateFrames_stereo (hp : pool < s.pools.pools.length)
    (hinfo : s.params.info = frameInfo s.engine.traits coded)
    (hdepth : s.engine.traits.implementation = .hardware →
      s.config.asyncDepth ≤ s.engine.traits.suggested)
    (halloc : CanAllocate s.engine.traits s.config s.pools.platform s.clientSurfaces coded) :
    Returns (s.allocateFrames pool) fun x => x.1 = .ok () ∧ ∃ memory,
      Equipped pool (poolSize s.engine.traits.suggested s.config.asyncDepth s.clientSurfaces
        memory).toNat s x.2 := by
  obtain ⟨t, memory, hmemory, hneg, hengine, hasync, hkeep⟩ := negotiate_settles s
  obtain ⟨htalked, hsequence⟩ := talked_negotiate s
  rw [hneg] at htalked hsequence
  dsimp only at htalked hsequence
  obtain ⟨hconfig, hsurfaces, hpool⟩ : t.config = s.config ∧ t.clientSurfaces = s.clientSurfaces ∧
      pool < t.pools.pools.length := by
    rw [htalked.rest]
    exact ⟨rfl, rfl, hp⟩
  have henough : ¬ (t.isHardware = true ∧
      (frameRequest s.engine.traits s.params.info memory).suggested < t.params.asyncDepth) := by
    rintro ⟨hhard, hlt⟩
    have hhard : (t.engine.traits.implementation == .hardware) = true := hhard
    rw [hengine, beq_iff_eq] at hhard
    rw [hasync] at hlt
    exact absurd (hdepth hhard) (UInt16.not_le.mpr hlt)
  have hdevice : t.pools.platform.device = s.pools.platform.device := by
    rw [htalked.platform]
  obtain ⟨⟨answer, u⟩, hu, hanswer, response, a, platform, hequipped, hcount⟩ :=
    supplyFrames_returns (s := t) pool (frameRequest s.engine.traits s.params.info memory) memory (by
        rw [hconfig, hasync, hsurfaces, hdevice, htalked.platform, hmemory, hinfo]
        exact halloc _)
  dsimp only at hanswer hequipped
  subst hanswer
  have hallocate : s.allocateFrames pool = .ok (.ok (), u) := by
    unfold allocateFrames
    rw [hneg]
    dsimp only
    rw [if_neg henough]
    exact hu
  have hnew := congrArg List.length
    (Pools.mids_newSurfaces t.params.info response.mids t.pools)
  rw [List.length_map, hcount, hasync, hsurfaces] at hnew
  refine ⟨_, hallocate, rfl, memory, ?_, ?_, ?_, ?_, ?_⟩
  · exact ⟨u.engine, u.params, u.memory, u.pools, by rw [hequipped, htalked.rest]; rfl⟩
  · exact ⟨t.pools.resources.allocators.length, by rw [hequipped, ← hengine]; rfl⟩
  · rw [hequipped]
    exact hsequence
  · rw [hequipped, htalked.rest]
    rfl
  · have hpool' : u.pools.pool pool =
        (t.pools.supplied pool t.params.info memory response a platform).pool pool := by
      rw [hequipped]
      rfl
    rw [hpool', Pools.pool_supplied hpool, if_pos rfl, List.length_append, hnew]
    exact Nat.le_add_left _ _

/-- The engine was started on a pool with `n` surfaces or more. -/
structure Started (pool : PoolId) (n : Nat) (s t : Session SimulatedEngine) : Prop where
  rest : ∃ engine params memory pools, t = { s with
    engine := engine, params := params, memory := memory, pools := pools
    engineReady := true, phase := .ready }
  engine : ∃ inits params allocator, t.engine = { s.engine with
    inits := inits, params := some params, allocator := some allocator }
  pictures : t.pools.pictures = s.pools.pictures
  surfaces : n ≤ (t.pools.pool pool).surfaces.length

theorem startEngine_stereo (hp : pool < s.pools.pools.length)
    (hinfo : s.params.info = frameInfo s.engine.traits coded)
    (hviews : s.params.sequence.viewCount = 2)
    (hdepth : s.engine.traits.implementation = .hardware →
      s.config.asyncDepth ≤ s.engine.traits.suggested)
    (halloc : CanAllocate s.engine.traits s.config s.pools.platform s.clientSurfaces coded) :
    Returns (s.startEngine pool) fun x => x.1 = .ok () ∧ ∃ memory,
      Started pool (poolSize s.engine.traits.suggested s.config.asyncDepth s.clientSurfaces
        memory).toNat s x.2 := by
  obtain ⟨⟨answer, u⟩, hu, hanswer, memory, hequipped⟩ :=
    allocateFrames_stereo hp hinfo hdepth halloc
  dsimp only at hanswer hequipped
  subst hanswer
  have hviews' : u.params.sequence.viewCount = 2 := by
    rw [hequipped.sequence]
    exact hviews
  obtain ⟨v, hinit, hparams, hinits, hrest, hpools, hpictures⟩ : ∃ v, u.askInit = (.ok, v) ∧
      v.params = u.params ∧
      v.engine = { u.engine with inits := u.engine.inits + 1, params := some u.params } ∧
      v = { u with engine := v.engine, pools := v.pools } ∧ v.pools.pools = u.pools.pools ∧
      v.pools.pictures = u.pools.pictures :=
    ⟨_, askInit_eq (by rw [hviews']; decide), rfl, rfl, rfl, rfl, rfl⟩
  obtain ⟨allocator, hallocator⟩ := hequipped.engine
  obtain ⟨_, params, _, _, hkeep⟩ := hequipped.rest
  have hpool : v.pools.pool pool = u.pools.pool pool := by
    rw [Pools.pool, hpools, Pools.pool]
  unfold startEngine
  rw [hu]
  simp only [bind, Except.bind, hinit, EngineStatus.check_ok]
  rw [if_neg (by rw [hparams]; exact not_not_intro hviews')]
  refine .ok ⟨rfl, memory, ?_, ⟨_, _, _, by dsimp only; rw [hinits, hallocator]⟩,
    hpictures.trans hequipped.pictures, ?_⟩
  · refine ⟨v.engine, v.params, v.memory, v.pools, ?_⟩
    rw [hrest, hkeep]
  · change _ ≤ (v.pools.pool pool).surfaces.length
    rw [hpool]
    exact hequipped.surfaces

theorem toNat_addCounts (a b : UInt16) :
    (addCounts a b).toNat = min (a.toNat + b.toNat) 65535 := by
  unfold addCounts
  refine UInt16.toNat_ofNat_of_lt' ?_
  have hsize : UInt16.size = 65536 := rfl
  omega

/-- A pool has room for all surfaces that can be asked for, as far as their number can be told. -/
theorem min_le_poolSize (suggested asyncDepth clientSurfaces : UInt16) (memory : MemoryKind) :
    min (suggested.toNat + asyncDepth.toNat + 4) 65535 ≤
      (poolSize suggested asyncDepth clientSurfaces memory).toNat := by
  have hfour : (4 : UInt16).toNat = 4 := by decide
  unfold poolSize
  cases memory with
  | system =>
    dsimp only
    rw [toNat_addCounts, toNat_addCounts, hfour]
    omega
  | video =>
    dsimp only
    rw [toNat_addCounts, toNat_addCounts, toNat_addCounts, hfour]
    omega

theorem le_poolSize {suggested asyncDepth : UInt16}
    (h : suggested.toNat + asyncDepth.toNat + 4 ≤ 65535) (clientSurfaces : UInt16)
    (memory : MemoryKind) : suggested.toNat + asyncDepth.toNat + 4 ≤
      (poolSize suggested asyncDepth clientSurfaces memory).toNat :=
  Nat.le_trans (Nat.le_min.mpr ⟨Nat.le_refl _, h⟩) (min_le_poolSize _ _ _ _)

/-- A session that was opened with a new engine, before the first packet. -/
structure Unused (pool : PoolId) (s : Session SimulatedEngine) : Prop where
  phase : s.phase = .opened
  engineReady : s.engineReady = false
  current : s.current = some pool
  frames : (s.pools.pool pool).frames = none
  sequence : s.params.sequence = {}
  busy : s.engine.busy = .calls 0
  injected : s.engine.injected = []
  nextOrder : s.engine.nextOrder = 0

/-- A session that has just started waits for the first picture of the stream. -/
theorem Unused.streaming (h : Unused pool s) (hin : InStep s) (ht : InStep t)
    (hrest : ∃ engine params memory pools, t = { s with
      engine := engine, params := params, memory := memory, pools := pools
      engineReady := true, phase := .ready })
    (he : t.engine.Attentive) (hn : t.engine.nextOrder = 0)
    (hroom : s.config.asyncDepth.toNat + 4 ≤ (t.pools.pool pool).surfaces.length) :
    Streaming pool 0 0 t := by
  obtain ⟨_, _, _, _, hrest⟩ := hrest
  have hqueues : t.queues = {} := by
    rw [hrest]
    exact (hin.bare pool h.current h.frames).1
  refine ⟨⟨ht, ?_, ?_⟩, ?_, Nat.zero_le _, ?_, he, congrArg UInt32.toNat hn⟩
  · rw [hrest]
  · rw [hrest]
    exact h.current
  · rw [hqueues]
    exact .nil 0
  · have hsame : t.config = s.config := by
      rw [hrest]
    rw [hsame]
    exact hroom

/-- With the parameter sets of the first packet the session gets ready for a stereo stream. -/
theorem setUp_stereo (hin : InStep s) (hs : Unused pool s) (hheader : BringsStereo s.buffer)
    (hcoded : s.engine.traits.codedResolution = .ok coded)
    (hdepth : s.engine.traits.implementation = .hardware →
      s.config.asyncDepth ≤ s.engine.traits.suggested)
    (hfit : s.engine.traits.suggested.toNat + s.config.asyncDepth.toNat + 4 ≤ 65535)
    (halloc : CanAllocate s.engine.traits s.config s.pools.platform s.clientSurfaces coded) :
    Returns s.setUp fun x => x.1 = .ok true ∧ Streaming pool 0 0 x.2 ∧
      x.2.pools.pictures = s.pools.pictures ∧ ∃ engine params memory pools, x.2 = { s with
        engine := engine, params := params, memory := memory, pools := pools
        engineReady := true, phase := .ready } := by
  have hretire : s.retire = s := by
    unfold retire
    rw [hs.current, Option.any_some, hs.frames, hs.engineReady]
    rfl
  obtain ⟨⟨status, t⟩, ht, ⟨rfl, hinfo, hviews, probes, hengine⟩, htalked, -⟩ :=
    (probeHeader_stereo hheader hs.sequence hcoded).and (talked_probeHeader s)
  dsimp only at hinfo hviews hengine htalked
  obtain ⟨hconfig, hsurfaces, hpools, hpictures⟩ : t.config = s.config ∧
      t.clientSurfaces = s.clientSurfaces ∧ t.pools.pools = s.pools.pools ∧
      t.pools.pictures = s.pools.pictures := by
    rw [htalked.rest]
    exact ⟨rfl, rfl, rfl, rfl⟩
  have htraits : t.engine.traits = s.engine.traits := by
    rw [hengine]
  have hpresent : pool < t.pools.pools.length := by
    rw [hpools]
    exact (hin.present pool hs.current).1
  have hinfo : t.params.info = SimulatedEngine.frameInfo t.engine.traits coded := by
    rw [htraits]
    exact hinfo
  obtain ⟨⟨answer, u⟩, hu, hanswer, memory, hstarted⟩ := startEngine_stereo hpresent hinfo hviews
    (by rw [htraits, hconfig]; exact hdepth)
    (by rw [htraits, hconfig, hsurfaces, htalked.platform]; exact halloc)
  dsimp only at hanswer hstarted
  subst hanswer
  have hsetUp : s.setUp = .ok (.ok true, u) := by
    unfold setUp
    dsimp only
    rw [hretire, hs.current]
    dsimp only
    rw [ht]
    simp only [bind, Except.bind, reduceCtorEq, ↓reduceIte, EngineStatus.check_ok, hu]
    rfl
  have hphase : s.phase ≠ .ready := by
    rw [hs.phase]
    decide
  obtain ⟨hprep, hready⟩ := (setUp_sound hin hphase).result hsetUp
  have hrest : ∃ engine params memory pools, u = { s with
      engine := engine, params := params, memory := memory, pools := pools
      engineReady := true, phase := .ready } := by
    obtain ⟨engine, params, memory, pools, hrest⟩ := hstarted.rest
    refine ⟨engine, params, memory, pools, ?_⟩
    rw [hrest, htalked.rest]
  refine ⟨_, hsetUp, rfl, ?_, hstarted.pictures.trans hpictures, hrest⟩
  obtain ⟨inits, started, allocator, hstart⟩ := hstarted.engine
  have hclean : u.engine.Attentive ∧ u.engine.nextOrder = 0 := by
    rw [hstart, hengine]
    exact ⟨⟨hs.busy, hs.injected, rfl⟩, hs.nextOrder⟩
  have hroom := hstarted.surfaces
  rw [htraits, hconfig] at hroom
  have hle := le_poolSize hfit t.clientSurfaces memory
  refine hs.streaming hin (hprep.inStep hin) hrest hclean.1 hclean.2 ?_
  change _ ≤ (u.pools.pool pool).surfaces.length
  omega

/-- The session of a new client after a stream without extradata was opened. -/
def opened (traits : SimulatedTraits) (config : SessionConfig) (device : Option TextureDevice)
    (memory : HostMemory) (options : Options) (mode : StereoMode) : Session SimulatedEngine :=
  { (Client.start traits config device memory).session.restart options with stereoMode := mode }

theorem open_start (traits : SimulatedTraits) (config : SessionConfig)
    (device : Option TextureDevice) (memory : HostMemory) {hints : StreamHints} (options : Options)
    (hcodec : hints.codec = .h264 ∨ hints.codec = .h264Mvc) (htag : hints.tag = .amvc)
    (hextra : hints.extradata = []) :
    (Client.start traits config device memory).session.open hints options =
      .ok (.ok (), { hints with stereoMode := (StereoMode.ofHint hints.stereoMode).text },
        opened traits config device memory options (StereoMode.ofHint hints.stereoMode)) := by
  have hheader : headerOf hints = .ok none := by
    unfold headerOf
    rw [htag]
    rfl
  have htry : (Client.start traits config device memory).session.tryOpen hints options =
      .ok (.ok (), (Client.start traits config device memory).session.restart options) := by
    unfold tryOpen
    rw [if_neg nofun, if_neg, if_neg, hheader]
    · dsimp only
      rw [hextra]
      rfl
    · rw [htag]
      decide
    · rcases hcodec with hc | hc
      · exact fun h => h.1 hc
      · exact fun h => h.2 hc
  unfold «open»
  rw [htry]
  rfl

theorem unused_opened (traits : SimulatedTraits) (config : SessionConfig)
    (device : Option TextureDevice) (memory : HostMemory) (options : Options) (mode : StereoMode) :
    Unused 0 (opened traits config device memory options mode) :=
  ⟨rfl, rfl, rfl, rfl, rfl, rfl, rfl, rfl⟩

end Session

end Multiview
