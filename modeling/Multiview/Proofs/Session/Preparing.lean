import Multiview.Proofs.Session.Lifecycle

/-!
Setting up the engine in steps. Talking about parameters and headers changes nothing but the engine's
counters; then the pool is equipped with frames and the engine is started on them.
-/

namespace Multiview

open Outcome Relation

namespace Session

variable {s t u : Session SimulatedEngine}

theorem Aside.trans (h : Aside s t) (h' : Aside t u) : Aside s u where
  engine := h.engine.trans h'.engine
  engineReady := h'.engineReady.trans h.engineReady
  current := h'.current.trans h.current
  queues := h'.queues.trans h.queues
  pictures := h'.pictures.trans h.pictures
  pools := h'.pools.trans h.pools
  table := h'.table.trans h.table
  resources := h'.resources.trans h.resources
  journal := by
    obtain ⟨events, hj, hq⟩ := h.journal
    obtain ⟨events', hj', hq'⟩ := h'.journal
    refine ⟨events' ++ events, by rw [hj', hj, List.append_assoc], fun e he => ?_⟩
    rcases List.mem_append.mp he with he | he
    · exact hq' e he
    · exact hq e he
  textures := h.textures.trans h'.textures
  ready := h'.ready

/-- A call to the engine that is neither about surfaces nor a successful start. -/
theorem aside_record {e : SimulatedEngine} (he : s.engine.Alike e) (params : VideoParams)
    (call : EngineCall) (hr : s.phase = .ready → s.engineReady = true)
    (ho : (Event.engine call).output? = none) (hs : (Event.engine call).starts = false) :
    Aside s ({ s with engine := e, params := params }.record call) :=
  ⟨he, rfl, rfl, rfl, rfl, rfl, rfl, rfl, ⟨[.engine call], rfl, by simp [ho, hs]⟩,
    Platform.gains_engine call s.pools.platform, hr⟩

theorem aside_params (hr : s.phase = .ready → s.engineReady = true) (params : VideoParams) :
    Aside s { s with params := params } :=
  .edit hr

theorem aside_askQuery (hr : s.phase = .ready → s.engineReady = true) : Aside s s.askQuery.2 :=
  aside_record (SimulatedEngine.query_alike s.params s.engine) _ _ hr rfl rfl

theorem aside_askRequireFrames (hr : s.phase = .ready → s.engineReady = true) :
    Aside s s.askRequireFrames.2 :=
  aside_record (.refl _) s.params _ hr rfl rfl

/-- A start that failed. -/
theorem aside_askInit (hr : s.phase = .ready → s.engineReady = true)
    (h : s.askInit.1.isError = true) : Aside s s.askInit.2 := by
  refine aside_record (SimulatedEngine.init_alike s.params s.engine) s.params
    (.init s.params s.askInit.1) hr rfl ?_
  rw [Event.starts, h]
  rfl

theorem askReadHeader_sound (hr : s.phase = .ready → s.engineReady = true) :
    Sound s.askReadHeader fun x => Aside s x.2 :=
  (SimulatedEngine.readHeader_sound s.buffer s.params s.engine).bind fun _ ha =>
    .pure (aside_record ha _ _ hr rfl rfl)

theorem probeHeader_sound (hr : s.phase = .ready → s.engineReady = true) :
    Sound s.probeHeader fun x => Aside s x.2 := by
  unfold probeHeader
  refine (askReadHeader_sound hr).bind ?_
  rintro ⟨status, t⟩ ht
  dsimp only
  split
  · have hedit := aside_params ht.ready { t.params with sequence := t.params.sequence.allocate }
    exact (askReadHeader_sound hedit.ready).mono fun x hx => (ht.trans hedit).trans hx
  · exact .pure ht

/-- Negotiating only asks for queries and frames, and changes memory and depth in the parameters. -/
theorem negotiate_keeps {q : Session SimulatedEngine → Prop}
    (hparams : ∀ (u : Session SimulatedEngine) (memory : MemoryKind) (asyncDepth : UInt16), q u →
      q { u with params := { u.params with memory := memory, asyncDepth := asyncDepth } })
    (hquery : ∀ u, q u → q u.askQuery.2) (hrequire : ∀ u, q u → q u.askRequireFrames.2)
    (hs : q s) : q s.negotiate.2 := by
  unfold negotiate
  dsimp only
  generalize (if (s.isHardware && s.pools.platform.device.isSome) = true then MemoryKind.video
    else MemoryKind.system) = wanted
  have h₁ := hquery _ (hparams s wanted s.config.asyncDepth hs)
  generalize askQuery (σ := SimulatedEngine) _ = asked at h₁ ⊢
  split
  · exact h₁
  · generalize hsettled : (if asked.1 = .partialAcceleration then
      (MemoryKind.system, { asked.2 with params := { asked.2.params with memory := .system } })
      else (wanted, asked.2)) = settled
    have h₂ : q settled.2 := by
      rw [← hsettled]
      split
      · exact hparams asked.2 .system asked.2.params.asyncDepth h₁
      · exact h₁
    have h₃ := hrequire _ h₂
    split
    · rename_i heq
      rw [heq] at h₃
      exact h₃
    · rename_i refusal u heq
      rw [heq] at h₃
      split
      · have h₄ := hquery _ (hparams u .system u.params.asyncDepth h₃)
        generalize askQuery (σ := SimulatedEngine) _ = asked' at h₄ ⊢
        split
        · exact h₄
        · have h₅ := hrequire _ h₄
          split
          · rename_i heq'
            rw [heq'] at h₅
            exact h₅
          · rename_i heq'
            rw [heq'] at h₅
            exact h₅
      · exact h₃

theorem aside_negotiate (hr : s.phase = .ready → s.engineReady = true) :
    Aside s s.negotiate.2 :=
  negotiate_keeps (q := Aside s) (fun _ _ _ hu => hu.trans (aside_params hu.ready _))
    (fun _ hu => hu.trans (aside_askQuery hu.ready))
    (fun _ hu => hu.trans (aside_askRequireFrames hu.ready)) (.edit hr)

/-! ## Memory -/

/-- The memory that session and engine agree on: video memory if there is a device for a hardware engine
that supports it in full. -/
def frameMemory (traits : SimulatedTraits) (device : Option TextureDevice) : MemoryKind :=
  if traits.implementation == .hardware && device.isSome && !traits.partialAcceleration then .video
  else .system

/-- The frames that the engine asks for. -/
def frameRequest (traits : SimulatedTraits) (info : FrameInfo) (memory : MemoryKind) : Request where
  info := info
  memType := match memory with
    | .system => .union .systemMemory (.union .externalFrame .fromDecode)
    | .video => .union .decoderTarget (.union .externalFrame .fromDecode)
  minimum := traits.suggested
  suggested := traits.suggested

theorem askQuery_ok (h : (s.engine.traits.partialAcceleration && s.params.memory == .video) = false) :
    ∃ t, s.askQuery = (.ok, t) ∧ t.engine = s.engine ∧ t.params = s.params := by
  have hquery : DecodeEngine.query s.params s.engine = (.ok, s.params, s.engine) :=
    if_neg (Bool.eq_false_iff.mp h)
  unfold askQuery
  rw [hquery]
  exact ⟨_, rfl, rfl, rfl⟩

theorem askQuery_partial
    (h : (s.engine.traits.partialAcceleration && s.params.memory == .video) = true) :
    ∃ t, s.askQuery = (.partialAcceleration, t) ∧ t.engine = s.engine ∧
      t.params = { s.params with memory := .system } := by
  have hquery : DecodeEngine.query s.params s.engine =
      (.partialAcceleration, { s.params with memory := .system }, s.engine) := if_pos h
  unfold askQuery
  rw [hquery]
  exact ⟨_, rfl, rfl, rfl⟩

theorem askRequireFrames_ok (s : Session SimulatedEngine) :
    ∃ t, s.askRequireFrames =
        (.ok (frameRequest s.engine.traits s.params.info s.params.memory), t) ∧
      t.engine = s.engine ∧ t.params = s.params := by
  have hrequire : DecodeEngine.requireFrames s.params s.engine =
      (.ok (frameRequest s.engine.traits s.params.info s.params.memory), s.engine) := by
    cases h : s.params.memory <;>
      simp only [DecodeEngine.requireFrames, SimulatedEngine.requireFrames, frameRequest, h]
  unfold askRequireFrames
  rw [hrequire]
  exact ⟨_, rfl, rfl, rfl⟩

theorem negotiate_settles (s : Session SimulatedEngine) :
    ∃ t memory, memory = frameMemory s.engine.traits s.pools.platform.device ∧
      s.negotiate = (.ok (frameRequest s.engine.traits s.params.info memory, memory), t) ∧
      t.engine = s.engine ∧ t.params.asyncDepth = s.config.asyncDepth ∧
      t.params.info = s.params.info := by
  have hhard : s.isHardware = (s.engine.traits.implementation == .hardware) := rfl
  unfold negotiate frameMemory
  rw [hhard]
  generalize (s.engine.traits.implementation == .hardware && s.pools.platform.device.isSome) = video
  generalize hwanted : (if video = true then MemoryKind.video else .system) = wanted
  dsimp only
  generalize hu : ({ s with params := { s.params with
    memory := wanted, asyncDepth := s.config.asyncDepth } } : Session SimulatedEngine) = u
  obtain ⟨hengine, hmemory, hdepth, hinfo⟩ : u.engine = s.engine ∧ u.params.memory = wanted ∧
      u.params.asyncDepth = s.config.asyncDepth ∧ u.params.info = s.params.info := by
    rw [← hu]
    exact ⟨rfl, rfl, rfl, rfl⟩
  cases hpartial : u.engine.traits.partialAcceleration && u.params.memory == .video with
  | false =>
    obtain ⟨t, ht, hte, htp⟩ := askQuery_ok hpartial
    obtain ⟨v, hv, hve, hvp⟩ := askRequireFrames_ok t
    refine ⟨v, wanted, ?_, ?_, ?_, ?_, ?_⟩
    · rw [hengine, hmemory, ← hwanted] at hpartial
      rw [← hwanted]
      cases video with
      | false => rfl
      | true =>
        have hfull : s.engine.traits.partialAcceleration = false := by simpa using hpartial
        rw [hfull]
        rfl
    · rw [ht]
      simp only [EngineStatus.check_ok, ↓reduceIte, reduceCtorEq, hv]
      rw [htp, hte, hengine, hmemory, hinfo]
    · rw [hve, hte, hengine]
    · rw [hvp, htp, hdepth]
    · rw [hvp, htp, hinfo]
  | true =>
    obtain ⟨t, ht, hte, htp⟩ := askQuery_partial hpartial
    obtain ⟨v, hv, hve, hvp⟩ :=
      askRequireFrames_ok { t with params := { t.params with memory := .system } }
    refine ⟨v, .system, ?_, ?_, ?_, ?_, ?_⟩
    · rw [hengine] at hpartial
      rw [(Bool.and_eq_true_iff.mp hpartial).1, Bool.not_true, Bool.and_false]
      rfl
    · rw [ht]
      simp only [EngineStatus.check_partialAcceleration, ↓reduceIte, hv]
      rw [htp, hte, hengine, hinfo]
    · rw [hve]
      exact hte.trans hengine
    · rw [hvp, htp]
      exact hdepth
    · rw [hvp, htp]
      exact hinfo

/-- Textures are set up for frames in video memory. -/
def textureSettings (config : SessionConfig) (device : Option TextureDevice) :
    MemoryKind → Option TextureSettings
  | .system => none
  | .video => device.map fun _ => ⟨config.singleTexture⟩

theorem device_negotiate (s : Session SimulatedEngine) :
    s.negotiate.2.pools.platform.device = s.pools.platform.device :=
  negotiate_keeps (q := fun u => u.pools.platform.device = s.pools.platform.device)
    (fun _ _ _ h => h) (fun _ h => h) (fun _ h => h) rfl

theorem intersects_frameRequest (traits : SimulatedTraits) (info : FrameInfo)
    (memory : MemoryKind) :
    (frameRequest traits info memory).memType.intersects .videoMemory = (memory == .video) := by
  cases memory with
  | system =>
    change (MemType.union .systemMemory (.union .externalFrame .fromDecode)).intersects _ = _
    decide
  | video =>
    change (MemType.union .decoderTarget (.union .externalFrame .fromDecode)).intersects _ = _
    decide

/-- The frames that are agreed on are in the memory that is agreed on. -/
theorem suited_negotiate {request : Request} {memory : MemoryKind}
    (h : s.negotiate = (.ok (request, memory), t)) :
    Suited memory (textureSettings t.config t.pools.platform.device memory) request := by
  have hdevice := device_negotiate s
  obtain ⟨u, memory', hmemory, hneg, _⟩ := negotiate_settles s
  rw [h] at hdevice hneg
  obtain ⟨hanswer, rfl⟩ := Prod.mk.inj hneg
  obtain ⟨rfl, rfl⟩ := Prod.mk.inj (Except.ok.inj hanswer)
  refine ⟨?_, intersects_frameRequest s.engine.traits s.params.info memory⟩
  cases memory with
  | system => rfl
  | video =>
    have hsome : s.pools.platform.device.isSome = true := by
      unfold frameMemory at hmemory
      split at hmemory
      · rename_i hall
        exact (Bool.and_eq_true_iff.mp (Bool.and_eq_true_iff.mp hall).1).2
      · cases hmemory
    rw [textureSettings, Option.isSome_map, hdevice, hsome]
    rfl

/-- The pool is equipped, or nothing is done to surfaces and pools. -/
theorem supplyFrames_sound (hs : InStep s) (he : s.engineReady = false) {pool : PoolId}
    (hc : s.current = some pool) (hf : (s.pools.pool pool).frames = none) {request : Request}
    {memory : MemoryKind}
    (hsuited : Suited memory (textureSettings s.config s.pools.platform.device memory) request) :
    Sound (s.supplyFrames pool request memory) fun x => Moves s x.2 ∧
      ∀ u, x.1 = .ok u → x.2.current = some pool ∧ x.2.queues = {} ∧
        ∃ frames, (x.2.pools.pool pool).frames = some frames ∧
          x.2.engine.allocator = some frames.allocator := by
  unfold supplyFrames
  dsimp only
  have hserved : ∀ {settings : Option TextureSettings},
      settings = textureSettings s.config s.pools.platform.device memory →
      Suited memory settings { request with
        suggested := poolSize request.suggested s.params.asyncDepth s.clientSurfaces memory } := by
    rintro settings rfl
    exact ⟨hsuited.settings, hsuited.request⟩
  refine (Pools.supply_sound pool s.params.info memory _ _ s.pools).bind ?_
  rintro ⟨answer, pools⟩ hx
  cases answer with
  | error e =>
    obtain ⟨platform, ⟨calls, hg⟩, rfl, hgains⟩ := hx
    refine .pure ⟨Aside.moves ?_, fun u hu => by cases hu⟩
    refine ⟨.refl _, rfl, rfl, rfl, rfl, rfl, rfl, rfl, ⟨_, hg, fun e he => ?_⟩,
      hgains (hserved (by cases memory <;> rfl)), hs.ready⟩
    obtain ⟨call, _, rfl⟩ := List.mem_map.mp he
    exact ⟨rfl, rfl⟩
  | ok answer =>
    obtain ⟨allocator, response⟩ := answer
    obtain ⟨a, platform, hg, rfl, rfl, hn, hm, hf'⟩ := hx
    obtain ⟨hfurnished, hgains⟩ := hf' (hserved (by cases memory <;> rfl))
    have hmaps : memory = .system → ∀ mid ∈ response.mids, Views.Maps (fun m => a.view m) mid :=
      fun h => hm (by rw [h])
    have hequip := Move.equip s.params.info a he hc hf hn hmaps hg hfurnished hgains
    have hpool := (Pools.pool_supplied (hs.present pool hc).1 s.params.info memory response a
      platform pool).trans (if_pos rfl)
    have hframes : (((s.equipped pool s.params.info memory response a platform).pools.pool
        pool).frames) = some ⟨s.pools.resources.allocators.length, response, memory⟩ := by
      refine (congrArg Pool.frames hpool).trans ?_
      rw [hf]
      rfl
    dsimp only
    split
    · exact .pure ⟨.single hequip, fun u hu => by cases hu⟩
    · exact .pure ⟨.single hequip, fun _ _ => ⟨hc, (hs.bare pool hc hf).1, _, hframes, rfl⟩⟩

theorem allocateFrames_sound (hs : InStep s) (he : s.engineReady = false) {pool : PoolId}
    (hc : s.current = some pool) (hf : (s.pools.pool pool).frames = none) :
    Sound (s.allocateFrames pool) fun x => Moves s x.2 ∧
      ∀ u, x.1 = .ok u → x.2.current = some pool ∧ x.2.queues = {} ∧
        ∃ frames, (x.2.pools.pool pool).frames = some frames ∧
          x.2.engine.allocator = some frames.allocator := by
  have hneg := aside_negotiate hs.ready
  unfold allocateFrames
  split
  · rename_i e t heq
    rw [heq] at hneg
    exact .ok ⟨hneg.moves, fun u hu => by cases hu⟩
  · rename_i request memory t heq
    rw [heq] at hneg
    split
    · exact .ok ⟨hneg.moves, fun u hu => by cases hu⟩
    · have hpool : t.pools.pool pool = s.pools.pool pool := by
        unfold Pools.pool
        rw [hneg.pools]
      have hsup := supplyFrames_sound (hneg.inStep hs) (hneg.engineReady.trans he)
        (hneg.current.trans hc) ((congrArg Pool.frames hpool).trans hf) (suited_negotiate heq)
      exact hsup.mono fun x hx => ⟨hneg.moves.trans hx.1, hx.2⟩

/-- An engine that was started decodes into the frames of the pool. -/
theorem startEngine_sound (hs : InStep s) (he : s.engineReady = false) {pool : PoolId}
    (hc : s.current = some pool) (hf : (s.pools.pool pool).frames = none) :
    Sound (s.startEngine pool) fun x => Preparing s x.2 ∧ ∀ u, x.1 = .ok u → x.2.phase = .ready := by
  unfold startEngine
  refine (allocateFrames_sound hs he hc hf).bind ?_
  rintro ⟨answer, t⟩ ⟨ht, hok⟩
  cases answer with
  | error e => exact .pure ⟨ht.preparing, fun u hu => by cases hu⟩
  | ok u =>
    obtain ⟨hcur, hq, frames, hframes, hal⟩ := hok () rfl
    have hin := Moves.inStep ht hs
    dsimp only at hcur hq hframes hal hin ⊢
    by_cases hinit : t.askInit.1.isError = true
    · rw [EngineStatus.check_of_isError hinit]
      have haside := (aside_askInit hin.ready hinit).moves
      exact .pure ⟨ht.preparing.trans haside.preparing, fun u hu => by cases hu⟩
    · rw [EngineStatus.check_of_not_isError hinit]
      dsimp only
      have hstart : Starts t { t.askInit.2 with engineReady := true } :=
        .start hcur hframes hal hq (Bool.eq_false_iff.mpr hinit)
      have hstarted : Preparing s { t.askInit.2 with engineReady := true } :=
        ht.preparing.tail (Or.inr hstart)
      split
      · exact .pure ⟨hstarted, fun u hu => by cases hu⟩
      · refine .pure ⟨hstarted.tail (Or.inl (.aside ?_)), fun u hu => rfl⟩
        exact .edit fun _ => rfl

/-- After the engine was set up with success it is ready. -/
theorem setUp_sound (hs : InStep s) (hp : s.phase ≠ .ready) :
    Sound s.setUp fun x => Preparing s x.2 ∧ (x.1 = .ok true → x.2.phase = .ready) := by
  obtain ⟨hret, he, hf⟩ := moves_retire hs hp
  have hin := Moves.inStep hret hs
  unfold setUp
  dsimp only
  generalize s.retire = t at hret he hf hin ⊢
  split
  · exact .pure ⟨hret.preparing, fun h => by cases h⟩
  · rename_i pool hc
    refine (probeHeader_sound hin.ready).bind ?_
    rintro ⟨status, u⟩ hu
    have hprobed : Moves s u := hret.trans hu.moves
    have hedit : Moves s { u with buffer := [] } := hprobed.trans (aside_edit hu.ready []).moves
    dsimp only at hu hprobed hedit ⊢
    split
    · exact .pure ⟨hedit.preparing, fun h => by cases h⟩
    · split
      · exact .pure ⟨hedit.preparing, fun h => by cases h⟩
      · have hpool : u.pools.pool pool = t.pools.pool pool := by
          unfold Pools.pool
          rw [hu.pools]
        refine (startEngine_sound (hu.inStep hin) (hu.engineReady.trans he) (hu.current.trans hc)
          ((congrArg Pool.frames hpool).trans (hf pool hc))).bind ?_
        rintro ⟨answer, v⟩ ⟨hv, hready⟩
        refine .pure ⟨hprobed.preparing.trans hv, fun h => ?_⟩
        cases answer with
        | error e => cases h
        | ok u => exact hready () rfl

end Session

end Multiview
