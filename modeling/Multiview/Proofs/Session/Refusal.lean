import Multiview.Proofs.Session.Lifetime

/-!
Opening a stream in vain. Wherever an attempt to open fails, nothing of a stream is left afterwards but
the pictures that the client has: the engine is idle, no input and no surface waits, and all other
memory is free again. Until a stream is opened nothing can be decoded.
-/

namespace Multiview

open Outcome

namespace Event

/-- The engine was asked to read a header or to start. -/
def prepares : Event → Bool
  | engine (.readHeader _ _ _) => true
  | engine (.init _ _) => true
  | _ => false

end Event

/-- The description of the stream was refused, so that none of it got to the engine. -/
def OpenError.isEarly : OpenError → Bool
  | .codec _ | .tag _ | .config _ => true
  | _ => false

namespace Answer

/-- A stream was opened. -/
def opens : Answer → Bool
  | opened (.ok _) _ => true
  | _ => false

end Answer

/-- Input is to be decoded, or the engine drained. -/
def Operation.decodes : Operation → Bool
  | .decode _ _ _ | .drain => true
  | _ => false

namespace Session

variable {s t u : Session SimulatedEngine} {hints hints' : StreamHints} {options : Options}
  {e : OpenError}

/-- The journal was continued without header or start. -/
def Unprepared (s t : Session SimulatedEngine) : Prop :=
  ∃ new, t.journal = new ++ s.journal ∧ ∀ e ∈ new, e.prepares = false

theorem Unprepared.trans (h : Unprepared s t) (h' : Unprepared t u) : Unprepared s u := by
  obtain ⟨new, hj, hn⟩ := h
  obtain ⟨new', hj', hn'⟩ := h'
  refine ⟨new' ++ new, by rw [hj', hj, List.append_assoc], fun e he => ?_⟩
  rcases List.mem_append.mp he with he | he
  · exact hn' e he
  · exact hn e he

theorem unprepared_closeEngineDecoder (s : Session SimulatedEngine) :
    Unprepared s s.closeEngineDecoder := by
  unfold closeEngineDecoder
  split
  · refine ⟨[_], rfl, fun e he => ?_⟩
    cases List.mem_singleton.mp he
    rfl
  · exact ⟨[], rfl, List.forall_mem_nil _⟩

theorem unprepared_of_grew (h : Platform.Grew s.pools.platform t.pools.platform) :
    Unprepared s t := by
  obtain ⟨calls, hj⟩ := h
  refine ⟨calls.map .device, hj, fun e he => ?_⟩
  obtain ⟨call, _, rfl⟩ := List.mem_map.mp he
  rfl

theorem unprepared_tearDown (s : Session SimulatedEngine) : Unprepared s s.tearDown :=
  (unprepared_closeEngineDecoder s).trans (unprepared_of_grew (grew_releasePool _))

/-- Once the description of a stream was accepted, only its sequence header is at fault. -/
theorem bootstrap_error (data : Bytes) (s : Session SimulatedEngine) :
    Yields (s.bootstrap data) fun x => ∀ e, x.1 = .error e → e.isEarly = false := by
  unfold bootstrap
  refine Yields.bind (fun a ha => ha) ?_
  rintro ⟨answer, t⟩ -
  cases answer with
  | ok status => exact .pure nofun
  | error e =>
    refine .pure fun e' he => ?_
    cases he
    rfl

theorem feedHeader_error (header : SequenceHeader) (s : Session SimulatedEngine) :
    Yields (s.feedHeader header) fun x => ∀ e, x.1 = .error e → e.isEarly = false := by
  unfold feedHeader
  refine (bootstrap_error header.data _).bind ?_
  rintro ⟨answer, t⟩ he
  cases answer with
  | error e => exact .pure he
  | ok u =>
    dsimp only
    split
    · refine .pure fun e' he => ?_
      cases he
      rfl
    · exact .pure nofun

/-- A stream whose description is refused does not touch the session. -/
theorem tryOpen_early (hints : StreamHints) (options : Options) (s : Session SimulatedEngine) :
    Yields (s.tryOpen hints options) fun x => ∀ e, x.1 = .error e → e.isEarly = true → x.2 = s := by
  have hlater : ∀ {x : Except OpenError Unit × Session SimulatedEngine},
      (∀ e, x.1 = .error e → e.isEarly = false) →
        ∀ e, x.1 = .error e → e.isEarly = true → x.2 = s := by
    intro x hx e he hearly
    rw [hx e he] at hearly
    cases hearly
  unfold tryOpen
  split
  · exact .pure fun _ _ _ => rfl
  · split
    · exact .pure fun _ _ _ => rfl
    · split
      · exact .pure fun _ _ _ => rfl
      · split
        · exact .pure fun _ _ _ => rfl
        · exact (feedHeader_error _ _).mono fun _ hx => hlater hx
        · split
          · exact .pure nofun
          · exact (bootstrap_error _ _).mono fun _ hx => hlater hx

/-- What opening in vain does after the attempt. -/
theorem open_error (h : s.open hints options = .ok (.error e, hints', t)) :
    hints' = { hints with stereoMode := "mono" } ∧ ∃ u, s.tryOpen hints options = .ok (.error e, u) ∧
      t = if u.phase = .closed then u else { u.tearDown with phase := .idle } := by
  unfold «open» at h
  cases hopen : s.tryOpen hints options with
  | error fault =>
    rw [hopen] at h
    cases h
  | ok x =>
    obtain ⟨answer, u⟩ := x
    rw [hopen] at h
    cases answer with
    | ok _ => cases h
    | error e' =>
      cases h
      exact ⟨rfl, u, rfl, rfl⟩

/-- A closed session stays as it is. -/
theorem open_closed (h : s.phase = .closed) (hints : StreamHints) (options : Options) :
    s.open hints options = .ok (.error .closed, { hints with stereoMode := "mono" }, s) := by
  have hopen : s.tryOpen hints options = .ok (.error .closed, s) := if_pos h
  unfold «open»
  rw [hopen]
  change Except.ok (_, _, if s.phase = .closed then s else _) = _
  rw [if_pos h]

/-- Nothing of a stream is left, and the engine is bare. -/
structure Forsaken (s : Session SimulatedEngine) : Prop where
  phase : s.phase = .idle
  vacant : Vacant s
  lengthSize : s.lengthSize = none
  params : s.engine.params = none
  allocator : s.engine.allocator = none

theorem open_forsaken (hs : Settled s) (hp : s.phase ≠ .closed)
    (h : s.open hints options = .ok (.error e, hints', t)) :
    Forsaken t ∧ (e.isEarly = true → Unprepared s t) := by
  obtain ⟨-, u, hopen, ht⟩ := open_error h
  obtain ⟨hu, -, hphase⟩ := tryOpen_settled hints options hs _ hopen
  have hpu := hphase hp
  rw [if_neg hpu] at ht
  have hidle : Settled t := ht ▸ hu.toIdle hpu
  have hrest : t.phase = .idle ∧ t.lengthSize = none := by
    rw [ht]
    exact ⟨rfl, rfl⟩
  have hvacant := hidle.resting (Or.inl hrest.1)
  refine ⟨⟨hrest.1, hvacant, hrest.2, ?_, hidle.bare hvacant.engineReady⟩, fun hearly => ?_⟩
  · rw [← Option.not_isSome_iff_eq_none, hidle.attuned.held, hvacant.engineReady]
    exact Bool.false_ne_true
  · have hsame : u = s := tryOpen_early hints options s _ hopen e rfl hearly
    rw [ht, hsame]
    exact unprepared_tearDown s

/-- What cannot be decoded is refused without a word to the engine. -/
theorem decode_refused (ha : ¬ Active s) (data : Option Bytes) (dts pts : Option UInt64) :
    s.decode data dts pts = .ok ({ error := true }, s) := by
  unfold decode tryDecode accept
  cases hp : s.phase with
  | opened => exact absurd (Or.inl hp) ha
  | ready => exact absurd (Or.inr hp) ha
  | _ => rfl

end Session

namespace Client

open Session

variable {c c' : Client SimulatedEngine} {hints hints' : StreamHints} {options : Options}
  {e : OpenError}

theorem perform_open_eq {hints : StreamHints} {options : Options} {a : Answer}
    (h : c.perform (.open hints options) = .ok (a, c')) :
    ∃ result hints' t, c.session.open hints options = .ok (result, hints', t) ∧
      a = .opened result hints' ∧ c' = { c with session := t } := by
  unfold perform at h
  dsimp only at h
  cases hopen : c.session.open hints options with
  | error fault =>
    rw [hopen] at h
    cases h
  | ok x =>
    obtain ⟨result, hints', t⟩ := x
    rw [hopen] at h
    cases h
    exact ⟨result, hints', t, rfl, rfl, rfl⟩

/-- A client that cannot decode is told so, and the engine is not called. -/
theorem perform_refused (ha : ¬ Active c.session) {op : Operation} (hop : op.decodes = true) :
    ∃ c', c.perform op = .ok (.status { error := true }, c') ∧
      c'.session.journal = c.session.journal := by
  cases op with
  | decode data dts pts =>
    refine ⟨c, ?_, rfl⟩
    unfold perform
    dsimp only
    rw [decode_refused ha]
    rfl
  | drain =>
    generalize hs : { c.session with control := c.session.control.union .drain } = s
    have has : ¬ Active s := hs ▸ ha
    refine ⟨{ c with session := s }, ?_, by rw [← hs]; rfl⟩
    unfold perform Session.drain
    dsimp only
    rw [hs, decode_refused has]
    rfl
  | _ => cases hop

/-- Nothing but opening a stream brings a session back that is idle or closed. -/
theorem perform_resting (hs : Settled c.session)
    (hp : c.session.phase = .idle ∨ c.session.phase = .closed) (op : Operation) :
    Yields (c.perform op) fun x => x.1.opens = false →
      x.2.session.phase = .idle ∨ x.2.session.phase = .closed := by
  have ha := not_active_of_resting hp
  have hkept : ∀ (a : Answer) (c' : Client SimulatedEngine),
      c'.session.phase = c.session.phase →
        Yields (pure (a, c') : Outcome (Answer × Client SimulatedEngine)) fun x =>
          x.1.opens = false → x.2.session.phase = .idle ∨ x.2.session.phase = .closed :=
    fun a c' h => .pure fun _ => by rwa [h]
  cases op with
  | «open» hints options =>
    rintro ⟨a, c'⟩ h hfailed
    obtain ⟨result, hints', t, hopen, rfl, rfl⟩ := perform_open_eq h
    cases result with
    | ok u => cases hfailed
    | error e =>
      obtain ⟨-, u, -, ht⟩ := open_error hopen
      by_cases hclosed : u.phase = .closed
      · rw [if_pos hclosed] at ht
        exact Or.inr (ht ▸ hclosed)
      · rw [if_neg hclosed] at ht
        exact Or.inl (by rw [ht])
  | decode data dts pts =>
    refine (decode_settled data dts pts hs).bind fun x hx => hkept _ _ ?_
    rw [hx.2 ha]
  | drain => exact (drain_settled hs).bind fun x hx => hkept _ _ (hx.2 ha)
  | flush => exact hkept _ _ (phase_flush c.session)
  | close => exact .pure fun _ => Or.inr (phase_close c.session)
  | control flags => exact hkept _ _ rfl
  | prepare p => exact hkept _ _ rfl
  | take n => exact hkept _ _ ((take_steps n [] c).settled hs).2
  | play => exact hkept _ _ ((Session.playReady_steps _ c.session c.references []).settled hs).2
  | clear place => exact hkept _ _ ((clear_steps place [] c).settled hs).2
  | drop place => exact hkept _ _ ((drop_steps place [] c).settled hs).2
  | share place => exact hkept _ _ ((share_steps place [] c).settled hs).2
  | mark place => exact hkept _ _ ((mark_steps place [] c).settled hs).2
  | view place => exact hkept _ _ rfl
  | dropShared place => exact hkept _ _ ((dropShared_steps place [] c).settled hs).2

/-- A session rests until a stream is opened. -/
theorem answers_resting {ops : List Operation} {as : List Answer} (h : c.Reachable)
    (hp : c.session.phase = .idle ∨ c.session.phase = .closed)
    (hrun : c.answers ops = .ok (as, c')) (hfailed : ∀ a ∈ as, a.opens = false) :
    c'.session.phase = .idle ∨ c'.session.phase = .closed := by
  induction ops generalizing c as with
  | nil =>
    cases hrun
    exact hp
  | cons op ops ih =>
    unfold answers at hrun
    cases hop : c.perform op with
    | error fault =>
      rw [hop] at hrun
      cases hrun
    | ok x =>
      obtain ⟨a, c₁⟩ := x
      rw [hop] at hrun
      cases hrest : c₁.answers ops with
      | error fault =>
        simp only [bind, Except.bind, hrest] at hrun
        cases hrun
      | ok y =>
        obtain ⟨rest, c₂⟩ := y
        simp only [bind, Except.bind, hrest] at hrun
        cases hrun
        obtain ⟨ha, hrest'⟩ := List.forall_mem_cons.mp hfailed
        exact ih (h.perform hop) (perform_resting h.settled hp op _ hop ha) hrest hrest'

/-- A picture of the pool is in the hands of the client. -/
def Keeps (pool : PoolId) (c : Client SimulatedEngine) : Prop :=
  ∃ id ∈ c.references, ∃ p, c.session.pools.pictures[id]? = some p ∧ p.pool = pool

/-- Without a stream, the pools in use are those of the client's pictures. -/
theorem uses_iff_keeps (h : c.Reachable) (hv : Vacant c.session) (pool : PoolId) :
    c.session.Uses pool ↔ c.Keeps pool := by
  have hacc : Session.Accounted c.references c.session := h.accounted
  have hcount : ∀ id, c.session.pools.references id = c.references.count id := by
    intro id
    rw [hacc.references id, hv.pictures, List.nil_append]
  constructor
  · rintro (hcur | ⟨p, hp, ha, hpool⟩)
    · cases hv.current.symm.trans hcur
    · obtain ⟨id, hid⟩ := List.mem_iff_getElem?.mp hp
      refine ⟨id, ?_, p, hid, hpool⟩
      rw [← List.count_pos_iff, ← hcount id, Pools.references, hid]
      exact of_decide_eq_true ha
  · rintro ⟨id, hid, p, hp, hpool⟩
    refine Or.inr ⟨p, List.mem_of_getElem? hp, ?_, hpool⟩
    have hpos := List.count_pos_iff.mpr hid
    rw [← hcount id, Pools.references, hp] at hpos
    exact decide_eq_true hpos

/-- What opening in vain leaves behind: nothing but the pictures that the client has. -/
structure OpenedInVain (c : Client SimulatedEngine) (e : OpenError) (hints hints' : StreamHints)
    (c' : Client SimulatedEngine) : Prop where
  forsaken : Forsaken c'.session
  /-- The engine was started as often as it was stopped. -/
  balanced : c'.session.journal.countP Event.starts = c'.session.journal.countP Event.stops
  hints_eq : hints' = { hints with stereoMode := "mono" }
  /-- A description that was refused did not get to the engine. -/
  early : e.isEarly = true → Unprepared c.session c'.session
  references_eq : c'.references = c.references
  /-- Until a stream is opened nothing is decoded, and the engine is not called for it. -/
  refused : ∀ ops as c'', c'.answers ops = .ok (as, c'') → (∀ a ∈ as, a.opens = false) →
    ∀ op : Operation, op.decodes = true → ∃ d, c''.perform op = .ok (.status { error := true }, d) ∧
      d.session.journal = c''.session.journal

/-- The memory that is left is that of the client's pictures: textures on the device, responses of
allocators, and frames on the host. -/
structure KeptForPictures (c : Client SimulatedEngine) : Prop where
  alive : ∀ texture, texture ∈ c.session.pools.platform.live ↔
    ∃ pool, c.Keeps pool ∧ texture ∈ c.session.pools.textures pool
  held : ∀ id a, c.session.pools.resources.allocators[id]? = some a → ∀ response,
    response ∈ Allocator.held a ↔ ∃ pool f, c.Keeps pool ∧
      (c.session.pools.pool pool).frames = some f ∧ f.allocator = id ∧ f.response = response
  hosted : ∀ id a, c.session.pools.resources.allocators[id]? = some a → ∀ mid,
    MixedAllocator.Hosts mid a ↔ ∃ pool f, c.Keeps pool ∧
      (c.session.pools.pool pool).frames = some f ∧ f.allocator = id ∧ f.memory = .system ∧
      mid ∈ f.response.mids

theorem MemoryKept.keptForPictures (h : c.MemoryKept) (hc : c.Reachable) (hv : Vacant c.session) :
    c.KeptForPictures := by
  have huses := uses_iff_keeps hc hv
  refine ⟨fun texture => ?_, fun id a hid response => ?_, fun id a hid mid => ?_⟩
  · simp only [h.alive texture, huses]
  · simp only [h.held id a hid response, huses]
  · simp only [h.hosted id a hid mid, huses]

theorem openedInVain (h : c.Reachable) (hp : c.session.phase ≠ .closed)
    (hopen : c.perform (.open hints options) = .ok (.opened (.error e) hints', c')) :
    OpenedInVain c e hints hints' c' := by
  have hc' := h.perform hopen
  obtain ⟨result, hints₁, t, hs, ha, rfl⟩ := perform_open_eq hopen
  cases ha
  obtain ⟨hforsaken, hearly⟩ := open_forsaken h.settled hp hs
  refine ⟨hforsaken, ?_, (open_error hs).1, hearly, rfl, ?_⟩
  · have hbalanced := hc'.lockstep.balanced
    rw [hforsaken.vacant.engineReady] at hbalanced
    exact hbalanced
  · intro ops as c'' hrun hfailed op hop
    have hrest := answers_resting hc' (Or.inl hforsaken.phase) hrun hfailed
    exact perform_refused (not_active_of_resting hrest) hop

/-- Opening in vain leaves nothing behind, from whatever state and wherever it fails. A closed session
can only be told so. -/
theorem open_error_leaves_nothing (traits : SimulatedTraits) (config : SessionConfig)
    (device : Option TextureDevice) (memory : HostMemory) {ops : List Operation}
    (hrun : (start traits config device memory).run ops = .ok c) (hints : StreamHints) (options : Options) :
    (c.session.phase ≠ .closed → ∀ e hints' c',
      c.perform (.open hints options) = .ok (.opened (.error e) hints', c') →
        OpenedInVain c e hints hints' c' ∧ ((∀ d ∈ device, d.Fresh) → c'.KeptForPictures)) ∧
    (c.session.phase = .closed → c.perform (.open hints options) =
      .ok (.opened (.error .closed) { hints with stereoMode := "mono" }, c)) := by
  have hreach : c.Reachable := ⟨traits, config, device, memory, ops, hrun⟩
  refine ⟨fun hp e hints' c' hopen => ?_, fun hp => ?_⟩
  · have hvain := openedInVain hreach hp hopen
    refine ⟨hvain, fun hd => ?_⟩
    have hrun' : (start traits config device memory).run (ops ++ [.open hints options]) = .ok c' := by
      rw [run_append hrun, run_eq_answers]
      simp only [answers, bind, Except.bind, hopen]
      rfl
    exact (run_memoryKept traits config hd hrun').keptForPictures (hreach.perform hopen)
      hvain.forsaken.vacant
  · unfold perform
    dsimp only
    rw [open_closed hp]
    rfl

/-- A stream for one view. -/
def monoHints : StreamHints := { extradata := [0, 0, 1, 0x67, 1, 0, 0, 1, 0x68, 1] }

/-- The client keeps the texture of its picture when opening a stream for one view fails, which is
found out after the engine was started. -/
theorem monoHints_openedInVain : ∃ c c' : Client SimulatedEngine,
    (start {} { asyncDepth := 0 } (some (.counting none))).run stereoOperations = .ok c ∧
      c.session.phase = .ready ∧
      c.perform (.open monoHints []) = .ok (.opened (.error (.sequenceHeader (.wrongViewCount 1)))
        { monoHints with stereoMode := "mono" }, c') ∧
      OpenedInVain c (.sequenceHeader (.wrongViewCount 1)) monoHints
        { monoHints with stereoMode := "mono" } c' ∧
      c'.session.pools.platform.live = [⟨100⟩] ∧ c'.KeptForPictures := by
  have hcheck : ((start {} { asyncDepth := 0 } (some (.counting none))).run
      stereoOperations).toOption.map (fun c => (c.session.phase,
        (c.session.open monoHints []).toOption.map fun x =>
          (x.1, x.2.2.pools.platform.live))) =
      some (.ready, some (.error (.sequenceHeader (.wrongViewCount 1)), [⟨100⟩])) := by
    decide +kernel
  have hfresh : ∀ d ∈ some (TextureDevice.counting none), d.Fresh := by
    intro d hd
    cases hd
    exact ⟨rfl, TextureDevice.counting_answersAnew none⟩
  cases hrun : (start {} { asyncDepth := 0 } (some (.counting none))).run stereoOperations with
  | error fault =>
    rw [hrun] at hcheck
    cases hcheck
  | ok c =>
    rw [hrun] at hcheck
    obtain ⟨hphase, hcheck⟩ := Prod.mk.inj (Option.some.inj hcheck)
    cases hopen : c.session.open monoHints [] with
    | error fault =>
      rw [hopen] at hcheck
      cases hcheck
    | ok x =>
      obtain ⟨result, hints', t⟩ := x
      rw [hopen] at hcheck
      obtain ⟨hresult, hlive⟩ := Prod.mk.inj (Option.some.inj hcheck)
      cases hresult
      obtain ⟨rfl, -⟩ := open_error hopen
      have hperform : c.perform (.open monoHints []) =
          .ok (.opened (.error (.sequenceHeader (.wrongViewCount 1)))
            { monoHints with stereoMode := "mono" }, { c with session := t }) := by
        unfold perform
        dsimp only
        rw [hopen]
        rfl
      have hopened : c.session.phase ≠ .closed := by
        rw [hphase]
        exact nofun
      have hall := open_error_leaves_nothing {} { asyncDepth := 0 } _ _ hrun monoHints []
      obtain ⟨hvain, hkept⟩ := hall.1 hopened _ _ _ hperform
      exact ⟨c, _, rfl, hphase, hperform, hvain, hlive, hkept hfresh⟩

end Client

end Multiview
