import Multiview.Proofs.Session.Attuned
import Multiview.Proofs.Session.Exclusive

/-!
Session and engine in lockstep over whole runs. Whatever a client does, in any order and in any phase,
the engine is started and stopped in turn, is fed only while it runs, and is closed once and for all.
-/

namespace Multiview

open Outcome Session

namespace Custody

/-- What a client does with pictures is no concern of the engine. -/
theorem Step.settled {c c' : Custody} (h : Step c c') (hc : Settled c.session) :
    Settled c'.session ∧ c'.session.phase = c.session.phase := by
  have hsame : ∀ {s : Session SimulatedEngine} {pools : Pools},
      Platform.Grew s.pools.platform pools.platform → Settled s →
        Settled { s with pools := pools } := fun hg hs =>
    hs.quiet hg rfl rfl rfl rfl rfl rfl fun hv =>
      ⟨hv.engineReady, hv.current, hv.queues, hv.pictures, hv.buffer⟩
  cases h with
  | @take refs taken s id rest hp =>
    refine ⟨hc.quiet (.refl _) rfl rfl rfl rfl rfl rfl fun hv => ?_, rfl⟩
    have hnone : s.pictures = [] := hv.pictures
    rw [hp] at hnone
    cases hnone
  | share hid => exact ⟨hsame (.refl _) hc, rfl⟩
  | @drop refs taken s id => exact ⟨hsame (Pools.grew_drop id s.pools) hc, rfl⟩
  | mark hid hp => exact ⟨hsame (.refl _) hc, rfl⟩
  | reorder hr => exact ⟨hc, rfl⟩

theorem Steps.settled {c c' : Custody} (h : Steps c c') (hc : Settled c.session) :
    Settled c'.session ∧ c'.session.phase = c.session.phase := by
  induction h with
  | refl => exact ⟨hc, rfl⟩
  | tail _ hstep ih =>
    obtain ⟨hsettled, hphase⟩ := hstep.settled ih.1
    exact ⟨hsettled, hphase.trans ih.2⟩

end Custody

namespace Client

variable {c : Client SimulatedEngine}

/-- Only opening and closing end a failure, and nothing ends a closure. -/
theorem perform_settled (op : Operation) (hc : Settled c.session) :
    Yields (c.perform op) fun x => Settled x.2.session ∧
      (c.session.phase = .failed → x.2.session.phase = .failed ∨
        (∃ hints options, op = .open hints options) ∨ op = .close) ∧
      (c.session.phase = .closed → x.2.session.phase = .closed) := by
  have hkept : ∀ (a : Answer) (c' : Client SimulatedEngine),
      Settled c'.session ∧ c'.session.phase = c.session.phase →
      Yields (pure (a, c') : Outcome (Answer × Client SimulatedEngine)) fun x =>
        Settled x.2.session ∧
          (c.session.phase = .failed → x.2.session.phase = .failed ∨
            (∃ hints options, op = .open hints options) ∨ op = .close) ∧
          (c.session.phase = .closed → x.2.session.phase = .closed) :=
    fun a c' h => .pure ⟨h.1, fun hp => Or.inl (h.2.trans hp), fun hp => h.2.trans hp⟩
  have hidle : ∀ p : Phase, p = .failed ∨ p = .closed → c.session.phase = p →
      ¬ Active c.session := by
    rintro p (rfl | rfl) hp
    · exact not_active (by rw [hp]; exact nofun) (by rw [hp]; exact nofun)
    · exact not_active (by rw [hp]; exact nofun) (by rw [hp]; exact nofun)
  cases op with
  | «open» hints options =>
    exact (open_settled hints options hc).bind fun x hx =>
      .pure ⟨hx.1, fun _ => Or.inr (Or.inl ⟨hints, options, rfl⟩), hx.2⟩
  | decode data dts pts =>
    refine (decode_settled data dts pts hc).bind fun x hx => .pure ⟨hx.1, fun hp => ?_, fun hp => ?_⟩
    · exact Or.inl (by rw [hx.2 (hidle _ (Or.inl rfl) hp), hp])
    · rw [hx.2 (hidle _ (Or.inr rfl) hp), hp]
  | drain =>
    refine (drain_settled hc).bind fun x hx => .pure ⟨hx.1, fun hp => ?_, fun hp => ?_⟩
    · exact Or.inl ((hx.2 (hidle _ (Or.inl rfl) hp)).trans hp)
    · exact (hx.2 (hidle _ (Or.inr rfl) hp)).trans hp
  | flush => exact hkept _ _ ⟨hc.flush, phase_flush c.session⟩
  | close =>
    exact .pure ⟨hc.close, fun _ => Or.inr (Or.inr rfl), fun _ => phase_close c.session⟩
  | control flags => exact hkept _ _ ⟨hc.control flags, rfl⟩
  | prepare p =>
    refine hkept _ _ ⟨?_, rfl⟩
    exact hc.quiet (.refl _) rfl rfl (by cases p <;> rfl) (by cases p <;> rfl) rfl rfl fun hv =>
      ⟨hv.engineReady, hv.current, hv.queues, hv.pictures, hv.buffer⟩
  | take n => exact hkept _ _ ((take_steps n [] c).settled hc)
  | play => exact hkept _ _ ((Session.playReady_steps _ c.session c.references []).settled hc)
  | clear place => exact hkept _ _ ((clear_steps place [] c).settled hc)
  | drop place => exact hkept _ _ ((drop_steps place [] c).settled hc)
  | share place => exact hkept _ _ ((share_steps place [] c).settled hc)
  | mark place => exact hkept _ _ ((mark_steps place [] c).settled hc)
  | view place => exact hkept _ _ ⟨hc, rfl⟩
  | dropShared place => exact hkept _ _ ((dropShared_steps place [] c).settled hc)

theorem start_settled (traits : SimulatedTraits) (config : SessionConfig)
    (device : Option TextureDevice) (memory : HostMemory) :
    Settled (start traits config device memory).session where
  attuned := ⟨rfl, rfl, nofun⟩
  bare := fun _ => rfl
  ready := nofun
  active := not_active nofun nofun
  resting := fun _ => ⟨rfl, rfl, rfl, rfl, rfl⟩

theorem Reachable.settled (h : c.Reachable) : Settled c.session := by
  obtain ⟨traits, config, device, memory, ops, hrun⟩ := h
  have hstep : ∀ (c : Client SimulatedEngine) (op : Operation), Settled c.session →
      Yields ((·.2) <$> c.perform op) fun c' => Settled c'.session := by
    intro c op hc
    cases hop : c.perform op with
    | error fault => exact .error fault
    | ok x => exact .ok (perform_settled op hc x hop).1
  exact Yields.foldlM (q := fun c => Settled c.session) hstep (start_settled traits config device memory) c
    hrun

theorem Decodes.settled {op : Operation} {s : Session SimulatedEngine} {data : Option Bytes}
    (h : c.Decodes op s data) (hc : Settled c.session) (hp : c.session.phase ≠ .closed) :
    Settled s := by
  cases h with
  | decode dts pts => exact hc
  | drain => exact hc.control _
  | header options h => exact (hc.restart hp options).lengthSize _
  | extradata options h => exact hc.restart hp options

theorem Turns.serving {op : Operation} {pool : PoolId} {s : Session SimulatedEngine}
    {p : Submission} (h : c.Turns op pool s p) (hc : Settled c.session)
    (hp : c.session.phase ≠ .closed) : Serving s := by
  induction h with
  | @first s t u data dts pts hd ht hu hcur =>
    obtain ⟨ha, ⟨_, he⟩ | ⟨b, hb⟩⟩ | ⟨_, he | he⟩ := accept_cases data s _ ht
    · cases he
    · cases hb
      have hsettled := (hd.settled hc hp).buffer ha b
      obtain ⟨hready, _, _, hphase⟩ := arrange_settled data.isNone hsettled ha _ hu
      have hserving := hready.attuned.serving (hready.ready (hphase rfl)).1
      exact ⟨hserving.engineReady, hserving.held⟩
    · cases he
    · cases he
  | next h ht ih => exact (served_turn ih _ _ ht).serving ih

/-- What session, engine and journal of calls know of each other, and what becomes of it. -/
structure Lockstep (c : Client SimulatedEngine) : Prop where
  /-- A ready session has a running engine for two views, which writes to the frames of its pool. -/
  ready : c.session.phase = .ready → c.session.engineReady = true ∧
    c.session.engine.params.isSome = true ∧ c.session.params.sequence.viewCount = 2 ∧
    ∃ pool frames, c.session.current = some pool ∧ (c.session.pools.pool pool).owned = true ∧
      (c.session.pools.pool pool).frames = some frames ∧
      c.session.engine.allocator = some frames.allocator
  opened : c.session.phase = .opened → c.session.current.isSome = true
  vacant : c.session.phase = .idle ∨ c.session.phase = .closed → Vacant c.session ∧
    c.session.engine.params = none ∧ c.session.engine.allocator = none
  balanced : c.session.journal.countP Event.starts =
    c.session.journal.countP Event.stops + c.session.engineReady.toNat
  /-- Before it was handed anything the engine had been started once more than stopped. -/
  fed : ∀ later earlier input work status offset output,
    c.session.journal = later ++ .engine (.decode input work status offset output) :: earlier →
      earlier.countP Event.starts = earlier.countP Event.stops + 1
  handed : c.session.phase ≠ .closed → ∀ op pool s p, c.Turns op pool s p →
    s.engine.params.isSome = true
  /-- Input that was accepted finds a pool, both to set up the engine and to decode into. -/
  accepted : c.session.phase ≠ .closed → ∀ op s data t dts pts x, c.Decodes op s data →
    s.accept data = .ok (.ok t) → t.advance data.isNone dts pts = .ok x → x.1 ≠ .error .notOpened
  failed : ∀ op a c', c.perform op = .ok (a, c') → c.session.phase = .failed →
    c'.session.phase = .failed ∨ (∃ hints options, op = .open hints options) ∨ op = .close
  closed : ∀ op a c', c.perform op = .ok (a, c') → c.session.phase = .closed →
    c'.session.phase = .closed
  /-- The engine of a closed session was closed once, and not called any more from then on. -/
  ended : c.session.phase = .closed → ∃ later earlier : List Event,
    c.session.journal = later ++ Event.engine .close :: earlier ∧
      (∀ e ∈ later, e.calls = false) ∧ ∀ e ∈ earlier, e.ends = false
  unended : c.session.phase ≠ .closed → ∀ e ∈ c.session.journal, e.ends = false

/-- Session and engine stay in step, whatever the client does. -/
theorem Reachable.lockstep (h : c.Reachable) : c.Lockstep := by
  have hs := h.settled
  have hin := h.accounted.inStep
  have hreached := hs.attuned.reached
  refine ⟨fun hp => ?_, fun hp => hs.active (Or.inl hp), fun hp => ?_, ?_, ?_, fun hp => ?_,
    fun hp => ?_, ?_, ?_, fun hp => ?_, fun hp => ?_⟩
  · obtain ⟨he, hviews⟩ := hs.ready hp
    obtain ⟨pool, frames, hcur, hframes, hallocator⟩ := hin.equipped he
    exact ⟨he, hs.attuned.held.trans he, hviews, pool, frames, hcur, (hin.present pool hcur).2,
      hframes, hallocator⟩
  · have hvacant := hs.resting hp
    refine ⟨hvacant, Option.not_isSome_iff_eq_none.mp ?_, hs.bare hvacant.engineReady⟩
    rw [hs.attuned.held, hvacant.engineReady]
    exact Bool.false_ne_true
  · rw [Mode.countP_starts hreached]
    congr 1
    by_cases hp : c.session.phase = .closed
    · simp [Session.mode, hp, hs.attuned.stopped hp]
    · cases he : c.session.engineReady with
      | false => simp [mode_idle hp he]
      | true => simp [mode_running hp he]
  · intro later earlier input work status offset output hj
    rw [hj] at hreached
    have hrunning := Mode.running_of_decode hreached
    rw [Mode.countP_starts hrunning]
    rfl
  · exact fun op pool s p hturn => (hturn.serving hs hp).held
  · intro op s data t dts pts x hd ha hx
    obtain ⟨hactive, ⟨_, he⟩ | ⟨b, hb⟩⟩ | ⟨_, he | he⟩ := accept_cases data s _ ha
    · cases he
    · cases hb
      exact (advance_settled _ dts pts ((hd.settled hs hp).buffer hactive b) hactive x hx).2.2
    · cases he
    · cases he
  · exact fun op a c' hop => (perform_settled op hs _ hop).2.1
  · exact fun op a c' hop => (perform_settled op hs _ hop).2.2
  · have hmode : c.session.mode = .closed := if_pos hp
    exact Mode.ends_once (hmode ▸ hreached)
  · refine Mode.not_ends hreached ?_
    cases he : c.session.engineReady with
    | false =>
      rw [mode_idle hp he]
      decide
    | true =>
      rw [mode_running hp he]
      decide

/-- The engine was started once, stopped once, and closed. -/
theorem closedRun_lockstep : ∃ c : Client SimulatedEngine, c.Reachable ∧
    c.session.phase = .closed ∧ c.session.journal.countP Event.starts = 1 ∧ c.Lockstep := by
  have hrun : ((start {} { asyncDepth := 0 } none).run
      (stereoOperations ++ [.close])).toOption.map
        (fun c => (c.session.phase, c.session.journal.countP Event.starts)) = some (.closed, 1) := by
    decide +kernel
  cases hc : (start {} { asyncDepth := 0 } none).run (stereoOperations ++ [.close]) with
  | error fault =>
    rw [hc] at hrun
    cases hrun
  | ok c =>
    rw [hc] at hrun
    obtain ⟨hphase, hcount⟩ := Prod.mk.inj (Option.some.inj hrun)
    have hreach : c.Reachable := ⟨_, _, _, _, _, hc⟩
    exact ⟨c, hreach, hphase, hcount, Reachable.lockstep hreach⟩

end Client

end Multiview
