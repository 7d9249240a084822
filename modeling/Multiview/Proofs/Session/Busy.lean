import Multiview.Proofs.Session.Prospect

/-!
A device that is busy. Its answers are sat out, with a few resets in between, and then either the device
is given up and nothing has happened to surfaces, pictures and input, or the call goes on as if the device
had never been busy.
-/

namespace Multiview

open Outcome

namespace Session

variable {s t u : Session SimulatedEngine} {pool : PoolId}

/-! ## Resets -/

/-- The engine was reset once for every reset of the submission, of which there are not too many. -/
structure Counted (before most : Nat) (s : Session SimulatedEngine) (p : Submission) : Prop where
  resets : s.engine.resets = before + p.resets
  bounded : p.resets ≤ most
  most : s.config.maxBusyResets = most

section Counting

variable {before most : Nat} {p : Submission}

theorem handleBusy_counted (h : Counted before most s p) :
    Counted before most (s.handleBusy p).2.1 (s.handleBusy p).2.2 := by
  unfold handleBusy
  dsimp only
  split
  · exact ⟨h.resets, h.bounded, h.most⟩
  · split
    · exact ⟨h.resets, h.bounded, h.most⟩
    · rename_i hfew
      exact ⟨congrArg (· + 1) h.resets, Nat.lt_of_lt_of_eq (Nat.lt_of_not_le hfew) h.most, h.most⟩

theorem Counted.tidied (h : Counted before most s p) (ht : Tidied s t) : Counted before most t p := by
  obtain ⟨_, _, _, he⟩ := ht.engine
  exact ⟨by rw [he]; exact h.resets, h.bounded, by rw [ht.config]; exact h.most⟩

theorem handleAnswer_counted (h : Counted before most s p) (status : EngineStatus)
    (output : Option DecodedSurface) :
    Yields (s.handleAnswer pool status output p) fun x => Counted before most x.2.1 x.2.2 := by
  refine (handleAnswer_tidied status output s p).mono ?_
  rintro ⟨_, t, _⟩ ⟨ht | rfl, _, _, _, rfl⟩
  · have htidied := h.tidied ht
    exact ⟨htidied.resets, htidied.bounded, htidied.most⟩
  · exact ⟨h.resets, h.bounded, h.most⟩

/-- Only a busy device is reset. -/
theorem turn_counted (h : Counted before most s p) :
    Yields (turn pool s p) fun x => Counted before most x.2.1 x.2.2 := by
  unfold turn
  split
  · exact .ok ⟨h.resets, h.bounded, h.most⟩
  · rename_i index work _
    have hask : ∀ input, Yields (s.askDecode input work) fun x => Counted before most x.2.2.2 p := by
      intro input
      refine (SimulatedEngine.decode_goneOn input work s.engine s.pools.resources).bind ?_
      rintro a ⟨_, _, _, _, _, _, _, ha⟩
      refine .pure ⟨?_, h.bounded, h.most⟩
      change a.engine.resets = _
      rw [ha]
      exact h.resets
    refine (hask _).bind ?_
    rintro ⟨status, output, stream, t⟩ ht
    have ht' : Counted before most t { p with stream := stream.getD p.stream } :=
      ⟨ht.resets, ht.bounded, ht.most⟩
    dsimp only
    split
    · exact .pure (handleBusy_counted ht')
    · exact handleAnswer_counted ht' status output

theorem submitWithin_counted (fuel : Nat) (h : Counted before most s p) :
    Yields (submitWithin pool fuel s p) fun x => Counted before most x.1 x.2 :=
  submitWithin_keeps (fun _ _ => turn_counted) fuel h

end Counting

/-! ## Busy answers -/

/-- Answers of a busy device were sat out. Only the engine, its locks and the journal have changed. -/
structure SatOut (s t : Session SimulatedEngine) : Prop where
  rest : ∃ engine resources platform busyAnswers, t = { s with
    engine := engine
    busyAnswers := busyAnswers
    pools := { s.pools with resources := resources, platform := platform } }
  stage : s.engine.params.isSome = true → t.engine.stage = s.engine.stage
  returned : t.returned = s.returned

namespace SatOut

theorem refl (s : Session SimulatedEngine) : SatOut s s := ⟨⟨_, _, _, _, rfl⟩, fun _ => rfl, rfl⟩

theorem trans (h : SatOut s t) (h' : SatOut t u) : SatOut s u where
  rest := by
    obtain ⟨_, _, _, _, rfl⟩ := h.rest
    obtain ⟨_, _, _, _, rfl⟩ := h'.rest
    exact ⟨_, _, _, _, rfl⟩
  stage := fun hheld => by
    have hstage := h.stage hheld
    have hheld' : t.engine.params.isSome = true := (congrArg Stage.held hstage).trans hheld
    exact (h'.stage hheld').trans hstage
  returned := h'.returned.trans h.returned

theorem prospect (h : SatOut s t) (hheld : s.engine.params.isSome = true) :
    t.prospect = s.prospect := by
  have hstage := h.stage hheld
  have hreturned := h.returned
  obtain ⟨_, _, _, _, rfl⟩ := h.rest
  unfold Session.prospect
  rw [hreturned, hstage]

/-- Answers that were prepared are still to come. -/
theorem calm (h : SatOut s t) (hheld : s.engine.params.isSome = true)
    (hi : .deviceBusy ∉ s.engine.injected) (hb : t.engine.busy = .calls 0) : t.engine.Calm where
  busy := hb
  injected := by
    have hinjected : t.engine.injected = s.engine.injected :=
      congrArg Stage.injected (h.stage hheld)
    rw [hinjected]
    exact hi

end SatOut

/-- The session after the answer of a busy device. -/
theorem satOut_submitted (input : Option Bitstream) (work : WorkSurface)
    (s : Session SimulatedEngine) (busy : Busy) :
    SatOut s (s.submitted input work
      ⟨.deviceBusy, none, input, { s.engine with busy := busy }, s.pools.resources⟩) where
  rest := ⟨_, _, _, s.busyAnswers, rfl⟩
  stage := fun _ => rfl
  returned := (returned_record _ _).trans (List.append_nil _)

theorem satOut_resetEngine (s : Session SimulatedEngine) : SatOut s s.resetEngine where
  rest := ⟨_, _, _, s.busyAnswers, rfl⟩
  stage := fun hheld => by
    unfold SimulatedEngine.stage
    rw [hheld]
    rfl
  returned := (returned_record _ _).trans (List.append_nil _)

/-- A busy device is waited for, reset, or given up after all resets. -/
theorem handleBusy_satOut (s : Session SimulatedEngine) (p : Submission) :
    ∃ t, SatOut s t ∧ t.engine.busy = s.engine.busy ∧
      ((∃ n, s.handleBusy p = (true, t, { p with resets := n })) ∨
        s.config.maxBusyResets ≤ p.resets ∧ s.handleBusy p = (false, t, { p with stuck := true })) := by
  have hcount : SatOut s { s with busyAnswers := s.busyAnswers + 1 } :=
    ⟨⟨_, _, _, _, rfl⟩, fun _ => rfl, rfl⟩
  cases hlong : s.config.busyTooLong s.busyAnswers with
  | false =>
    refine ⟨_, hcount, rfl, Or.inl ⟨p.resets, ?_⟩⟩
    simp only [handleBusy, hlong, Bool.not_false, ↓reduceIte]
  | true =>
    by_cases hspent : s.config.maxBusyResets ≤ p.resets
    · refine ⟨_, hcount, rfl, Or.inr ⟨hspent, ?_⟩⟩
      simp only [handleBusy, hlong, hspent, Bool.not_true, Bool.false_eq_true, ↓reduceIte]
    · refine ⟨_, hcount.trans (satOut_resetEngine _), rfl, Or.inl ⟨p.resets + 1, ?_⟩⟩
      simp only [handleBusy, hlong, hspent, Bool.not_true, Bool.false_eq_true, ↓reduceIte]

theorem turn_busy (hb : s.engine.busy ≠ .calls 0) {index : Nat} {work : WorkSurface}
    (hf : s.pools.freeSurface? pool = some (index, work)) (p : Submission) :
    ∃ t, SatOut s t ∧ t.engine.busy = s.engine.busy.next ∧
      ((∃ n, turn pool s p = .ok (true, t, { p with resets := n })) ∨
        s.config.maxBusyResets ≤ p.resets ∧
          turn pool s p = .ok (false, t, { p with stuck := true })) := by
  generalize hinput : (if p.flushing then none else some p.stream) = input
  have hask : s.askDecode input work = .ok (.deviceBusy, none, input, s.submitted input work
      ⟨.deviceBusy, none, input, { s.engine with busy := s.engine.busy.next },
        s.pools.resources⟩) :=
    askDecode_eq (SimulatedEngine.decode_busy hb input work s.pools.resources)
  have hsame : input.getD p.stream = p.stream := by
    rw [← hinput]
    cases p.flushing <;> rfl
  have hstream : { p with stream := input.getD p.stream } = p := by
    rw [hsame]
  have hsubmitted := satOut_submitted input work s s.engine.busy.next
  have hturn : turn pool s p = .ok ((s.submitted input work
      ⟨.deviceBusy, none, input, { s.engine with busy := s.engine.busy.next },
        s.pools.resources⟩).handleBusy p) := by
    unfold turn
    rw [hf]
    simp only [hinput, hask, bind, Except.bind, hstream, ↓reduceIte]
    rfl
  obtain ⟨t, ht, hbusy, hanswer⟩ := handleBusy_satOut (s.submitted input work
    ⟨.deviceBusy, none, input, { s.engine with busy := s.engine.busy.next }, s.pools.resources⟩) p
  rw [hturn]
  refine ⟨t, hsubmitted.trans ht, hbusy, ?_⟩
  rcases hanswer with ⟨n, hn⟩ | ⟨hspent, hn⟩
  · exact Or.inl ⟨n, congrArg Except.ok hn⟩
  · exact Or.inr ⟨hspent, congrArg Except.ok hn⟩

/-- How a submission gets through a busy period: it runs out of free surfaces, or gives the device up
after all resets, or takes its other turns once the device is not busy any more. -/
theorem submitWithin_busy (fuel : Nat) {p : Submission} {x : Session SimulatedEngine × Submission}
    (hx : submitWithin pool fuel s p = .ok x) :
    x.2.starved = true ∧ x.2.stuck = p.stuck ∨
      (∃ n, SatOut s x.1 ∧ s.config.maxBusyResets ≤ n ∧
        x.2 = { p with resets := n, stuck := true }) ∨
      ∃ k left t n, s.engine.busy = .calls k ∧ fuel = k + left ∧ SatOut s t ∧
        t.engine.busy = .calls 0 ∧ submitWithin pool left t { p with resets := n } = .ok x := by
  induction fuel generalizing s p with
  | zero => cases hx
  | succ fuel ih =>
    by_cases hb : s.engine.busy = .calls 0
    · exact Or.inr (Or.inr ⟨0, fuel + 1, s, p.resets, hb, (Nat.zero_add _).symm, .refl s, hb, hx⟩)
    unfold submitWithin at hx
    cases hf : s.pools.freeSurface? pool with
    | none =>
      rw [turn_starved hf] at hx
      cases hx
      exact Or.inl ⟨rfl, rfl⟩
    | some free =>
      obtain ⟨index, work⟩ := free
      obtain ⟨t, ht, hbusy, ⟨n, hturn⟩ | ⟨hspent, hturn⟩⟩ := turn_busy hb hf p
      -- One busy answer takes one turn, so that the turns left are those of a device without it.
      · rw [hturn] at hx
        have hconfig : t.config = s.config := by
          obtain ⟨_, _, _, _, hrest⟩ := ht.rest
          rw [hrest]
        rcases ih hx with hstarved | ⟨m, hsat, hm, hend⟩ |
          ⟨k, left, v, m, hk, hfuel, hsat, hcalm, hrest⟩
        · exact Or.inl hstarved
        · exact Or.inr (Or.inl ⟨m, ht.trans hsat, hconfig ▸ hm, hend⟩)
        · have hnext : s.engine.busy = .calls (k + 1) := by
            rw [hbusy] at hk
            rcases Busy.always_or_calls hb with h | ⟨j, h⟩
            · rw [h] at hk
              cases hk
            · rw [h] at hk
              have hj : j = k := Busy.calls.inj hk
              rw [h, hj]
          exact Or.inr (Or.inr ⟨k + 1, left, v, m, hnext, by omega, ht.trans hsat, hcalm, hrest⟩)
      · rw [hturn] at hx
        cases hx
        exact Or.inr (Or.inl ⟨p.resets, ht, hspent, rfl⟩)

/-! ## Calls -/

/-- The same session, with a device that is not busy. -/
def relieved (s : Session SimulatedEngine) : Session SimulatedEngine :=
  { s with engine := { s.engine with busy := .calls 0 } }

/-- A busy device has no say in what input is accepted. -/
theorem accept_relieved (data : Option Bytes) (s : Session SimulatedEngine) :
    s.relieved.accept data = (Except.map relieved) <$> s.accept data := by
  have hphase : s.relieved.phase = s.phase := rfl
  have happend : ∀ data, s.relieved.appendInput data =
      (Except.map relieved) <$> s.appendInput data := by
    intro data
    have hbuffer : s.relieved.buffer = s.buffer := rfl
    have hsize : s.relieved.lengthSize = s.lengthSize := rfl
    unfold appendInput
    rw [hbuffer, hsize]
    cases s.lengthSize with
    | none =>
      dsimp only
      cases blankEndOfSequence (s.buffer ++ data) <;> rfl
    | some size =>
      dsimp only
      cases toStartCodes size data with
      | error e => rfl
      | ok converted =>
        dsimp only
        cases blankEndOfSequence (s.buffer ++ converted) <;> rfl
  unfold accept
  rw [hphase]
  cases s.phase with
  | idle => rfl
  | closed => rfl
  | failed => rfl
  | opened =>
    cases data with
    | none => rfl
    | some data => exact happend data
  | ready =>
    cases data with
    | none => rfl
    | some data => exact happend data

theorem turnLimit_of_calls {k : Nat} (hb : s.engine.busy = .calls k) (bytes : Nat) :
    s.turnLimit bytes = k + s.relieved.turnLimit bytes := by
  have hpatience : DecodeEngine.patience s.engine = s.engine.injected.length + k := by
    change s.engine.patience = _
    rw [SimulatedEngine.patience, hb]
  have hrelieved : DecodeEngine.patience s.relieved.engine = s.engine.injected.length := rfl
  have hconfig : s.relieved.config = s.config := rfl
  unfold turnLimit
  rw [hpatience, hrelieved, hconfig]
  omega

theorem SatOut.withBuffer {b : Bytes} (h : SatOut { s with buffer := b } t) :
    SatOut s { t with buffer := s.buffer } where
  rest := by
    obtain ⟨_, _, _, _, rfl⟩ := h.rest
    exact ⟨_, _, _, _, rfl⟩
  stage := h.stage
  returned := h.returned

section Calls

variable {buffer : Bytes} {p : Submission} {dts pts : Option UInt64}
  {x : Except DecodeError DecodeStatus × Session SimulatedEngine}

theorem conclude_stuck (hp : p.stuck = true) (buffer : Bytes) (s : Session SimulatedEngine) :
    s.conclude buffer p = .ok (.ok { flushed := true }, { s with buffer := buffer }) := if_pos hp

theorem conclude_unstuck (hp : p.stuck = false) (buffer : Bytes) (s : Session SimulatedEngine) :
    Yields (s.conclude buffer p) fun x => ∀ status, x.1 = .ok status → status.flushed = false := by
  have hstatus : ∀ (u : Session SimulatedEngine) (status : DecodeStatus),
      (Except.ok (u.statusAfter p) : Except DecodeError DecodeStatus) = .ok status →
        status.flushed = false := by
    rintro u _ ⟨⟩
    rfl
  unfold conclude
  rw [if_neg (by rw [hp]; exact Bool.false_ne_true)]
  refine (leftover_sound buffer p).yields.bind fun rest _ => ?_
  dsimp only
  split
  · exact .pure nofun
  · split
    · exact (tidied_flushQueues _ _).bind fun u _ => .pure (hstatus u)
    · exact .pure (hstatus _)

theorem conclude_resets (buffer : Bytes) (p : Submission) (s : Session SimulatedEngine) :
    Yields (s.conclude buffer p) fun x => x.2.engine.resets = s.engine.resets := by
  have hflush : ∀ b engineEmpty, Yields (flushQueues engineEmpty { s with buffer := b })
      fun t => t.engine.resets = s.engine.resets := by
    refine fun b engineEmpty => (tidied_flushQueues engineEmpty _).mono fun t ht => ?_
    obtain ⟨_, _, _, he⟩ := ht.engine
    rw [he]
  exact (conclude_keeps (fun _ => rfl) hflush buffer p).mono fun x hx => hx.1

theorem decodeBuffer_eq_ok (hc : s.current = some pool) {flushing : Bool}
    (hx : s.decodeBuffer flushing dts pts = .ok x) :
    ∃ y, submitWithin pool (s.turnLimit s.buffer.length) { s with buffer := [] }
        { flushing := flushing, stream := ⟨s.buffer, 0, pts, dts⟩ } = .ok y ∧
      y.1.conclude s.buffer y.2 = .ok x := by
  rw [decodeBuffer_eq hc] at hx
  cases hy : submitWithin pool (s.turnLimit s.buffer.length) { s with buffer := [] }
      { flushing := flushing, stream := ⟨s.buffer, 0, pts, dts⟩ } with
  | error fault =>
    rw [hy] at hx
    cases hx
  | ok y =>
    rw [hy] at hx
    exact ⟨y, rfl, hx⟩

/-- A call resets the engine so often at most as is allowed. -/
theorem decodeBuffer_resets (hc : s.current = some pool)
    (hx : s.decodeBuffer false dts pts = .ok x) :
    x.2.engine.resets ≤ s.engine.resets + s.config.maxBusyResets := by
  obtain ⟨⟨t, p⟩, hy, hconclude⟩ := decodeBuffer_eq_ok hc hx
  have hcounted : Counted s.engine.resets s.config.maxBusyResets t p :=
    submitWithin_counted _ ⟨rfl, Nat.zero_le _, rfl⟩ _ hy
  have hresets : x.2.engine.resets = t.engine.resets := conclude_resets _ _ _ _ hconclude
  rw [hresets, hcounted.resets]
  exact Nat.add_le_add_left hcounted.bounded _

/-- A device that is given up was reset as often as is allowed, and nothing else has happened. -/
theorem decodeBuffer_flushed (hc : s.current = some pool)
    (hheld : s.engine.params.isSome = true) (hi : .deviceBusy ∉ s.engine.injected)
    (hx : s.decodeBuffer false dts pts = .ok x)
    (hflushed : ∃ status, x.1 = .ok status ∧ status.flushed = true) :
    SatOut s x.2 ∧ x.2.engine.resets = s.engine.resets + s.config.maxBusyResets := by
  obtain ⟨⟨t, p⟩, hy, hconclude⟩ := decodeBuffer_eq_ok hc hx
  have hstuck : p.stuck = true := by
    obtain ⟨status, hstatus, hflush⟩ := hflushed
    by_contra hp
    have hnot := conclude_unstuck (Bool.eq_false_iff.mpr hp) _ _ _ hconclude status hstatus
    rw [hflush] at hnot
    cases hnot
  have hcounted : Counted s.engine.resets s.config.maxBusyResets t p :=
    submitWithin_counted _ ⟨rfl, Nat.zero_le _, rfl⟩ _ hy
  rw [conclude_stuck hstuck] at hconclude
  cases hconclude
  rcases submitWithin_busy _ hy with
    ⟨-, hsame⟩ | ⟨n, hsat, hspent, hend⟩ | ⟨k, left, u, n, -, -, hsat, hb, hrest⟩
  · exact absurd (hsame.symm.trans hstuck) Bool.false_ne_true
  · refine ⟨hsat.withBuffer, ?_⟩
    have hbounded := hcounted.bounded
    have hresets := hcounted.resets
    have hend : p = _ := hend
    rw [hend] at hbounded hresets
    exact hresets.trans (congrArg (s.engine.resets + ·) (Nat.le_antisymm hbounded hspent))
  · have hsame : p.stuck = false := submitWithin_calm left (hsat.calm hheld hi hb) _ _ hrest
    exact absurd (hsame.symm.trans hstuck) Bool.false_ne_true

/-- Whether a surface was free at every turn in which the buffer is handed over. -/
def isSupplied (dts pts : Option UInt64) (s : Session SimulatedEngine) : Bool :=
  match { s with buffer := [] }.submit ⟨s.buffer, 0, pts, dts⟩ false with
  | .ok (.ok p, _) => !p.starved
  | _ => true

theorem isSupplied_eq_true (h : s.isSupplied dts pts = true) (hc : s.current = some pool)
    {y : Session SimulatedEngine × Submission}
    (hy : submitWithin pool (s.turnLimit s.buffer.length) { s with buffer := [] }
      { flushing := false, stream := ⟨s.buffer, 0, pts, dts⟩ } = .ok y) : y.2.starved = false := by
  have hsubmit : submit ⟨s.buffer, 0, pts, dts⟩ false { s with buffer := [] } =
      .ok (.ok y.2, y.1) := by
    rw [submit_eq (s := { s with buffer := [] }) hc]
    change submitWithin pool (s.turnLimit s.buffer.length) { s with buffer := [] }
      { flushing := false, stream := ⟨s.buffer, 0, pts, dts⟩ } >>= _ = _
    rw [hy]
    rfl
  unfold isSupplied at h
  rw [hsubmit] at h
  simpa using h

/-- A call that gets through ends like that on a device that is not busy, as long as no surface is
missing. -/
theorem decodeBuffer_relieved (hc : s.current = some pool) (hheld : s.engine.params.isSome = true)
    (hi : .deviceBusy ∉ s.engine.injected) (hx : s.decodeBuffer false dts pts = .ok x)
    (hthrough : ∀ status, x.1 = .ok status → status.flushed = false)
    (hfree : s.isSupplied dts pts = true) (hfree' : s.relieved.isSupplied dts pts = true) :
    Returns (s.relieved.decodeBuffer false dts pts) fun y =>
      y.1 = x.1 ∧ y.2.prospect = x.2.prospect := by
  obtain ⟨⟨t, p⟩, hy, hconclude⟩ := decodeBuffer_eq_ok hc hx
  have hfed : p.starved = false := isSupplied_eq_true hfree hc hy
  rcases submitWithin_busy _ hy with
    ⟨hstarved, -⟩ | ⟨n, -, -, hend⟩ | ⟨k, left, u, n, hk, hleft, hsat, hb, hrest⟩
  · exact absurd (hfed.symm.trans hstarved) Bool.false_ne_true
  · have hstuck : p.stuck = true := congrArg Submission.stuck hend
    rw [conclude_stuck hstuck] at hconclude
    cases hconclude
    cases hthrough _ rfl
  -- The turns left after the busy answers are as many as the call has without them.
  · have hlimit : s.relieved.turnLimit s.relieved.buffer.length = left := by
      have hall : s.turnLimit s.buffer.length = k + s.relieved.turnLimit s.relieved.buffer.length :=
        turnLimit_of_calls hk _
      have hsame : s.turnLimit s.buffer.length = k + left := hleft
      omega
    have hprospect : ({ s.relieved with buffer := [] } : Session SimulatedEngine).prospect =
        u.prospect := (hsat.prospect hheld).symm
    have hfed' : ∀ y, submitWithin pool left { s.relieved with buffer := [] }
        { flushing := false, stream := ⟨s.buffer, 0, pts, dts⟩ } = .ok y → y.2.starved = false := by
      rw [← hlimit]
      exact fun y hy => isSupplied_eq_true hfree' hc hy
    obtain ⟨⟨v, _⟩, hend, hprospects, rfl⟩ :=
      submitWithin_outline left (n := 0) hprospect (hsat.calm hheld hi hb) ⟨rfl, hi⟩ hrest hfed hfed'
    have hend : submitWithin pool left { s.relieved with buffer := [] }
        { flushing := false, stream := ⟨s.buffer, 0, pts, dts⟩ } = .ok (v, _) := hend
    have hends := conclude_outline hprospects s.buffer p 0
    rw [hconclude] at hends
    rw [decodeBuffer_eq (s := s.relieved) hc, hlimit]
    change Returns (submitWithin pool left { s.relieved with buffer := [] }
      { flushing := false, stream := ⟨s.buffer, 0, pts, dts⟩ } >>= _) _
    rw [hend]
    exact hends.returns

theorem decode_of_ready {data : Bytes} (ha : s.accept (some data) = .ok (.ok t))
    (hp : t.phase = .ready) (dts pts : Option UInt64) :
    s.decode (some data) dts pts = (do
      let x ← t.decodeBuffer false dts pts
      return answered x) := by
  rw [decode_eq, tryDecode_of_accept ha, advance_of_ready hp, Option.isNone_some]

theorem answered_engine (x : Except DecodeError DecodeStatus × Session SimulatedEngine) :
    (answered x).2.engine = x.2.engine :=
  answered_keeps (q := fun s => s.engine = x.2.engine) rfl fun _ h => h

theorem answered_ok {x : Except DecodeError DecodeStatus × Session SimulatedEngine}
    {status : DecodeStatus} (h : x.1 = .ok status) : answered x = (status, x.2) := by
  obtain ⟨_, u⟩ := x
  cases h
  rfl

theorem answered_flushed {x : Except DecodeError DecodeStatus × Session SimulatedEngine}
    (h : (answered x).1.flushed = true) :
    (∃ status, x.1 = .ok status ∧ status.flushed = true) ∧ (answered x).2 = x.2 := by
  obtain ⟨answer, u⟩ := x
  cases answer with
  | ok status => exact ⟨⟨status, rfl, h⟩, rfl⟩
  | error e => cases h

theorem answered_outline {x y : Except DecodeError DecodeStatus × Session SimulatedEngine}
    (hanswer : y.1 = x.1) (h : y.2.prospect = x.2.prospect) :
    (answered y).1 = (answered x).1 ∧ (answered y).2.prospect = (answered x).2.prospect := by
  obtain ⟨answer, u⟩ := x
  obtain ⟨_, v⟩ := y
  cases hanswer
  cases answer with
  | ok status => exact ⟨rfl, h⟩
  | error e =>
    unfold answered
    dsimp only
    split
    · exact ⟨rfl, congrArg (fun p : Prospect => { p with phase := .failed }) h⟩
    · exact ⟨rfl, h⟩

end Calls

end Session

namespace Client

open Session

variable {c : Client SimulatedEngine} {op : Operation} {pool : PoolId}
  {s t : Session SimulatedEngine} {p : Submission}

/-- The same client, with a device that is not busy. -/
def relieved (c : Client SimulatedEngine) : Client SimulatedEngine :=
  { c with session := c.session.relieved }

theorem Turns.counted {data : Option Bytes} {dts pts : Option UInt64}
    (hp : c.session.phase = .ready) (h : c.Turns (.decode data dts pts) pool s p) :
    Counted c.session.engine.resets c.session.config.maxBusyResets s p := by
  induction h with
  | @first s t u data dts pts hd ht hu hcur =>
    cases hd with
    | decode dts pts =>
      obtain ⟨b, rfl⟩ := (accept_sound data c.session).result ht t rfl
      have harrange : Session.arrange data.isNone { c.session with buffer := b } =
          .ok (.ok true, { c.session with buffer := b }) := if_pos hp
      cases harrange.symm.trans hu
      exact ⟨rfl, Nat.zero_le _, rfl⟩
  | next _ ht ih => exact turn_counted ih _ ht

/-- A busy device costs nothing but time. A call resets the engine so often at most as is allowed. It
gives up only after all these resets, and then no surface has come back, and queues, pictures and phase
are as before, with the new input in the buffer. Any other call for which surfaces are free answers what
it would have answered, returns the same views of the same pictures, and leaves the same input, if the
device had not been busy at all. -/
theorem Reachable.busy_sat_out (h : c.Reachable) (hp : c.session.phase = .ready)
    (hi : .deviceBusy ∉ c.session.engine.injected) {data : Bytes} {t : Session SimulatedEngine}
    (ha : c.session.accept (some data) = .ok (.ok t)) (dts pts : Option UInt64) :
    (∀ pool s p, c.Turns (.decode (some data) dts pts) pool s p →
      s.engine.resets = c.session.engine.resets + p.resets ∧
        p.resets ≤ c.session.config.maxBusyResets) ∧
    ∀ status s, c.session.decode (some data) dts pts = .ok (status, s) →
      s.engine.resets ≤ c.session.engine.resets + c.session.config.maxBusyResets ∧
      (status.flushed = true →
        s.engine.resets = c.session.engine.resets + c.session.config.maxBusyResets ∧
        s.returned = c.session.returned ∧ s.queues = c.session.queues ∧
        s.pictures = c.session.pictures ∧ s.phase = .ready ∧ s.buffer = t.buffer) ∧
      (status.flushed = false → t.isSupplied dts pts = true →
        t.relieved.isSupplied dts pts = true →
        Returns (c.relieved.session.decode (some data) dts pts) fun x =>
          x.1 = status ∧ x.2.returned = s.returned ∧ x.2.buffer = s.buffer ∧
            x.2.prospect = s.prospect) := by
  have hsettled := h.settled
  obtain ⟨hready, -⟩ := hsettled.ready hp
  obtain ⟨pool, hcur⟩ := Option.isSome_iff_exists.mp (hsettled.active (Or.inr hp))
  have hheld : c.session.engine.params.isSome = true := hsettled.attuned.held.trans hready
  obtain ⟨b, rfl⟩ := (accept_sound (some data) c.session).result ha t rfl
  have ha' : c.relieved.session.accept (some data) =
      .ok (.ok { c.session with buffer := b }.relieved) := by
    have hsame := accept_relieved (some data) c.session
    rw [ha] at hsame
    exact hsame
  refine ⟨fun pool s p hturn => ?_, fun status s hdecode => ?_⟩
  · have hcounted := hturn.counted hp
    exact ⟨hcounted.resets, hcounted.bounded⟩
  · rw [decode_of_ready ha hp] at hdecode
    cases hx : decodeBuffer false dts pts { c.session with buffer := b } with
    | error fault =>
      rw [hx] at hdecode
      cases hdecode
    | ok x =>
      rw [hx] at hdecode
      have hend : answered x = (status, s) := Except.ok.inj hdecode
      have hengine := answered_engine x
      have hflushed := answered_flushed (x := x)
      rw [hend] at hengine hflushed
      dsimp only at hengine hflushed
      refine ⟨?_, fun hf => ?_, fun hf hfree hfree' => ?_⟩
      · rw [hengine]
        exact decodeBuffer_resets (s := { c.session with buffer := b }) hcur hx
      · obtain ⟨hstatus, hs⟩ := hflushed hf
        obtain ⟨hsat, hresets⟩ :=
          decodeBuffer_flushed (s := { c.session with buffer := b }) hcur hheld hi hx hstatus
        have hreturned : s.returned = c.session.returned := hs ▸ hsat.returned
        obtain ⟨_, _, _, _, hrest⟩ := hsat.rest
        rw [← hs] at hrest
        refine ⟨hengine ▸ hresets, hreturned, ?_, ?_, ?_, ?_⟩
        · rw [hrest]
        · rw [hrest]
        · rw [hrest]
          exact hp
        · rw [hrest]
      · have hthrough : ∀ status, x.1 = .ok status → status.flushed = false := by
          intro status' hstatus
          have hsame := answered_ok hstatus
          rw [hend] at hsame
          cases hsame
          exact hf
        obtain ⟨y, hy, hanswer, hprospect⟩ := decodeBuffer_relieved
          (s := { c.session with buffer := b }) hcur hheld hi hx hthrough hfree hfree'
        obtain ⟨hanswers, hprospects⟩ := answered_outline hanswer hprospect
        rw [hend] at hanswers hprospects
        rw [decode_of_ready ha' hp, hy]
        refine ⟨answered y, rfl, hanswers, ?_, ?_, hprospects⟩
        · exact congrArg Prospect.returned hprospects
        · exact congrArg Prospect.buffer hprospects

/-- A stream was decoded before the device gets busy. The second of its answers is sat out. -/
def busyRun (busy : Busy) : Outcome (Client SimulatedEngine) :=
  (start {} { asyncDepth := 0, busyTooLong := fun n => n != 1 } none).run
    [.open {} {}, .decode (some stereoUnits) none none, .prepare (.busy busy)]

/-- A device that is busy twice is reset once, and the call returns the views of a whole picture as if
the device had not been busy. -/
theorem busyRun_sat_out : ∃ c t status s,
    busyRun (.calls 2) = .ok c ∧ c.session.accept (some stereoUnits) = .ok (.ok t) ∧
      c.session.decode (some stereoUnits) none none = .ok (status, s) ∧
      s.engine.resets = 1 ∧ s.returned.length = 6 ∧
      Returns (c.relieved.session.decode (some stereoUnits) none none) fun x =>
        x.1 = status ∧ x.2.returned = s.returned ∧ x.2.buffer = s.buffer := by
  have hrun : (busyRun (.calls 2)).toOption.bind (fun c =>
      (c.session.accept (some stereoUnits)).toOption.bind fun answer => answer.toOption.bind fun t =>
        (c.session.decode (some stereoUnits) none none).toOption.map fun x =>
          ((c.session.phase, c.session.engine.injected),
            (t.isSupplied none none, t.relieved.isSupplied none none),
            x.1.flushed, x.2.engine.resets, x.2.returned.length)) =
      some ((.ready, []), (true, true), false, 1, 6) := by decide +kernel
  obtain ⟨c, hc, hrun⟩ := Option.bind_eq_some_iff.mp hrun
  obtain ⟨answer, hanswer, hrun⟩ := Option.bind_eq_some_iff.mp hrun
  obtain ⟨t, ht, hrun⟩ := Option.bind_eq_some_iff.mp hrun
  obtain ⟨⟨status, s⟩, hdecode, hrun⟩ := Option.map_eq_some_iff.mp hrun
  obtain ⟨hbefore, hrun⟩ := Prod.mk.inj hrun
  obtain ⟨hfree, hafter⟩ := Prod.mk.inj hrun
  obtain ⟨hphase, hinjected⟩ := Prod.mk.inj hbefore
  obtain ⟨hsupplied, hrelieved⟩ := Prod.mk.inj hfree
  obtain ⟨hflushed, hcounts⟩ := Prod.mk.inj hafter
  obtain ⟨hresets, hreturned⟩ := Prod.mk.inj hcounts
  have hc := eq_ok_of_toOption hc
  have ha : c.session.accept (some stereoUnits) = .ok (.ok t) :=
    (eq_ok_of_toOption hanswer).trans (congrArg Except.ok (eq_ok_of_toOption ht))
  have hdecode := eq_ok_of_toOption hdecode
  have hi : .deviceBusy ∉ c.session.engine.injected := by
    rw [hinjected]
    exact List.not_mem_nil
  have hreach : c.Reachable := ⟨_, _, _, _, _, hc⟩
  have hcall := (Reachable.busy_sat_out hreach hphase hi ha none none).2 status s hdecode
  refine ⟨c, t, status, s, hc, ha, hdecode, hresets, hreturned, ?_⟩
  exact (hcall.2.2 hflushed hsupplied hrelieved).mono fun x hx => ⟨hx.1, hx.2.1, hx.2.2.1⟩

/-- A device that is busy for good is given up after one reset. -/
example : (busyRun .always).toOption.bind (fun c =>
    (c.session.decode (some stereoUnits) none none).toOption.map fun x =>
      (x.1.flushed, x.2.engine.resets, x.2.returned.length, x.2.buffer)) =
    some (true, 1, 3, stereoUnits) := by decide +kernel

end Client

end Multiview
