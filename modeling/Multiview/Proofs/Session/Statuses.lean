import Multiview.Proofs.Session.Draining

/-!
What the status of a call tells the client. A submission ends because no surface is free, because the
device is given up, or because of an answer that is no success; the status is put together from that, the
drain flag and the pictures that wait. So it always tells the client what to do next.
-/

namespace Multiview

open Outcome

namespace Submission

/-- So far no surface was missing, and the device was not given up. -/
def GoesOn (p : Submission) : Prop := p.starved = false ∧ p.stuck = false

end Submission

namespace Session

variable {s t u : Session SimulatedEngine} {pool : PoolId} {p q : Submission}

/-! ## The end of a submission -/

/-- How the last turn of a submission ends it. -/
inductive LastTurn (pool : PoolId) (s : Session SimulatedEngine) (p : Submission) :
    Session SimulatedEngine → Submission → Prop
  /-- There was no free surface to hand over. -/
  | starved (hf : s.pools.freeSurface? pool = none) : LastTurn pool s p s { p with starved := true }
  /-- The device was given up. -/
  | stuck {t : Session SimulatedEngine} {q : Submission} (hq : q.stuck = true) : LastTurn pool s p t q
  /-- The engine wants more data, or failed. -/
  | refused {t : Session SimulatedEngine} {q : Submission} (hq : q.GoesOn)
      (he : q.status.isError = true) (hm : q.status ≠ .moreSurface) : LastTurn pool s p t q

theorem handleBusy_last (hp : p.GoesOn) (t : Session SimulatedEngine) :
    ((t.handleBusy p).1 = true → (t.handleBusy p).2.2.GoesOn) ∧
      ((t.handleBusy p).1 = false → LastTurn pool s q (t.handleBusy p).2.1 (t.handleBusy p).2.2) := by
  unfold handleBusy
  dsimp only
  split
  · exact ⟨fun _ => hp, nofun⟩
  · split
    · exact ⟨nofun, fun _ => .stuck rfl⟩
    · exact ⟨fun _ => hp, nofun⟩

theorem handleAnswer_last (hp : p.GoesOn) (status : EngineStatus) (output : Option DecodedSurface)
    (t : Session SimulatedEngine) :
    Yields (t.handleAnswer pool status output p) fun x =>
      (x.1 = true → x.2.2.GoesOn) ∧ (x.1 = false → LastTurn pool s q x.2.1 x.2.2) := by
  unfold handleAnswer
  dsimp only
  split
  · exact .ok ⟨fun _ => hp, nofun⟩
  · split
    · split
      · exact .pure ⟨fun _ => hp, nofun⟩
      · exact Yields.bind (p := fun _ => True) (fun _ _ => trivial) fun _ _ =>
          .pure ⟨fun _ => hp, nofun⟩
    · refine .ok ⟨fun _ => hp, fun hstop => ?_⟩
      obtain ⟨hmore, herror⟩ : status ≠ .moreSurface ∧ status.isError = true := by
        simpa using hstop
      exact .refused hp herror hmore

/-- A turn goes on without surfaces missing, or ends the submission. -/
theorem turn_last (hp : p.GoesOn) :
    Yields (turn pool s p) fun x =>
      (x.1 = true → x.2.2.GoesOn) ∧ (x.1 = false → LastTurn pool s p x.2.1 x.2.2) := by
  cases hf : s.pools.freeSurface? pool with
  | none =>
    rw [turn_starved hf]
    exact .ok ⟨nofun, fun _ => .starved hf⟩
  | some free =>
    unfold turn
    rw [hf]
    refine Yields.bind (p := fun _ => True) (fun _ _ => trivial) ?_
    rintro ⟨status, output, stream, t⟩ -
    have hq : ({ p with stream := stream.getD p.stream } : Submission).GoesOn := hp
    dsimp only
    split
    · exact .pure (handleBusy_last hq t)
    · exact handleAnswer_last hq status output t

/-- What is kept by turns that go on holds before the last turn of a submission. -/
theorem submitWithin_last {r : Session SimulatedEngine → Submission → Prop}
    (hnext : ∀ s p t q, r s p → turn pool s p = .ok (true, t, q) → r t q) (fuel : Nat)
    (h : r s p) :
    Yields (submitWithin pool fuel s p) fun x =>
      ∃ t q, r t q ∧ turn pool t q = .ok (false, x.1, x.2) := by
  induction fuel generalizing s p with
  -- Out of turns the submission has no result.
  | zero => exact .error _
  | succ fuel ih =>
    unfold submitWithin
    refine Yields.bind (fun a ha => ha) ?_
    rintro ⟨goOn, t, q⟩ hturn
    cases goOn with
    | true => exact ih (hnext s p t q h hturn)
    | false => exact .pure ⟨s, p, h, hturn⟩

/-! ## The status -/

/-- Either the device was given up, or the engine failed, or the status tells of the queues as they are.
Without the drain flag nothing but the input is settled. -/
theorem conclude_status (buffer : Bytes) (p : Submission) (s : Session SimulatedEngine) :
    Yields (s.conclude buffer p) fun x =>
      x.1 = .ok { flushed := true } ∨ (∃ e, x.1 = .error e) ∨
        p.stuck = false ∧ (p.status.isError = true → p.status = .moreData ∨ p.status = .moreSurface) ∧
          x.1 = .ok (x.2.statusAfter p) ∧
          (x.2.control.isDraining = false → ∃ rest, x.2 = { s with buffer := rest }) := by
  unfold conclude
  split
  · exact .pure (.inl rfl)
  · rename_i hstuck
    have hstuck : p.stuck = false := Bool.eq_false_iff.mpr hstuck
    refine Yields.bind (p := fun _ => True) (fun _ _ => trivial) fun rest _ => ?_
    dsimp only
    split
    · exact .pure (.inr (.inl ⟨_, rfl⟩))
    · rename_i hverdict
      have hstatus : p.status.isError = true → p.status = .moreData ∨ p.status = .moreSurface := by
        intro he
        by_contra hne
        obtain ⟨hdata, hsurface⟩ := not_or.mp hne
        rw [verdict_of_isError hdata hsurface he] at hverdict
        cases hverdict
      split
      · rename_i hdraining
        refine (tidied_flushQueues _ _).bind fun t ht => .pure ?_
        refine .inr (.inr ⟨hstuck, hstatus, rfl, ?_⟩)
        obtain ⟨_, _, _, _, rfl⟩ := ht.rest
        intro hnot
        exact absurd hdraining (Bool.eq_false_iff.mp hnot)
      · exact .pure (.inr (.inr ⟨hstuck, hstatus, rfl, fun _ => ⟨rest, rfl⟩⟩))

/-- What a status tells of the pictures that wait. -/
structure Tells (status : DecodeStatus) (s : Session SimulatedEngine) : Prop where
  kind : status = { error := true } ∨ status = { flushed := true } ∨
    status.error = false ∧ status.flushed = false ∧
      (status.needInput = true ∨ status.pictureReady = true)
  waits : status.pictureReady = true → s.pictures ≠ []
  ready : s.phase = .ready → status.error = false → status.flushed = false →
    (status.pictureReady = true ↔ s.pictures ≠ [])

theorem tells_error (s : Session SimulatedEngine) : Tells { error := true } s :=
  ⟨.inl rfl, nofun, fun _ => nofun⟩

theorem tells_flushed (s : Session SimulatedEngine) : Tells { flushed := true } s :=
  ⟨.inr (.inl rfl), nofun, fun _ _ => nofun⟩

/-- A session that waits for a header takes more input. -/
theorem tells_waiting (hp : s.phase ≠ .ready) : Tells { needInput := true } s :=
  ⟨.inr (.inr ⟨rfl, rfl, .inl rfl⟩), nofun, fun hr => absurd hr hp⟩

theorem pictureReady_statusAfter (p : Submission) (s : Session SimulatedEngine) :
    (s.statusAfter p).pictureReady = true ↔ s.pictures ≠ [] := by
  unfold statusAfter
  cases s.pictures <;> simp

/-- At the end of the input, and without a surface for more of it, the status is not empty. -/
theorem tells_statusAfter (hp : p.starved = true ∨ p.status = .moreData)
    (s : Session SimulatedEngine) : Tells (s.statusAfter p) s := by
  have hready := pictureReady_statusAfter p s
  refine ⟨.inr (.inr ⟨rfl, rfl, ?_⟩), hready.mp, fun _ _ _ => hready⟩
  by_cases hpictures : s.pictures = []
  · left
    unfold statusAfter
    rcases hp with hp | hp
    · simp [hp, hpictures]
    · simp [hp, hpictures]
  · exact .inr (hready.mpr hpictures)

theorem needInput_statusAfter (hp : p.status = .moreData) (hd : s.control.isDraining = false) :
    (s.statusAfter p).needInput = true := by
  unfold statusAfter
  simp [hp, hd]

/-! ## Setting up -/

theorem control_retire (s : Session SimulatedEngine) : s.retire.control = s.control := by
  have hclosed : s.closeEngineDecoder.control = s.control := by
    unfold closeEngineDecoder
    split <;> rfl
  unfold retire
  dsimp only
  split
  · change s.closeEngineDecoder.releasePool.control = s.control
    rw [releasePool_rest]
    exact hclosed
  · rfl

theorem control_startEngine (pool : PoolId) (s : Session SimulatedEngine) :
    Yields (s.startEngine pool) fun x => x.2.control = s.control := by
  have hframes : Yields (s.allocateFrames pool) fun x => x.2.control = s.control := by
    refine (allocateFrames_cases pool s).mono ?_
    rintro x ⟨t, ht, -, ⟨e, -, rfl⟩ | ⟨request, memory, hsupply⟩⟩
    · rw [ht.rest]
    · obtain ⟨_, _, _, pools, -, _, ⟨-, rfl⟩ | ⟨_, _, -, rfl⟩⟩ := supplyFrames_cases _ _ _ _ _ hsupply
      · change t.control = s.control
        rw [ht.rest]
      · change t.control = s.control
        rw [ht.rest]
  unfold startEngine
  refine hframes.bind ?_
  rintro ⟨answer, t⟩ ht
  cases answer with
  | error e => exact .pure ht
  | ok u =>
    dsimp only
    split
    · exact .pure ht
    · split
      · exact .pure ht
      · exact .pure ht

/-- The drain flag is kept. If there was no header, the session still waits for one. -/
theorem setUp_waits (hs : Settled s) (hp : s.phase = .opened) :
    Yields s.setUp fun x => x.2.control = s.control ∧ (x.1 = .ok false → x.2.phase = .opened) := by
  obtain ⟨-, hphase, -⟩ := hs.retire hp
  unfold setUp
  dsimp only
  rw [← control_retire s]
  generalize s.retire = t at hphase ⊢
  split
  · exact .pure ⟨rfl, nofun⟩
  · rename_i pool _
    refine (talked_probeHeader t).bind ?_
    rintro ⟨status, u⟩ ⟨ht, -⟩
    have ht : Talked t u := ht
    have hcontrol : u.control = t.control := by rw [ht.rest]
    dsimp only
    split
    · refine .pure ⟨hcontrol, fun _ => ?_⟩
      change u.phase = .opened
      rw [ht.rest]
      exact hphase
    · split
      · exact .pure ⟨hcontrol, nofun⟩
      · refine (control_startEngine pool u).bind ?_
        rintro ⟨answer, v⟩ hv
        refine .pure ⟨hv.trans hcontrol, fun h => ?_⟩
        cases answer <;> cases h

/-- A session that is not ready for input after all waits for a header. -/
theorem arrange_waits (flushing : Bool) (hs : Settled s) (ha : Active s) :
    Yields (s.arrange flushing) fun x => x.2.control = s.control ∧
      (x.1 = .ok false → x.2.phase = .opened) := by
  unfold arrange
  split
  · exact .ok ⟨rfl, nofun⟩
  · rename_i hp
    have hopened : s.phase = .opened := ha.resolve_right hp
    split
    · exact .ok ⟨rfl, fun _ => hopened⟩
    · exact setUp_waits hs hopened

end Session

namespace Client

open Session

variable {c : Client SimulatedEngine} {op : Operation} {s : Session SimulatedEngine}
  {data : Option Bytes}

/-- In an operation a submission stopped because no surface of the current pool is free. -/
def StopsStarved (c : Client SimulatedEngine) (op : Operation) (t : Session SimulatedEngine) : Prop :=
  ∃ pool s p, c.Turns op pool s p ∧ s.pools.freeSurface? pool = none ∧
    t.current = some pool ∧ t.pools.freeSurface? pool = none

/-- What the status of an operation tells, and what it means that no more input can be taken. -/
structure Told (c : Client SimulatedEngine) (op : Operation) (status : DecodeStatus)
    (t : Session SimulatedEngine) : Prop where
  tells : Tells status t
  starved : t.control.isDraining = false → status.error = false → status.flushed = false →
    status.needInput = false → c.StopsStarved op t

theorem told_submission {pool : PoolId} {p : Submission} (hc : Session.Accounted c.references c.session)
    (hfirst : c.Turns op pool s p) (hp : p.GoesOn) (fuel : Nat) (buffer : Bytes) :
    Yields (do
      let x ← submitWithin pool fuel s p
      x.1.conclude buffer x.2) fun x => ∀ status, x.1 = .ok status → Told c op status x.2 := by
  have hnext : ∀ s p t q, c.Turns op pool s p ∧ p.GoesOn → turn pool s p = .ok (true, t, q) →
      c.Turns op pool t q ∧ q.GoesOn :=
    fun s p t q h hturn => ⟨h.1.next hturn, (turn_last h.2 _ hturn).1 rfl⟩
  refine (submitWithin_last hnext fuel ⟨hfirst, hp⟩).bind ?_
  rintro ⟨t, q⟩ ⟨s', p', ⟨hturns, hgo⟩, hlast⟩
  have hlastTurn : LastTurn pool s' p' t q := (turn_last hgo _ hlast).2 rfl
  refine (conclude_status buffer q t).mono ?_
  rintro ⟨answer, u⟩ hend status hanswer
  dsimp only at hend hanswer ⊢
  rcases hend with rfl | ⟨e, rfl⟩ | ⟨hstuck, hstatus, rfl, hrest⟩
  · cases hanswer
    exact ⟨tells_flushed u, fun _ _ => nofun⟩
  · cases hanswer
  · cases hanswer
    cases hlastTurn with
    | starved hf =>
      refine ⟨tells_statusAfter (.inl rfl) u, fun hd _ _ _ => ⟨pool, t, p', hturns, hf, ?_⟩⟩
      obtain ⟨rest, rfl⟩ := hrest hd
      exact ⟨(hturns.accounted hc).2.current, hf⟩
    | stuck hq =>
      rw [hstuck] at hq
      cases hq
    | refused _ he hm =>
      have hdata : q.status = .moreData := (hstatus he).resolve_right hm
      refine ⟨tells_statusAfter (.inr hdata) u, fun hd _ _ hfull => ?_⟩
      rw [needInput_statusAfter hdata hd] at hfull
      cases hfull

theorem Decodes.tryDecode_told (hd : c.Decodes op s data) (hs : Settled s)
    (hc : Session.Accounted c.references c.session) (dts pts : Option UInt64) :
    Yields (s.tryDecode data dts pts) fun x => x.2.control = s.control ∧
      ∀ status, x.1 = .ok status → Told c op status x.2 := by
  unfold tryDecode
  refine Yields.bind (fun a ha => ha) ?_
  rintro answer haccept
  obtain ⟨ha, ⟨e, rfl⟩ | ⟨b, rfl⟩⟩ | ⟨-, rfl | rfl⟩ := accept_cases data s _ haccept
  · exact .pure ⟨rfl, nofun⟩
  · have hb := hs.buffer ha b
    unfold advance
    refine Yields.bind (fun a ha => ha) ?_
    rintro ⟨answer, u⟩ harrange
    obtain ⟨hcontrol, hwaits⟩ := arrange_waits data.isNone hb ha _ harrange
    dsimp only at hcontrol hwaits
    cases answer with
    | error e => exact .pure ⟨hcontrol, nofun⟩
    | ok ready =>
      cases ready with
      | false =>
        -- The header is not complete yet, and nothing is submitted.
        refine .pure ⟨hcontrol, fun status hstatus => ?_⟩
        cases hstatus
        exact ⟨tells_waiting (by rw [hwaits rfl]; nofun), fun _ _ _ => nofun⟩
      | true =>
        obtain ⟨hu, hactive, -, hready⟩ := arrange_settled data.isNone hb ha _ harrange
        have hserving := hu.attuned.serving (hu.ready (hready rfl)).1
        obtain ⟨pool, hcur⟩ := Option.isSome_iff_exists.mp (hu.active hactive)
        have htold := told_submission hc (.first dts pts hd haccept harrange hcur) ⟨rfl, rfl⟩
          (u.turnLimit u.buffer.length) u.buffer
        intro x hx
        have hx : u.decodeBuffer data.isNone dts pts = .ok x := hx
        have hserved := (served_decodeBuffer _ dts pts hserving (hu.active hactive) x hx).1
        rw [decodeBuffer_eq hcur] at hx
        exact ⟨hserved.control.trans hcontrol, htold x hx⟩
  · exact .pure ⟨rfl, nofun⟩
  · exact .pure ⟨rfl, nofun⟩

theorem Decodes.told (hd : c.Decodes op s data) (hs : Settled s)
    (hc : Session.Accounted c.references c.session) (dts pts : Option UInt64) :
    Yields (s.decode data dts pts) fun x => x.2.control = s.control ∧ Told c op x.1 x.2 := by
  unfold Session.decode
  refine (hd.tryDecode_told hs hc dts pts).bind ?_
  rintro ⟨answer, t⟩ ⟨hcontrol, ht⟩
  cases answer with
  | ok status => exact .pure ⟨hcontrol, ht status rfl⟩
  | error e =>
    -- A fatal error ends the session, which leaves its flags alone.
    refine .pure ⟨?_, tells_error _, fun _ => nofun⟩
    dsimp only
    split
    · exact hcontrol
    · exact hcontrol

/-- A picture that waits can be taken. -/
theorem getPicture_isSome (hc : Session.Accounted c.references c.session) :
    c.session.getPicture.isSome = true ↔ c.session.pictures ≠ [] := by
  unfold getPicture
  cases hp : c.session.pictures with
  | nil => simp
  | cons id rest =>
    have hid : id ∈ c.session.pictures ++ c.references := by simp [hp]
    obtain ⟨x, -, hx, -⟩ := hc.exists_picture hid
    simp [hx]

/-- The flags that an operation decodes with. -/
def flagsOf (c : Client SimulatedEngine) : Operation → Control
  | .drain => c.session.control.union .drain
  | _ => c.session.control

/-- Only decoding is answered with a status. -/
theorem perform_status {c' : Client SimulatedEngine} {status : DecodeStatus}
    (h : c.perform op = .ok (.status status, c')) :
    ∃ s data dts pts t, c.Decodes op s data ∧ s.decode data dts pts = .ok (status, t) ∧
      c' = { c with session := t } ∧ s.control = c.flagsOf op ∧
      (Settled c.session → Settled s) := by
  cases op with
  | decode data dts pts =>
    unfold Client.perform at h
    dsimp only at h
    cases hdecode : c.session.decode data dts pts with
    | error fault =>
      rw [hdecode] at h
      cases h
    | ok x =>
      rw [hdecode] at h
      cases h
      exact ⟨_, _, dts, pts, x.2, .decode data dts pts, hdecode, rfl, rfl, id⟩
  | drain =>
    obtain ⟨_, t, hdrain, hanswer, rfl⟩ := perform_drain_eq h
    cases hanswer
    exact ⟨_, _, none, none, t, .drain, hdrain, rfl, rfl,
      fun hs => hs.control _⟩
  | «open» hints options =>
    unfold Client.perform at h
    dsimp only at h
    cases hopen : c.session.open hints options with
    | error fault =>
      rw [hopen] at h
      cases h
    | ok x =>
      rw [hopen] at h
      cases h
  | clear place =>
    have hnot : ∀ s, (c.clear place).1 ≠ .status s := by
      unfold Client.clear
      split <;> nofun
    exact absurd (congrArg Prod.fst (Except.ok.inj h)) (hnot status)
  | mark place =>
    have hnot : ∀ s, (c.mark place).1 ≠ .status s := by
      unfold Client.mark
      split <;> nofun
    exact absurd (congrArg Prod.fst (Except.ok.inj h)) (hnot status)
  | _ => cases h

/-- A client can go by the status of a call: it tells of an error, of a device that was given up, or what
to do next. -/
structure Reliable (c : Client SimulatedEngine) (op : Operation) (status : DecodeStatus)
    (c' : Client SimulatedEngine) : Prop where
  kind : status = { error := true } ∨ status = { flushed := true } ∨
    status.error = false ∧ status.flushed = false ∧
      (status.needInput = true ∨ status.pictureReady = true)
  /-- A picture that is announced can be taken. -/
  waits : status.pictureReady = true → c'.session.getPicture.isSome = true
  /-- A session that is ready announces every picture. -/
  ready : c'.session.phase = .ready → status.error = false → status.flushed = false →
    (status.pictureReady = true ↔ c'.session.getPicture.isSome = true)
  /-- Draining sets the drain flag, and decoding does not change it. -/
  control : c'.session.control = c.flagsOf op
  /-- Without the flag more input is refused only for want of a surface. -/
  starved : c'.session.control.isDraining = false → status.error = false →
    status.flushed = false → status.needInput = false → c.StopsStarved op c'.session

theorem Reachable.status_reliable (h : c.Reachable) {status : DecodeStatus}
    {c' : Client SimulatedEngine} (hop : c.perform op = .ok (.status status, c')) :
    Reliable c op status c' := by
  have hc' := (h.perform hop).accounted
  obtain ⟨s, data, dts, pts, t, hd, hdecode, rfl, hs, hsettled⟩ := perform_status hop
  obtain ⟨hcontrol, htells, hstarved⟩ := hd.told (hsettled h.settled) h.accounted dts pts _ hdecode
  have hpictures := getPicture_isSome hc'
  refine ⟨htells.kind, fun hr => hpictures.mpr (htells.waits hr), fun hp he hf => ?_,
    hcontrol.trans hs, hstarved⟩
  rw [hpictures]
  exact htells.ready hp he hf

/-- Parameter sets and more pictures of both views than the pool has room for. -/
def manyPictures : Bytes :=
  [0, 0, 1, 0x67, 1, 0, 0, 1, 0x6f, 1, 0, 0, 1, 0x68, 1] ++
    (List.replicate 8 [0, 0, 1, 0x65, 1, 0, 0, 1, 0x74, 1]).flatten

def openedRun : Outcome (Client SimulatedEngine) :=
  (start {} { asyncDepth := 0 } none).run [.open {} {}]

/-- All pictures that fit are ready, and for the others there is no surface. -/
theorem manyPictures_status : ∃ c c' : Client SimulatedEngine, c.Reachable ∧
    c.perform (.decode (some manyPictures) none none) = .ok (.status { pictureReady := true }, c') ∧
    c'.session.getPicture.isSome = true ∧
    c.StopsStarved (.decode (some manyPictures) none none) c'.session := by
  have hrun : openedRun.toOption.bind (fun c =>
      (c.session.decode (some manyPictures) none none).toOption.map fun x =>
        (x.1, x.2.control.isDraining)) = some ({ pictureReady := true }, false) := by decide +kernel
  obtain ⟨c, hc, hrun⟩ := Option.bind_eq_some_iff.mp hrun
  obtain ⟨⟨status, s⟩, hdecode, hrun⟩ := Option.map_eq_some_iff.mp hrun
  obtain ⟨hstatus, hflags⟩ := Prod.mk.inj hrun
  dsimp only at hstatus
  subst hstatus
  have hc := eq_ok_of_toOption hc
  have hdecode := eq_ok_of_toOption hdecode
  have hreach : c.Reachable := ⟨_, _, _, _, _, hc⟩
  have hop : c.perform (.decode (some manyPictures) none none) =
      .ok (.status { pictureReady := true }, { c with session := s }) := by
    unfold Client.perform
    dsimp only
    rw [hdecode]
    rfl
  have htold := Reachable.status_reliable hreach hop
  exact ⟨c, _, hreach, hop, htold.waits rfl, htold.starved hflags rfl rfl rfl⟩

end Client

end Multiview
