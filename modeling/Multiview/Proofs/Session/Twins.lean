import Multiview.Proofs.Engine.Framings
import Multiview.Proofs.Session.Guise
import Multiview.Proofs.Session.Playing

/-!
Two sessions that get the same units in different framings. They differ in their guise only, and in
their buffers are the same units. Feeding both keeps it so: their engines answer alike, the same units
are left over, and every call ends alike.
-/

namespace Multiview

open Outcome SimulatedEngine

/-- The same units are in both buffers, which have at most `m` bytes. -/
def Matched (m : Nat) (a b : Bytes) : Prop :=
  ∃ us vs, Reframed us vs ∧ a = writeUnits us ∧ b = writeUnits vs ∧ a.length ≤ m ∧ b.length ≤ m

theorem matched_nil (m : Nat) : Matched m [] [] :=
  ⟨[], [], .nil, rfl, rfl, Nat.zero_le m, Nat.zero_le m⟩

theorem Matched.mono {m m' : Nat} {a b : Bytes} (h : Matched m a b) (hm : m ≤ m') :
    Matched m' a b := by
  obtain ⟨us, vs, hr, ha, hb, hle, hle'⟩ := h
  exact ⟨us, vs, hr, ha, hb, Nat.le_trans hle hm, Nat.le_trans hle' hm⟩

/-- Nothing is blanked out in a buffer of such units. -/
theorem blankEndOfSequence_plain {us : List FramedUnit} (h : ∀ u ∈ us, u.Plain) :
    blankEndOfSequence (writeUnits us) = .ok (writeUnits us) := by
  refine Playback.blankEndOfSequence_none ?_
  rw [startCodeUnits_plain h, List.filter_eq_nil_iff]
  intro u hu hend
  obtain ⟨v, hv, hh⟩ := header_of_mem_placedUnits hu
  rw [hh, beq_iff_eq] at hend
  exact (h v hv).goesOn hend

/-- The same answers are prepared, and the same units are in the buffers. Lengths are written in fields
of sizes `l` and `l'`. -/
structure Guise.Likened (l l' : Option LengthSize) (m : Nat) (g g' : Guise) : Prop where
  busy : g'.busy = g.busy
  injected : g'.injected = g.injected
  calm : g.busy ≠ .always
  lengthSize : g.lengthSize = l
  lengthSize' : g'.lengthSize = l'
  buffers : Matched m g.buffer g'.buffer

namespace Session

/-- The same session in two guises. -/
inductive Twins (l l' : Option LengthSize) (m : Nat) :
    Session SimulatedEngine → Session SimulatedEngine → Prop
  | intro (s : Session SimulatedEngine) {g g' : Guise} (h : g.Likened l l' m g') :
      Twins l l' m (s.under g) (s.under g')

/-- The same result with either of two sessions. -/
abbrev Beside {α : Type} (l l' : Option LengthSize) (m : Nat) (x y : α × Session SimulatedEngine) :
    Prop :=
  y.1 = x.1 ∧ Twins l l' m x.2 y.2

variable {l l' : Option LengthSize} {m m' : Nat} {s t : Session SimulatedEngine}

namespace Twins

theorem of_bare (h : s.bare = t.bare) (hg : s.guise.Likened l l' m t.guise) : Twins l l' m s t := by
  have htwins := Twins.intro s.bare hg
  rwa [under_guise, h, under_guise] at htwins

/-- What is done under every guise alike keeps sessions twins. -/
theorem blind (h : Twins l l' m s t) {f : Session SimulatedEngine → Session SimulatedEngine}
    (hf : ∀ g s, f (s.under g) = (f s).under g) : Twins l l' m (f s) (f t) := by
  cases h with
  | intro b hg =>
    rw [hf, hf]
    exact .intro _ hg

theorem runs (h : Twins l l' m s t) {f : Session SimulatedEngine → Outcome (Session SimulatedEngine)}
    (hf : ∀ g s, f (s.under g) = under g <$> f s) : Agree (Twins l l' m) (f s) (f t) := by
  cases h with
  | intro b hg =>
    rw [hf, hf]
    cases f b with
    | error fault => exact .error fault
    | ok b' => exact .ok (.intro b' hg)

theorem answers {α : Type} (h : Twins l l' m s t)
    {f : Session SimulatedEngine → Outcome (α × Session SimulatedEngine)}
    (hf : ∀ g s, f (s.under g) = outcomeUnder g <$> f s) : Agree (Beside l l' m) (f s) (f t) := by
  cases h with
  | intro b hg =>
    rw [hf, hf]
    cases f b with
    | error fault => exact .error fault
    | ok x => exact .ok ⟨rfl, .intro x.2 hg⟩

theorem bare (h : Twins l l' m s t) : s.bare = t.bare := by
  cases h
  rfl

theorem engine (h : Twins l l' m s t) : t.engine = s.engine := by
  cases h with
  | intro b hg =>
    change b.engine.answering _ _ = b.engine.answering _ _
    rw [hg.busy, hg.injected]

theorem calm (h : Twins l l' m s t) : s.engine.busy ≠ .always := by
  cases h with
  | intro b hg => exact hg.calm

theorem lengthSize (h : Twins l l' m s t) : s.lengthSize = l := by
  cases h with
  | intro b hg => exact hg.lengthSize

theorem lengthSize' (h : Twins l l' m s t) : t.lengthSize = l' := by
  cases h with
  | intro b hg => exact hg.lengthSize'

theorem phase (h : Twins l l' m s t) : t.phase = s.phase := by
  cases h
  rfl

theorem current (h : Twins l l' m s t) : t.current = s.current := by
  cases h
  rfl

theorem table (h : Twins l l' m s t) : t.pools.pictures = s.pools.pictures := by
  cases h
  rfl

theorem buffers (h : Twins l l' m s t) : Matched m s.buffer t.buffer := by
  cases h with
  | intro b hg => exact hg.buffers

theorem mono (h : Twins l l' m s t) (hm : m ≤ m') : Twins l l' m' s t := by
  cases h with
  | intro b hg => exact .intro b { hg with buffers := hg.buffers.mono hm }

theorem withBuffer (h : Twins l l' m s t) {a b : Bytes} (hb : Matched m' a b) :
    Twins l l' m' { s with buffer := a } { t with buffer := b } := by
  cases h with
  | intro u hg => exact .of_bare rfl ⟨hg.busy, hg.injected, hg.calm, hg.lengthSize, hg.lengthSize', hb⟩

theorem withInput (h : Twins l l' m s t) (k k' : Option LengthSize) {a b : Bytes}
    (hb : Matched m' a b) :
    Twins k k' m' { s with lengthSize := k, buffer := a } { t with lengthSize := k', buffer := b } := by
  cases h with
  | intro u hg => exact .of_bare rfl ⟨hg.busy, hg.injected, hg.calm, rfl, rfl, hb⟩

/-- The first session is given length fields of another width. -/
theorem withLengths (h : Twins l none m s t) (k : Option LengthSize) :
    Twins k none m { s with lengthSize := k } t := by
  have hinput := h.withInput k none h.buffers
  have hsame : { t with lengthSize := none, buffer := t.buffer } = t := by
    rw [← h.lengthSize']
  rwa [hsame] at hinput

theorem withEngine (h : Twins l l' m s t) {e : SimulatedEngine} (hc : e.busy ≠ .always) :
    Twins l l' m { s with engine := e } { t with engine := e } := by
  cases h with
  | intro b hg => exact .of_bare rfl ⟨rfl, rfl, hc, hg.lengthSize, hg.lengthSize', hg.buffers⟩

theorem record (h : Twins l l' m s t) (call call' : EngineCall) :
    Twins l l' m (s.record call) (t.record call') := by
  cases h with
  | intro b hg =>
    exact .of_bare rfl ⟨hg.busy, hg.injected, hg.calm, hg.lengthSize, hg.lengthSize', hg.buffers⟩

end Twins

/-! ## Feeding the engine -/

/-- Two submissions that went the same way so far, with `k` units behind each of them. -/
inductive Alongside (us vs : List FramedUnit) (k : Nat) : Submission → Submission → Prop
  | intro (p : Submission) {a b : Bitstream} (h : Abreast us vs k a b) :
      Alongside us vs k { p with stream := a } { p with stream := b }

section Feeding

variable {us vs : List FramedUnit} {k : Nat} {p q : Submission}

/-- What the engine answers to both, and how far it has come then. -/
theorem decode_alongside (hr : Reframed us vs) (hlt : (writeUnits us).length < wordLimit)
    (hlt' : (writeUnits vs).length < wordLimit) (hp : Alongside us vs k p q) {e : SimulatedEngine}
    (hc : e.busy ≠ .always) (work : WorkSurface) (r : Resources) :
    Agree (fun x y => SameAnswer x y ∧ x.engine.busy ≠ .always ∧
      ∃ k', Alongside us vs k' { p with stream := x.stream.getD p.stream }
          { q with stream := y.stream.getD q.stream } ∧
        (x.engine.patience + (us.length - k') < e.patience + (us.length - k) ∨
          Stops x.status x.output))
      (e.decode (if p.flushing then none else some p.stream) work r)
      (e.decode (if q.flushing then none else some q.stream) work r) := by
  obtain ⟨p, hab⟩ := hp
  rename_i a b
  dsimp only
  rcases decode_prepared hc with ⟨hb, hi⟩ | ⟨status, e', hc', hpatience, hdecode⟩
  · cases hf : p.flushing with
    | true =>
      refine (decode_drained hb hi work r).sound.yields.agree.mono ?_
      rintro x _ ⟨rfl, hstream, hbusy, hstops⟩
      refine ⟨⟨rfl, rfl, rfl, rfl⟩, by rw [hbusy]; exact nofun, k, ?_, Or.inr hstops⟩
      rw [hstream]
      exact .intro { p with flushing := true } hab
    | false =>
      refine (decode_abreast hr hlt hlt' hab hb hi work r).mono ?_
      rintro x y ⟨hsame, hbusy, hinjected, k', a', b', hx, hy, hab', hgoes⟩
      refine ⟨hsame, by rw [hbusy]; exact nofun, k', ?_, hgoes.imp_left fun hlt => ?_⟩
      · rw [hx, hy]
        exact .intro { p with flushing := false } hab'
      · have hpatience : x.engine.patience = e.patience := by
          rw [patience, patience, hbusy, hinjected, hb, hi]
        have hle := hab'.le
        omega
  · rw [hdecode, hdecode]
    refine .ok ⟨⟨rfl, rfl, rfl, rfl⟩, hc', k, ?_, Or.inl (Nat.add_lt_add_right hpatience _)⟩
    cases p.flushing with
    | true => exact .intro { p with flushing := true } hab
    | false => exact .intro { p with flushing := false } hab

theorem askDecode_twins (hr : Reframed us vs) (hlt : (writeUnits us).length < wordLimit)
    (hlt' : (writeUnits vs).length < wordLimit) (h : Twins l l' m s t)
    (hp : Alongside us vs k p q) (work : WorkSurface) :
    Agree (fun x y => y.1 = x.1 ∧ y.2.1 = x.2.1 ∧ Twins l l' m x.2.2.2 y.2.2.2 ∧
      ∃ k', Alongside us vs k' { p with stream := x.2.2.1.getD p.stream }
          { q with stream := y.2.2.1.getD q.stream } ∧
        (x.2.2.2.engine.patience + (us.length - k') < s.engine.patience + (us.length - k) ∨
          Stops x.1 x.2.1))
      (s.askDecode (if p.flushing then none else some p.stream) work)
      (t.askDecode (if q.flushing then none else some q.stream) work) := by
  have hresources : t.pools.resources = s.pools.resources := by
    cases h
    rfl
  have hdecode := decode_alongside hr hlt hlt' hp h.calm work s.pools.resources
  unfold askDecode
  change Agree _ (SimulatedEngine.decode _ work s.engine s.pools.resources >>= _)
    (SimulatedEngine.decode _ work t.engine t.pools.resources >>= _)
  rw [h.engine, hresources]
  refine hdecode.bind ?_
  rintro x y ⟨hsame, hcalm, k', halong, hgoes⟩
  refine .pure ⟨hsame.status, hsame.output, ?_, k', halong, hgoes⟩
  rw [hsame.engine, hsame.resources]
  refine Twins.record ?_ _ _
  exact (h.withEngine hcalm).blind (f := withResources x.resources) fun _ _ => rfl

theorem handleBusy_under (g : Guise) (a : Bitstream) (p : Submission)
    (s : Session SimulatedEngine) :
    (s.under g).handleBusy { p with stream := a } =
      ((s.handleBusy p).1, (s.handleBusy p).2.1.under g,
        { (s.handleBusy p).2.2 with stream := a }) := by
  have hanswers : (s.under g).busyAnswers = s.busyAnswers := rfl
  by_cases hlong : s.config.busyTooLong s.busyAnswers = true
  · by_cases hspent : s.config.maxBusyResets ≤ p.resets
    · simp only [handleBusy, hlong, hspent, under_config, hanswers]
      rfl
    · simp only [handleBusy, hlong, hspent, under_config, hanswers]
      rfl
  · simp only [handleBusy, hlong, under_config, hanswers]
    rfl

theorem handleAnswer_under (g : Guise) (a : Bitstream) (pool : PoolId) (status : EngineStatus)
    (output : Option DecodedSurface) (p : Submission) (s : Session SimulatedEngine) :
    (s.under g).handleAnswer pool status output { p with stream := a } =
      (fun x => (x.1, x.2.1.under g, { x.2.2 with stream := a })) <$>
        s.handleAnswer pool status output p := by
  by_cases hi : status = .incompatibleParams
  · simp only [handleAnswer, hi, ↓reduceIte]
    rfl
  · simp only [handleAnswer, hi, ↓reduceIte]
    cases output with
    | none => rfl
    | some d =>
      have hmark : (s.under g).pools.markQueued pool d =
          (s.pools.markQueued pool d).map (Prod.map id (Pools.after g.past)) := by
        rw [Pools.markQueued_eq, Pools.markQueued_eq, Option.map_map]
        rfl
      dsimp only
      rw [hmark]
      cases s.pools.markQueued pool d with
      | none => rfl
      | some x =>
        obtain ⟨surface, pools⟩ := x
        have hout := handleOutput_under g { s with pools := pools } surface
        simp only [Option.map_some, Prod.map]
        change (under g { s with pools := pools }).handleOutput surface >>= _ = _
        rw [hout]
        generalize handleOutput surface { s with pools := pools } = y
        cases y with
        | error fault => rfl
        | ok u => rfl

/-- An engine that stops ends the submission. -/
theorem handleAnswer_stops {pool : PoolId} {status : EngineStatus} {output : Option DecodedSurface}
    (h : Stops status output) (p : Submission) (s : Session SimulatedEngine) :
    Yields (s.handleAnswer pool status output p) fun x => x.1 = false := by
  obtain ⟨rfl, rfl | rfl⟩ := h
  · exact .ok rfl
  · exact .ok rfl

theorem turn_twins (hr : Reframed us vs) (hlt : (writeUnits us).length < wordLimit)
    (hlt' : (writeUnits vs).length < wordLimit) (h : Twins l l' m s t)
    (hp : Alongside us vs k p q) (pool : PoolId) :
    Agree (fun x y => y.1 = x.1 ∧ Twins l l' m x.2.1 y.2.1 ∧ ∃ k', Alongside us vs k' x.2.2 y.2.2 ∧
      (x.1 = true →
        x.2.1.engine.patience + (us.length - k') < s.engine.patience + (us.length - k)))
      (turn pool s p) (turn pool t q) := by
  have hfree : t.pools.freeSurface? pool = s.pools.freeSurface? pool := by
    cases h
    rfl
  unfold turn
  rw [hfree]
  cases s.pools.freeSurface? pool with
  | none =>
    cases hp with
    | intro p hab => exact .ok ⟨rfl, h, k, .intro { p with starved := true } hab, nofun⟩
  | some free =>
    obtain ⟨index, work⟩ := free
    refine (askDecode_twins hr hlt hlt' h hp work).bind ?_
    rintro ⟨_, _, stream, s'⟩ ⟨status, output, stream', t'⟩ ⟨rfl, rfl, htwins, k', halong, hgoes⟩
    dsimp only at htwins halong hgoes ⊢
    generalize { p with stream := stream.getD p.stream } = p' at halong ⊢
    generalize { q with stream := stream'.getD q.stream } = q' at halong ⊢
    cases htwins with
    | intro b hg =>
      cases halong with
      | intro p hab =>
        by_cases hbusy : status = .deviceBusy
        · have hless := hgoes.resolve_right fun hstops => by
            rw [hbusy] at hstops
            rcases hstops.2 with h | h <;> cases h
          rw [if_pos hbusy, if_pos hbusy, handleBusy_under, handleBusy_under]
          exact .ok ⟨rfl, .intro _ hg, k', .intro _ hab, fun _ => hless⟩
        · rw [if_neg hbusy, if_neg hbusy, handleAnswer_under, handleAnswer_under]
          cases hx : b.handleAnswer pool status output p with
          | error fault => exact .error fault
          | ok x =>
            refine .ok ⟨rfl, .intro _ hg, k', .intro _ hab, fun hgo => hgoes.resolve_right ?_⟩
            intro hstops
            have hstop : x.1 = false := handleAnswer_stops hstops p b x hx
            exact Bool.false_ne_true (hstop.symm.trans hgo)

/-- Both loops end with the same turn: every turn uses up an answer that was prepared, or a unit. -/
theorem submitWithin_twins (hr : Reframed us vs) (hlt : (writeUnits us).length < wordLimit)
    (hlt' : (writeUnits vs).length < wordLimit) (pool : PoolId) {fuel fuel' : Nat}
    (hfuel : s.engine.patience + (us.length - k) < fuel)
    (hfuel' : s.engine.patience + (us.length - k) < fuel') (h : Twins l l' m s t)
    (hp : Alongside us vs k p q) :
    Agree (fun x y => Twins l l' m x.1 y.1 ∧ ∃ k', Alongside us vs k' x.2 y.2)
      (submitWithin pool fuel s p) (submitWithin pool fuel' t q) := by
  induction fuel generalizing fuel' k s t p q with
  | zero => exact absurd hfuel (Nat.not_lt_zero _)
  | succ fuel ih =>
    obtain ⟨fuel', rfl⟩ := Nat.exists_eq_succ_of_ne_zero (Nat.ne_zero_of_lt hfuel')
    unfold submitWithin
    refine (turn_twins hr hlt hlt' h hp pool).bind ?_
    rintro ⟨_, s', p'⟩ ⟨goOn, t', q'⟩ ⟨rfl, htwins, k', halong, hless⟩
    cases goOn with
    | false => exact .pure ⟨htwins, k', halong⟩
    | true =>
      have hless := hless rfl
      dsimp only at hless
      exact ih (by omega) (by omega) htwins halong

theorem submit_twins (hr : Reframed us vs) (hlt : (writeUnits us).length < wordLimit)
    (hlt' : (writeUnits vs).length < wordLimit) (h : Twins l l' m s t) (flushing : Bool)
    (pts dts : Option UInt64) :
    Agree (fun x y => Twins l l' m x.2 y.2 ∧
        ((∃ e, x.1 = .error e ∧ y.1 = .error e) ∨
          ∃ p q k, x.1 = .ok p ∧ y.1 = .ok q ∧ Alongside us vs k p q))
      (s.submit ⟨writeUnits us, 0, pts, dts⟩ flushing)
      (t.submit ⟨writeUnits vs, 0, pts, dts⟩ flushing) := by
  unfold submit
  rw [h.current]
  cases s.current with
  | none => exact .pure ⟨h, Or.inl ⟨_, rfl, rfl⟩⟩
  | some pool =>
    dsimp only
    have habreast : Abreast us vs 0 ⟨writeUnits us, 0, pts, dts⟩ ⟨writeUnits vs, 0, pts, dts⟩ :=
      ⟨rfl, rfl, rfl, rfl, rfl, Nat.zero_le _⟩
    have hunits := length_le_writeUnits us
    have hunits' := length_le_writeUnits vs
    rw [hr.length] at hunits'
    have hlimit := le_turnLimit s (writeUnits us).length
    have hlimit' := le_turnLimit t (writeUnits vs).length
    rw [h.engine] at hlimit'
    refine (submitWithin_twins hr hlt hlt' pool ?_ ?_ h
      (.intro { flushing := flushing, stream := ⟨[], 0, pts, dts⟩ } habreast)).bind ?_
    · omega
    · omega
    · rintro ⟨s', p⟩ ⟨t', q⟩ ⟨htwins, k, halong⟩
      exact .pure ⟨htwins, Or.inr ⟨p, q, k, rfl, rfl, halong⟩⟩

/-- The same units are left over. -/
theorem leftover_twins (hr : Reframed us vs) (hm : (writeUnits us).length ≤ m)
    (hm' : (writeUnits vs).length ≤ m) (hp : Alongside us vs k p q) :
    Agree (Matched m) (leftover (writeUnits us) p) (leftover (writeUnits vs) q) := by
  cases hp with
  | intro p hab =>
    rename_i a b
    have hzero : ∀ ws : List FramedUnit, (writeUnits (ws.take k)).length = 0 ↔
        min k ws.length = 0 := by
      intro ws
      have hle := length_le_writeUnits (ws.take k)
      rw [List.length_take] at hle
      refine ⟨fun hnone => by omega, fun hnone => ?_⟩
      have hnil : ws.take k = [] := List.length_eq_zero_iff.mp (by rw [List.length_take, hnone])
      rw [hnil]
      rfl
    have hoffset : b.offset = 0 ↔ a.offset = 0 := by
      rw [hab.offset, hab.offset', hzero, hzero, hr.length]
    have hdrop : ∀ ws : List FramedUnit, dropExactly (writeUnits (ws.take k)).length (writeUnits ws) =
        .ok (writeUnits (ws.drop k)) := by
      intro ws
      have hlen := length_take_drop k ws
      rw [dropExactly_of_le (by omega), drop_written]
    unfold leftover
    dsimp only
    by_cases hd : p.discard = true
    · rw [if_pos hd, if_pos hd]
      exact .ok (matched_nil m)
    · rw [if_neg hd, if_neg hd]
      by_cases hn : a.offset = 0 ∧ !p.produced ∧ !p.flushing ∧ !p.starved
      · rw [if_pos hn, if_pos ⟨hoffset.mpr hn.1, hn.2⟩]
        exact .ok (matched_nil m)
      · rw [if_neg hn, if_neg fun hn' => hn ⟨hoffset.mp hn'.1, hn'.2⟩, hab.offset, hab.offset', hdrop, hdrop]
        have hlen := length_take_drop k us
        have hlen' := length_take_drop k vs
        exact .ok ⟨_, _, hr.drop k, rfl, rfl, by omega, by omega⟩

theorem statusAfter_twins (hp : Alongside us vs k p q) (h : Twins l l' m s t) :
    t.statusAfter q = s.statusAfter p := by
  cases hp
  cases h
  rfl

theorem conclude_twins (hr : Reframed us vs) (hm : (writeUnits us).length ≤ m)
    (hm' : (writeUnits vs).length ≤ m) (hp : Alongside us vs k p q) (h : Twins l l' m s t) :
    Agree (Beside l l' m) (s.conclude (writeUnits us) p) (t.conclude (writeUnits vs) q) := by
  have hleft := leftover_twins hr hm hm' hp
  have hstatus := fun {s' t'} (h' : Twins l l' m s' t') => statusAfter_twins hp h'
  have hdraining : t.control.isDraining = s.control.isDraining := by
    cases h
    rfl
  obtain ⟨hstuck, hanswer, hflushing⟩ :
      q.stuck = p.stuck ∧ q.status = p.status ∧ q.flushing = p.flushing := by
    cases hp
    exact ⟨rfl, rfl, rfl⟩
  unfold conclude
  dsimp only
  rw [hstuck, hanswer, hflushing]
  by_cases hs : p.stuck = true
  · rw [if_pos hs, if_pos hs]
    exact .pure ⟨rfl, h.withBuffer ⟨us, vs, hr, rfl, rfl, hm, hm'⟩⟩
  · rw [if_neg hs, if_neg hs]
    refine hleft.bind fun rest rest' hrest => ?_
    have htwins := h.withBuffer hrest
    cases verdict p.status with
    | error e => exact .pure ⟨rfl, htwins⟩
    | ok _ =>
      by_cases hd : s.control.isDraining = true
      · rw [if_pos hd, if_pos (hdraining.trans hd)]
        refine (htwins.runs fun g s => flushQueues_under g s _).bind fun u u' hu => ?_
        exact .pure ⟨congrArg Except.ok (hstatus hu), hu⟩
      · rw [if_neg hd, if_neg (hdraining ▸ hd)]
        exact .pure ⟨congrArg Except.ok (hstatus htwins), htwins⟩

theorem decodeBuffer_twins (hm : m < wordLimit) (h : Twins l l' m s t) (flushing : Bool)
    (dts pts : Option UInt64) :
    Agree (Beside l l' m) (s.decodeBuffer flushing dts pts) (t.decodeBuffer flushing dts pts) := by
  obtain ⟨us, vs, hr, hs, ht, hle, hle'⟩ := h.buffers
  rw [hs] at hle
  rw [ht] at hle'
  unfold decodeBuffer
  rw [hs, ht]
  have htwins := h.withBuffer (matched_nil m)
  refine (submit_twins hr (by omega) (by omega) htwins flushing pts dts).bind ?_
  rintro ⟨answer, s'⟩ ⟨answer', t'⟩ ⟨htwins', ⟨e, rfl, rfl⟩ | ⟨p, q, k, rfl, rfl, hp⟩⟩
  · exact .pure ⟨rfl, htwins'⟩
  · exact conclude_twins hr hle hle' hp htwins'

end Feeding

end Session

end Multiview
