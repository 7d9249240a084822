import Multiview.Proofs.Engine.Attentive
import Multiview.Proofs.Session.Lockstep
import Multiview.Proofs.Session.Orders

/-!
Slices reach the engine once and in order. While nothing was prepared for the engine, a submission hands
over the slices of the buffer one by one, until all are through or no surface is free any more, and it
leaves the rest in the buffer. What is left holds exactly the slices that were not handed over.
-/

namespace Multiview

open Outcome

/-- The view of a returned surface, and how far the stream had been consumed by then. -/
def Event.delivery? : Event → Option (UInt16 × Option Nat)
  | engine (.decode _ _ _ offset (some d)) => some (d.info.viewId, offset)
  | _ => none

/-- The surfaces returned in these events, latest first, in the order in which they came. -/
def deliveries (events : List Event) : List (UInt16 × Option Nat) :=
  events.reverse.filterMap Event.delivery?

theorem deliveries_append (later earlier : List Event) :
    deliveries (later ++ earlier) = deliveries earlier ++ deliveries later := by
  unfold deliveries
  rw [List.reverse_append, List.filterMap_append]

theorem deliveries_eq_nil {events : List Event} (h : ∀ e ∈ events, e.delivery? = none) :
    deliveries events = [] :=
  List.filterMap_eq_nil_iff.mpr fun e he => h e (List.mem_reverse.mp he)

namespace Submission

/-- The slice `u` came back in a surface, and the stream is consumed up to the end of it. -/
def past (u : NalUnit) (p : Submission) : Submission :=
  { p with
    status := .ok
    produced := true
    stream := { p.stream with offset := p.stream.offset + u.stop } }

/-- All of the stream is consumed, and the engine asks for more. -/
def spent (p : Submission) : Submission :=
  { p with
    status := .moreData
    stream := { p.stream with offset := p.stream.data.length } }

theorem offset_past (u : NalUnit) (p : Submission) :
    (p.past u).stream.offset = p.stream.offset + u.stop := rfl

theorem offset_spent (p : Submission) : p.spent.stream.offset = p.stream.data.length := rfl

theorem remaining_past (u : NalUnit) (p : Submission) :
    (p.past u).stream.remaining = p.stream.remaining.drop u.stop :=
  List.drop_drop.symm

/-- The slices behind the one that came back. -/
theorem slices_past {u : NalUnit} {us : List NalUnit} {p : Submission}
    (h : sliceUnits p.stream.remaining = u :: us) :
    us = (sliceUnits (p.past u).stream.remaining).map (·.shift u.stop) := by
  rw [remaining_past]
  exact (sliceUnits_drop h).2.2

end Submission

namespace Session

variable {s t u : Session SimulatedEngine} {pool : PoolId}

/-! ## Pairing -/

/-- Surfaces were paired or given up, and the engine was asked to complete operations. -/
structure Tidied (s t : Session SimulatedEngine) : Prop where
  rest : ∃ engine queues pictures pools, t = { s with
    engine := engine, queues := queues, pictures := pictures, pools := pools }
  engine : ∃ polls syncs inFlight, t.engine = { s.engine with
    polls := polls, syncs := syncs, inFlight := inFlight }
  journal : ∃ events, t.journal = events ++ s.journal ∧ ∀ e ∈ events, e.delivery? = none

namespace Tidied

theorem edit (s : Session SimulatedEngine) (queues : ViewQueues) (pictures : List PictureId)
    (pools : List Pool) (table : List Picture) :
    Tidied s { s with
      queues := queues
      pictures := pictures
      pools := { s.pools with pools := pools, pictures := table } } where
  rest := ⟨_, _, _, _, rfl⟩
  engine := ⟨_, _, _, rfl⟩
  journal := ⟨[], rfl, fun _ he => absurd he List.not_mem_nil⟩

theorem refl (s : Session SimulatedEngine) : Tidied s s := .edit s _ _ _ _

theorem trans (h : Tidied s t) (h' : Tidied t u) : Tidied s u where
  rest := by
    obtain ⟨_, _, _, _, rfl⟩ := h.rest
    obtain ⟨_, _, _, _, rfl⟩ := h'.rest
    exact ⟨_, _, _, _, rfl⟩
  engine := by
    obtain ⟨_, _, _, he⟩ := h.engine
    obtain ⟨polls, syncs, inFlight, he'⟩ := h'.engine
    exact ⟨polls, syncs, inFlight, by rw [he', he]⟩
  journal := by
    obtain ⟨events, hj, hn⟩ := h.journal
    obtain ⟨events', hj', hn'⟩ := h'.journal
    refine ⟨events' ++ events, by rw [hj', hj, List.append_assoc], fun e he => ?_⟩
    exact (List.mem_append.mp he).elim (hn' e) (hn e)

theorem attentive (h : Tidied s t) (hs : s.engine.Attentive) : t.engine.Attentive := by
  obtain ⟨_, _, _, he⟩ := h.engine
  rw [he]
  exact ⟨hs.busy, hs.injected, hs.held⟩

theorem config (h : Tidied s t) : t.config = s.config := by
  obtain ⟨_, _, _, _, rfl⟩ := h.rest
  rfl

theorem nextOrder (h : Tidied s t) : t.engine.nextOrder = s.engine.nextOrder := by
  obtain ⟨_, _, _, he⟩ := h.engine
  rw [he]

end Tidied

theorem tidied_askSync (point : SyncPoint) (s : Session SimulatedEngine) :
    Tidied s (s.askSync point).2 where
  rest := ⟨_, _, _, _, rfl⟩
  engine := by
    change ∃ polls syncs inFlight, (s.engine.sync point s.pools.resources).2.1 = _
    unfold SimulatedEngine.sync
    dsimp only
    split
    · exact ⟨_, _, _, rfl⟩
    · split
      · exact ⟨_, _, _, rfl⟩
      · exact ⟨_, _, _, rfl⟩
  journal := ⟨[_], rfl, fun e he => by rw [List.mem_singleton.mp he]; rfl⟩

theorem Waited.tidied (h : Waited s t) : Tidied s t := by
  induction h with
  | refl s => exact .refl s
  | @ask s t point _ ih => exact (tidied_askSync point s).trans ih

theorem tidied_syncSurface (pool : PoolId) (surface : SurfaceInfo) (s : Session SimulatedEngine) :
    Tidied s (s.syncSurface pool surface) :=
  Tidied.trans (.edit s _ _ _ _) (waited_syncSurface pool surface s).tidied

theorem tidied_perform (pool : PoolId) (step : PairingStep) (s : Session SimulatedEngine) :
    Yields (s.perform pool step) (Tidied s) := by
  cases step with
  | drop surface => exact .ok (.edit s _ _ _ _)
  | pair base extra =>
    have hsync := (tidied_syncSurface pool base s).trans (tidied_syncSurface pool extra _)
    unfold perform
    dsimp only
    generalize syncSurface pool extra (syncSurface pool base s) = t at hsync ⊢
    unfold Pools.join
    split
    · exact .pure (hsync.trans (.edit t _ _ _ _))
    · exact .error _

theorem tidied_pairQueued (least : Nat) (s : Session SimulatedEngine) :
    Yields (s.pairQueued least) (Tidied s) := by
  unfold pairQueued
  split
  · exact .ok (.refl s)
  · exact Yields.foldlM (fun t step ht => (tidied_perform _ step t).mono fun _ => ht.trans)
      (.edit s _ _ _ _)

theorem tidied_releaseQueued (s : Session SimulatedEngine) : Tidied s s.releaseQueued := by
  unfold releaseQueued
  split
  · exact .edit s _ _ _ _
  · rename_i pool hc
    obtain ⟨pools, hp, -⟩ := steady_foldl_release pool s.queues.toList s.pools
    rw [hp]
    exact .edit s _ _ _ _

theorem tidied_flushQueues (engineEmpty : Bool) (s : Session SimulatedEngine) :
    Yields (s.flushQueues engineEmpty) (Tidied s) := by
  unfold flushQueues
  split
  · exact .pure (.refl s)
  · refine (tidied_pairQueued 1 s).bind fun t ht => ?_
    split
    · exact .pure (ht.trans (tidied_releaseQueued t))
    · exact .pure ht

/-- Apart from a change of the stream, an answer is dealt with among surfaces and pictures. -/
theorem handleAnswer_tidied (status : EngineStatus) (output : Option DecodedSurface)
    (s : Session SimulatedEngine) (p : Submission) :
    Yields (s.handleAnswer pool status output p) fun x =>
      (Tidied s x.2.1 ∨ x.2.1 = { s with phase := .opened }) ∧
        ∃ flushing produced discard, x.2.2 = { p with
          status := status, flushing := flushing, produced := produced, discard := discard } := by
  unfold handleAnswer
  dsimp only
  split
  · exact .ok ⟨Or.inr rfl, _, _, _, rfl⟩
  · split
    · rename_i d
      rw [Pools.markQueued_eq]
      cases (s.pools.pool pool).find? d.mid with
      | none => exact .pure ⟨Or.inl (.refl s), _, _, _, rfl⟩
      | some found =>
        refine (tidied_pairQueued _ (s.received pool found d)).bind fun t ht => .pure ?_
        exact ⟨Or.inl (Tidied.trans (.edit s _ _ _ _) ht), _, _, _, rfl⟩
    · exact .ok ⟨Or.inl (.refl s), _, _, _, rfl⟩

/-! ## Turns -/

section Turn

variable {p : Submission} {index : Nat} {work : WorkSurface} {u : NalUnit} {us : List NalUnit}

/-- A slice was decoded into surface `found`, and the stream is consumed up to its end. -/
structure Handed (pool : PoolId) (work : WorkSurface) (stream : Bitstream) (u : NalUnit)
    (s : Session SimulatedEngine) (a : DecodeAnswer SimulatedEngine) (d : DecodedSurface)
    (found : Nat) : Prop where
  sliced : SimulatedEngine.Sliced work s.engine s.pools.resources a d
  attentive : a.engine.Attentive
  consumed : a.stream = some { stream with offset := stream.offset + u.stop }
  viewId : d.info.viewId = u.viewId
  timestamp : d.frameMeta.streamTimestamp = stream.timestamp
  found : (s.pools.pool pool).find? d.mid = some found

theorem turn_starved (hf : s.pools.freeSurface? pool = none) (p : Submission) :
    turn pool s p = .ok (false, s, { p with starved := true }) := by
  unfold turn
  rw [hf]

/-- The next slice comes back in a surface, which is queued and paired at once. -/
theorem turn_slice (he : s.engine.Attentive) (hf : s.pools.freeSurface? pool = some (index, work))
    (hp : p.flushing = false) (hs : sliceUnits p.stream.remaining = u :: us)
    (hle : p.stream.offset ≤ p.stream.data.length) (hlt : p.stream.data.length < wordLimit)
    (hn : u.isBaseSlice = true → s.engine.nextOrder.toNat + 1 < UInt32.size) :
    ∃ a d found, Handed pool work p.stream u s a d found ∧ turn pool s p = (do
      let t ← ((s.submitted (some p.stream) work a).received pool found d).pairQueued
        (s.config.asyncDepth.toNat / 2 + 1)
      return (true, t, p.past u)) := by
  obtain ⟨a, ha, hatt, hstream, d, hsliced, hview, htime⟩ :=
    SimulatedEngine.decode_slice he hs hle hlt hn work s.pools.resources
  obtain ⟨found, hfound⟩ := Pools.exists_find? hf
  rw [← hsliced.mid] at hfound
  refine ⟨a, d, found, ⟨hsliced, hatt, hstream, hview, htime, hfound⟩, ?_⟩
  have hask : s.askDecode (some p.stream) work =
      .ok (a.status, a.output, a.stream, s.submitted (some p.stream) work a) := askDecode_eq ha
  have hmark := Pools.markQueued_eq pool d (s.submitted (some p.stream) work a).pools
  have hsame : ((s.submitted (some p.stream) work a).pools.pool pool).find? d.mid = some found :=
    hfound
  rw [hsame] at hmark
  unfold turn
  rw [hf]
  simp only [hp, Bool.false_eq_true, ↓reduceIte, hask, bind, Except.bind, hsliced.status, hstream,
    hsliced.output, handleAnswer, hmark, Option.map_some, Option.getD_some, reduceCtorEq,
    Submission.past]
  rfl

/-- Without a slice the whole stream is taken, and the submission is over. -/
theorem turn_dry (he : s.engine.Attentive) (hf : s.pools.freeSurface? pool = some (index, work))
    (hp : p.flushing = false) (hs : sliceUnits p.stream.remaining = [])
    (hle : p.stream.offset ≤ p.stream.data.length) (hlt : p.stream.data.length < wordLimit) :
    ∃ a, s.engine.Idled s.pools.resources a ∧ a.engine.Attentive ∧
      turn pool s p = .ok (false, s.submitted (some p.stream) work a, p.spent) := by
  obtain ⟨a, ha, hstatus, hout, hstream, hatt⟩ :=
    SimulatedEngine.decode_dry he hs hle hlt work s.pools.resources
  have hask : s.askDecode (some p.stream) work =
      .ok (a.status, a.output, a.stream, s.submitted (some p.stream) work a) := askDecode_eq ha
  have hidled : s.engine.Idled s.pools.resources a := by
    rcases (SimulatedEngine.decode_sound _ work _ _).result ha with hi | ⟨_, d, hd⟩
    · exact hi
    · rw [hd.output] at hout
      cases hout
  refine ⟨a, hidled, hatt, ?_⟩
  unfold turn
  rw [hf]
  simp only [hp, Bool.false_eq_true, ↓reduceIte, hask, bind, Except.bind, hstatus, hstream, hout,
    handleAnswer, Option.getD_some, reduceCtorEq, EngineStatus.isError, Submission.spent]
  rfl

theorem turn_overflow (he : s.engine.Attentive)
    (hf : s.pools.freeSurface? pool = some (index, work)) (hp : p.flushing = false)
    (hs : sliceUnits p.stream.remaining = u :: us)
    (hle : p.stream.offset ≤ p.stream.data.length) (hlt : p.stream.data.length < wordLimit)
    (hb : u.isBaseSlice = true) (hn : UInt32.size ≤ s.engine.nextOrder.toNat + 1) :
    turn pool s p = .error .overflow := by
  have hdecode : DecodeEngine.decode (some p.stream) work s.engine s.pools.resources =
      .error .overflow := SimulatedEngine.decode_overflow he hs hle hlt hb hn work _
  unfold turn
  rw [hf]
  simp only [hp, Bool.false_eq_true, ↓reduceIte, askDecode, hdecode, bind, Except.bind]

end Turn

/-! ## Submissions -/

/-- From `s` to `t` the slices `taken` of a buffer were handed over, one after another, and nothing but
surfaces and pictures was touched. -/
structure Delivered (taken : List NalUnit) (s t : Session SimulatedEngine) : Prop where
  rest : ∃ engine queues pictures pools, t = { s with
    engine := engine, queues := queues, pictures := pictures, pools := pools }
  attentive : t.engine.Attentive
  journal : ∃ events, t.journal = events ++ s.journal ∧
    deliveries events = taken.map fun u => (u.viewId, some u.stop)
  nextOrder : t.engine.nextOrder.toNat =
    s.engine.nextOrder.toNat + taken.countP (·.isBaseSlice)

namespace Delivered

variable {taken : List NalUnit}

theorem refl (h : s.engine.Attentive) : Delivered [] s s where
  rest := ⟨_, _, _, _, rfl⟩
  attentive := h
  journal := ⟨[], rfl, rfl⟩
  nextOrder := rfl

theorem tidied (h : Delivered taken s t) (h' : Tidied t u) : Delivered taken s u where
  rest := by
    obtain ⟨_, _, _, _, rfl⟩ := h.rest
    obtain ⟨_, _, _, _, rfl⟩ := h'.rest
    exact ⟨_, _, _, _, rfl⟩
  attentive := h'.attentive h.attentive
  journal := by
    obtain ⟨events, hj, hd⟩ := h.journal
    obtain ⟨events', hj', hn⟩ := h'.journal
    refine ⟨events' ++ events, by rw [hj', hj, List.append_assoc], ?_⟩
    rw [deliveries_append, deliveries_eq_nil hn, List.append_nil, hd]
  nextOrder := by
    rw [h'.nextOrder, h.nextOrder]

/-- The engine took no slice. -/
theorem idled {work : WorkSurface} {a : DecodeAnswer SimulatedEngine} (h : Delivered taken s t)
    (input : Option Bitstream) (hi : t.engine.Idled t.pools.resources a)
    (ha : a.engine.Attentive) : Delivered taken s (t.submitted input work a) where
  rest := by
    obtain ⟨_, _, _, _, rfl⟩ := h.rest
    exact ⟨_, _, _, _, rfl⟩
  attentive := ha
  journal := by
    obtain ⟨events, hj, hd⟩ := h.journal
    refine ⟨.engine (.decode input work.mid a.status (a.stream.map (·.offset)) a.output) :: events,
      ?_, ?_⟩
    · rw [List.cons_append, ← hj]
      rfl
    rw [hi.output, ← List.singleton_append, deliveries_append, hd]
    exact List.append_nil _
  nextOrder := (congrArg UInt32.toNat hi.nextOrder).trans h.nextOrder

/-- One more slice, which ends where the stream is consumed to. -/
theorem slice {work : WorkSurface} {stream : Bitstream} {v : NalUnit}
    {a : DecodeAnswer SimulatedEngine} {d : DecodedSurface} {found : Nat}
    (h : Delivered taken s t) (hh : Handed pool work stream v t a d found) :
    Delivered (taken ++ [v.shift stream.offset]) s
      ((t.submitted (some stream) work a).received pool found d) where
  rest := by
    obtain ⟨_, _, _, _, rfl⟩ := h.rest
    exact ⟨_, _, _, _, rfl⟩
  attentive := hh.attentive
  journal := by
    obtain ⟨events, hj, hd⟩ := h.journal
    refine ⟨.engine (.decode (some stream) work.mid a.status (a.stream.map (·.offset)) a.output) ::
      events, ?_, ?_⟩
    · rw [List.cons_append, ← hj]
      rfl
    have hview : (v.shift stream.offset).viewId = d.info.viewId := hh.viewId.symm
    rw [hh.sliced.output, hh.consumed, ← List.singleton_append, deliveries_append, hd,
      List.map_append, List.map_singleton, NalUnit.stop_shift, Nat.add_comm v.stop, hview]
    rfl
  nextOrder := by
    have hbase : (v.shift stream.offset).isBaseSlice = v.isBaseSlice := rfl
    have hview := hh.viewId
    have hnext : a.engine.nextOrder.toNat =
        t.engine.nextOrder.toNat + [v.shift stream.offset].countP (·.isBaseSlice) := by
      rw [List.countP_singleton, hbase]
      rcases hh.sliced.order with ⟨hzero, _, hn, _⟩ | ⟨hone, _, hn, _⟩
      · rw [hzero, NalUnit.viewId] at hview
        split at hview
        · rename_i hb
          rw [if_pos hb, hn]
        · cases hview
      · rw [hone, NalUnit.viewId] at hview
        split at hview
        · cases hview
        · rename_i hb
          rw [if_neg hb, hn]
          rfl
    rw [List.countP_append, ← Nat.add_assoc, ← h.nextOrder]
    exact hnext

end Delivered

/-- The stream of a submission: `taken` are its slices up to where it is consumed. -/
structure Underway (data : Bytes) (taken : List NalUnit) (p : Submission) : Prop where
  flushing : p.flushing = false
  discard : p.discard = false
  stuck : p.stuck = false
  status : p.status = .ok ∨ p.status = .moreData
  stream : p.stream.data = data
  le : p.stream.offset ≤ data.length
  split : sliceUnits data =
    taken ++ (sliceUnits (data.drop p.stream.offset)).map (·.shift p.stream.offset)

/-- Orders run out at one of the slices of a buffer. -/
def Overflows (data : Bytes) (s : Session SimulatedEngine) : Prop :=
  ∃ before u after, sliceUnits data = before ++ u :: after ∧ u.isBaseSlice = true ∧
    s.engine.nextOrder.toNat + before.countP (·.isBaseSlice) + 1 = UInt32.size

theorem Underway.first (data : Bytes) (pts dts : Option UInt64) :
    Underway data [] { flushing := false, stream := ⟨data, 0, pts, dts⟩ } where
  flushing := rfl
  discard := rfl
  stuck := rfl
  status := Or.inr rfl
  stream := rfl
  le := Nat.zero_le _
  split := (List.map_id _).symm

section Within

variable {data : Bytes} {taken : List NalUnit} {p : Submission} {u : NalUnit} {us : List NalUnit}

/-- After the next slice the stream is consumed up to the end of it. -/
theorem Underway.next (h : Underway data taken p) (hs : sliceUnits p.stream.remaining = u :: us) :
    p.stream.offset + 3 ≤ p.stream.offset + u.stop ∧
      Underway data (taken ++ [u.shift p.stream.offset]) (p.past u) := by
  have hremaining : p.stream.remaining = data.drop p.stream.offset := by
    rw [Bitstream.remaining, h.stream]
  rw [hremaining] at hs
  obtain ⟨hpos, hstop, hrest⟩ := sliceUnits_drop hs
  rw [List.drop_drop] at hrest
  rw [List.length_drop] at hstop
  refine ⟨by omega, h.flushing, h.discard, h.stuck, Or.inl rfl, h.stream, ?_, ?_⟩
  · have hle := h.le
    rw [Submission.offset_past]
    omega
  · have hshift : (NalUnit.shift p.stream.offset) ∘ (NalUnit.shift u.stop) =
        NalUnit.shift (p.stream.offset + u.stop) := by
      funext v
      rw [Function.comp_apply, NalUnit.shift_shift, Nat.add_comm]
    rw [h.split, hs, List.map_cons, List.append_assoc, List.singleton_append, hrest, List.map_map,
      hshift, Submission.offset_past]

/-- A stream without further slices is taken whole. -/
theorem Underway.dry (h : Underway data taken p) (hs : sliceUnits p.stream.remaining = []) :
    Underway data taken p.spent := by
  have hremaining : p.stream.remaining = data.drop p.stream.offset := by
    rw [Bitstream.remaining, h.stream]
  rw [hremaining] at hs
  refine ⟨h.flushing, h.discard, h.stuck, Or.inr rfl, h.stream, ?_, ?_⟩
  · exact Nat.le_of_eq (congrArg List.length h.stream)
  · rw [Submission.offset_spent, h.stream, List.drop_length, h.split, hs]
    rfl

end Within

/-- What a submission comes to: either all of the stream is consumed or no surface was free, and the
slices up to there were handed over. `visited` holds of every turn. -/
structure Submitted (pool : PoolId) (data : Bytes)
    (visited : Session SimulatedEngine → Submission → Prop) (s : Session SimulatedEngine)
    (taken : List NalUnit) (x : Session SimulatedEngine × Submission) : Prop where
  running : Running pool x.1
  delivered : Delivered taken s x.1
  underway : Underway data taken x.2
  ended : x.2.starved = false ∧ x.2.stream.offset = data.length ∨
    x.2.starved = true ∧ x.1.pools.freeSurface? pool = none ∧ ∃ p, visited x.1 p

/-- Slices are handed over turn by turn. -/
theorem submitWithin_delivers {data : Bytes} {taken : List NalUnit} {p : Submission}
    {visited : Session SimulatedEngine → Submission → Prop}
    (hv : ∀ s p t q, visited s p → turn pool s p = .ok (true, t, q) → visited t q) (fuel : Nat)
    (hs : Running pool t) (hd : Delivered taken s t) (hp : Underway data taken p)
    (hstarved : p.starved = false) (hvisited : visited t p) (hlt : data.length < wordLimit)
    (hfuel : data.length - p.stream.offset < fuel) :
    Returns (submitWithin pool fuel t p) (fun x => ∃ all, Submitted pool data visited s all x) ∨
      submitWithin pool fuel t p = .error .overflow ∧ Overflows data s := by
  induction fuel generalizing taken t p with
  | zero => cases hfuel
  | succ fuel ih =>
    have hle : p.stream.offset ≤ p.stream.data.length := by
      rw [hp.stream]
      exact hp.le
    have hlt' : p.stream.data.length < wordLimit := by
      rw [hp.stream]
      exact hlt
    unfold submitWithin
    cases hf : t.pools.freeSurface? pool with
    | none =>
      rw [turn_starved hf]
      refine Or.inl (.ok ⟨taken, hs, hd, ?_, Or.inr ⟨rfl, hf, p, hvisited⟩⟩)
      exact ⟨hp.flushing, hp.discard, hp.stuck, hp.status, hp.stream, hp.le, hp.split⟩
    | some free =>
      obtain ⟨index, work⟩ := free
      cases hu : sliceUnits p.stream.remaining with
      | nil =>
        obtain ⟨a, hi, ha, hturn⟩ := turn_dry hd.attentive hf hp.flushing hu hle hlt'
        have hrun : Running pool (t.submitted (some p.stream) work a) :=
          Fed.running ⟨.single (Or.inl (.submit _ hs.engineReady hs.current hf hi)),
            hs.engineReady, hs.current⟩ hs
        rw [hturn]
        refine Or.inl (.ok ⟨taken, hrun, hd.idled _ hi ha, hp.dry hu, Or.inl ⟨hstarved, ?_⟩⟩)
        rw [Submission.offset_spent, hp.stream]
      | cons u us =>
        by_cases hn : u.isBaseSlice = true → t.engine.nextOrder.toNat + 1 < UInt32.size
        · obtain ⟨a, d, found, hh, hturn⟩ :=
            turn_slice hd.attentive hf hp.flushing hu hle hlt' hn
          have hfed : Fed pool t ((t.submitted (some p.stream) work a).received pool found d) :=
            ⟨.single (Or.inl (.receive _ hs.engineReady hs.current hf hh.sliced hh.found)),
              hs.engineReady, hs.current⟩
          obtain ⟨v, hpair, hfed', htidied⟩ :=
            (pairQueued_returns (t.config.asyncDepth.toNat / 2 + 1) (hfed.running hs)).and
              (tidied_pairQueued _ _)
          obtain ⟨hpos, hnext⟩ := hp.next hu
          rw [hpair] at hturn
          have hturn : turn pool t p = .ok (true, v, _) := hturn
          have hvisited' := hv t p v _ hvisited hturn
          rw [hturn]
          refine ih ((hfed.trans hfed').running hs) ((hd.slice hh).tidied htidied) hnext hstarved
            hvisited' ?_
          have hstop := hnext.le
          rw [Submission.offset_past] at hstop ⊢
          omega
        · obtain ⟨hb, hover⟩ := Classical.not_imp.mp hn
          have hturn := turn_overflow hd.attentive hf hp.flushing hu hle hlt' hb
            (Nat.le_of_not_lt hover)
          rw [hturn]
          refine Or.inr ⟨rfl, taken, u.shift p.stream.offset, us.map (·.shift p.stream.offset), ?_,
            hb, ?_⟩
          · have hremaining : p.stream.remaining = data.drop p.stream.offset := by
              rw [Bitstream.remaining, hp.stream]
            rw [hp.split, ← hremaining, hu, List.map_cons]
          · have hlast := t.engine.nextOrder.toNat_lt_size
            rw [← hd.nextOrder]
            omega

/-! ## Decoding -/

section Decode

variable {visited : Session SimulatedEngine → Submission → Prop} {taken : List NalUnit}

/-- The buffer is kept from where the stream is consumed to. -/
theorem leftover_submitted {data : Bytes} {x : Session SimulatedEngine × Submission}
    (h : Submitted pool data visited s taken x) :
    leftover data x.2 = .ok (data.drop x.2.stream.offset) := by
  unfold leftover
  rw [if_neg (by rw [h.underway.discard]; exact Bool.false_ne_true)]
  split
  · rename_i hidle
    have hstarved : x.2.starved = false := by simpa using hidle.2.2.2
    rcases h.ended with ⟨-, hall⟩ | ⟨hs, -⟩
    · rw [hall, List.drop_length]
    · rw [hs] at hstarved
      cases hstarved
  · exact if_pos h.underway.le

theorem conclude_submitted {data : Bytes} {x : Session SimulatedEngine × Submission}
    (h : Submitted pool data visited s taken x) :
    Returns (x.1.conclude data x.2) fun y => (∃ status, y.1 = .ok status ∧ status.error = false) ∧
      Tidied { x.1 with buffer := data.drop x.2.stream.offset } y.2 := by
  obtain ⟨t, p⟩ := x
  have hrest := leftover_submitted h
  have hverdict : verdict p.status = .ok p.status := by
    rcases h.underway.status with hp | hp
    · have hp : p.status = .ok := hp
      rw [hp, verdict_ok]
    · have hp : p.status = .moreData := hp
      rw [hp, verdict_moreData]
  dsimp only at hrest ⊢
  rw [conclude_eq t h.underway.stuck hrest hverdict]
  split
  · have hrun : Running pool { t with buffer := data.drop p.stream.offset } :=
      ((aside_edit h.running.inStep.ready _).fed h.running).running h.running
    obtain ⟨u, hu, -, htidied⟩ := (flushQueues_returns (p.flushing && p.status == .moreData)
      hrun).and (tidied_flushQueues _ _)
    rw [hu]
    exact .ok ⟨⟨_, rfl, rfl⟩, htidied⟩
  · exact .ok ⟨⟨_, rfl, rfl⟩, .refl _⟩

/-- There is a turn for every answer that was prepared and for every byte, and two more. -/
theorem le_turnLimit (s : Session SimulatedEngine) (bytes : Nat) :
    s.engine.patience + bytes + 2 ≤ s.turnLimit bytes := by
  change _ ≤ s.engine.patience + _ + _ + _ + 2
  omega

theorem submit_eq (hc : s.current = some pool) (stream : Bitstream) (flushing : Bool) :
    s.submit stream flushing = (do
      let x ← submitWithin pool (s.turnLimit stream.data.length) s
        { flushing := flushing, stream := stream }
      return (.ok x.2, x.1)) := by
  unfold submit
  split
  · rename_i hn
    rw [hc] at hn
    cases hn
  · rename_i pool' hs
    cases hc.symm.trans hs
    rfl

/-- With a pool at hand the buffer is handed over turn by turn, and what is left is settled. -/
theorem decodeBuffer_eq (hc : s.current = some pool) (flushing : Bool) (dts pts : Option UInt64) :
    s.decodeBuffer flushing dts pts = (do
      let x ← submitWithin pool (s.turnLimit s.buffer.length) { s with buffer := [] }
        { flushing := flushing, stream := ⟨s.buffer, 0, pts, dts⟩ }
      x.1.conclude s.buffer x.2) := by
  have hc : ({ s with buffer := [] } : Session SimulatedEngine).current = some pool := hc
  have hlimit : ({ s with buffer := [] } : Session SimulatedEngine).turnLimit s.buffer.length =
      s.turnLimit s.buffer.length := rfl
  unfold decodeBuffer
  dsimp only
  rw [submit_eq hc, hlimit]
  cases submitWithin pool (s.turnLimit s.buffer.length) { s with buffer := [] }
      { flushing := flushing, stream := ⟨s.buffer, 0, pts, dts⟩ } with
  | error fault => rfl
  | ok x => rfl

theorem advance_of_ready (hp : s.phase = .ready) (flushing : Bool) (dts pts : Option UInt64) :
    s.advance flushing dts pts = s.decodeBuffer flushing dts pts := by
  have harrange : s.arrange flushing = .ok (.ok true, s) := if_pos hp
  unfold advance
  rw [harrange]
  rfl

theorem tryDecode_of_accept {data : Option Bytes} (ha : s.accept data = .ok (.ok t))
    (dts pts : Option UInt64) : s.tryDecode data dts pts = t.advance data.isNone dts pts := by
  unfold tryDecode
  rw [ha]
  rfl

/-- The slices of the buffer of `s` were handed over in order, or are in the buffer of `t` still. -/
structure Delivers (s t : Session SimulatedEngine) : Prop where
  phase : t.phase = s.phase
  left : t.buffer <:+ s.buffer
  slices : ∃ events taken, t.journal = events ++ s.journal ∧
    deliveries events = taken.map (fun u => (u.viewId, some u.stop)) ∧
    sliceUnits s.buffer =
      taken ++ (sliceUnits t.buffer).map (·.shift (s.buffer.length - t.buffer.length))

theorem decodeBuffer_delivers (dts pts : Option UInt64) (hs : Running pool s)
    (he : s.engine.Attentive) (hlt : s.buffer.length < wordLimit)
    (hv : ∀ s p t q, visited s p → turn pool s p = .ok (true, t, q) → visited t q)
    (hfirst : visited { s with buffer := [] }
      { flushing := false, stream := ⟨s.buffer, 0, pts, dts⟩ }) :
    Returns (s.decodeBuffer false dts pts) (fun x =>
        (∃ status, x.1 = .ok status ∧ status.error = false) ∧ Delivers s x.2 ∧
          (x.2.buffer = [] ∨ ∃ u p, visited u p ∧ u.pools.freeSurface? pool = none)) ∨
      s.decodeBuffer false dts pts = .error .overflow ∧ Overflows s.buffer s := by
  have hrun : Running pool { s with buffer := [] } :=
    ((aside_edit hs.inStep.ready []).fed hs).running hs
  have hdelivers := submitWithin_delivers hv (s.turnLimit s.buffer.length) hrun (.refl he)
    (Underway.first s.buffer pts dts) rfl hfirst hlt (by
      have hturns := le_turnLimit s s.buffer.length
      dsimp only
      omega)
  rw [decodeBuffer_eq hs.current]
  rcases hdelivers with ⟨x, hx, taken, hsub⟩ | ⟨hover, hoverflows⟩
  · rw [hx]
    refine Or.inl ?_
    obtain ⟨y, hy, hstatus, htidied⟩ := conclude_submitted hsub
    refine ⟨y, hy, hstatus, ?_⟩
    have hle := hsub.underway.le
    obtain ⟨_, _, _, _, hrest⟩ := htidied.rest
    have hbuffer : y.2.buffer = s.buffer.drop x.2.stream.offset := by
      rw [hrest]
    have hconsumed : s.buffer.length - y.2.buffer.length = x.2.stream.offset := by
      rw [hbuffer, List.length_drop]
      omega
    obtain ⟨events, hj, hd⟩ := hsub.delivered.journal
    obtain ⟨events', hj', hn⟩ := htidied.journal
    obtain ⟨_, _, _, _, hsame⟩ := hsub.delivered.rest
    refine ⟨⟨?_, ?_, events' ++ events, taken, ?_, ?_, ?_⟩, ?_⟩
    · rw [hrest, hsame]
    · rw [hbuffer]
      exact List.drop_suffix _ _
    · rw [List.append_assoc, hj']
      exact congrArg (events' ++ ·) hj
    · rw [deliveries_append, deliveries_eq_nil hn, List.append_nil, hd]
    · rw [hconsumed, hbuffer]
      exact hsub.underway.split
    · rw [hbuffer]
      rcases hsub.ended with ⟨-, hall⟩ | ⟨-, hfree, p, hp⟩
      · exact Or.inl (by rw [hall, List.drop_length])
      · exact Or.inr ⟨x.1, p, hp, hfree⟩
  · rw [hover]
    exact Or.inr ⟨rfl, hoverflows⟩

end Decode

end Session

namespace Client

open Session

variable {c : Client SimulatedEngine}

/-- Every slice reaches the engine once and in order. A call that takes input hands over the first
slices of the buffer, one by one, and keeps the bytes that hold all others; it keeps none unless it
runs out of free surfaces. Only the last frame order sets a limit. -/
theorem Reachable.slices_delivered (h : c.Reachable) (hp : c.session.phase = .ready)
    (hb : c.session.engine.busy = .calls 0) (hi : c.session.engine.injected = [])
    {data : Bytes} {t : Session SimulatedEngine} (ha : c.session.accept (some data) = .ok (.ok t))
    (hlt : t.buffer.length < wordLimit) (dts pts : Option UInt64) :
    Returns (c.session.decode (some data) dts pts) (fun x => x.1.error = false ∧ Delivers t x.2 ∧
        ((∀ pool s p, c.Turns (.decode (some data) dts pts) pool s p →
          (s.pools.freeSurface? pool).isSome = true) → x.2.buffer = [])) ∨
      c.session.decode (some data) dts pts = .error .overflow ∧
        ∃ before u after, sliceUnits t.buffer = before ++ u :: after ∧ u.isBaseSlice = true ∧
          c.session.journal.countP Event.returnsBase + before.countP (·.isBaseSlice) + 1 =
            UInt32.size := by
  have hsettled := h.settled
  obtain ⟨hready, -⟩ := hsettled.ready hp
  obtain ⟨pool, hcur⟩ := Option.isSome_iff_exists.mp (hsettled.active (Or.inr hp))
  obtain ⟨-, ⟨_, he⟩ | ⟨b, hb'⟩⟩ | ⟨hn, -⟩ := accept_cases (some data) c.session _ ha
  · cases he
  · cases hb'
    have hrun : Running pool { c.session with buffer := b } :=
      ((aside_edit h.accounted.inStep.ready b).fed
        ⟨h.accounted.inStep, hready, hcur⟩).running ⟨h.accounted.inStep, hready, hcur⟩
    have hattentive : SimulatedEngine.Attentive c.session.engine :=
      ⟨hb, hi, hsettled.attuned.held.trans hready⟩
    have harrange : Session.arrange false { c.session with buffer := b } =
        .ok (.ok true, { c.session with buffer := b }) := if_pos hp
    have hnext : ∀ s p t q, c.Turns (.decode (some data) dts pts) pool s p →
        turn pool s p = .ok (true, t, q) → c.Turns (.decode (some data) dts pts) pool t q :=
      fun _ _ _ _ => Turns.next
    have hdecode := decodeBuffer_delivers dts pts hrun hattentive hlt hnext
      (.first dts pts (.decode (some data) dts pts) ha harrange hcur)
    unfold Session.decode
    rw [tryDecode_of_accept ha, advance_of_ready (s := { c.session with buffer := b }) hp,
      Option.isNone_some]
    rcases hdecode with ⟨⟨answer, s⟩, hx, ⟨status, hstatus, herror⟩, hdelivers, hempty⟩ | ⟨hx, hover⟩
    · dsimp only at hstatus
      subst hstatus
      rw [hx]
      refine Or.inl ⟨_, rfl, herror, hdelivers, fun hfree => hempty.resolve_right ?_⟩
      rintro ⟨u, p, hturn, hnone⟩
      have hsome := hfree pool u p hturn
      rw [hnone] at hsome
      cases hsome
    · rw [hx]
      refine Or.inr ⟨rfl, ?_⟩
      obtain ⟨before, u, after, hsplit, hbase, hcount⟩ := hover
      rw [← h.numbered]
      exact ⟨before, u, after, hsplit, hbase, hcount⟩
  · exact absurd (Or.inr hp) hn

/-- The extension slice of the second picture of `stereoUnits`. -/
def lateUnit : Bytes := [0, 0, 1, 0x74, 1]

/-- The second extension slice finds its base slice waiting. -/
theorem stereoRun_delivered : ∃ (c : Client SimulatedEngine) (t : Session SimulatedEngine),
    c.Reachable ∧ c.session.phase = .ready ∧ c.session.accept (some lateUnit) = .ok (.ok t) ∧
      Returns (c.session.decode (some lateUnit) none none) fun x =>
        x.1.error = false ∧ Delivers t x.2 := by
  have hrun : stereoRun.toOption.map (fun c => (c.session.phase, c.session.engine.busy,
      c.session.engine.injected, (c.session.accept (some lateUnit)).toOption.bind
        fun answer => answer.toOption.map (·.buffer))) =
      some (.ready, .calls 0, [], some lateUnit) := by decide +kernel
  have hnone : ∀ before u after, sliceUnits lateUnit = before ++ u :: after →
      u.isBaseSlice = false := by
    intro before u after hsplit
    have hall : (sliceUnits lateUnit).all (fun u => !u.isBaseSlice) = true := by decide +kernel
    rw [hsplit] at hall
    simpa using List.all_eq_true.mp hall u (by simp)
  cases hc : stereoRun with
  | error fault =>
    rw [hc] at hrun
    cases hrun
  | ok c =>
    rw [hc] at hrun
    obtain ⟨hphase, hrest⟩ := Prod.mk.inj (Option.some.inj hrun)
    obtain ⟨hbusy, hrest⟩ := Prod.mk.inj hrest
    obtain ⟨hinjected, haccept⟩ := Prod.mk.inj hrest
    cases ha : c.session.accept (some lateUnit) with
    | error fault =>
      rw [ha] at haccept
      cases haccept
    | ok answer =>
      cases answer with
      | error e =>
        rw [ha] at haccept
        cases haccept
      | ok t =>
        rw [ha] at haccept
        have hbuffer : t.buffer = lateUnit := Option.some.inj haccept
        have hlt : t.buffer.length < wordLimit := by
          rw [hbuffer]
          decide
        have hreach := stereoRun_reachable hc
        refine ⟨c, t, hreach, hphase, ha, ?_⟩
        rcases Reachable.slices_delivered hreach hphase hbusy hinjected ha hlt none none with
          hdelivered | ⟨_, before, u, after, hsplit, hbase, _⟩
        · exact hdelivered.mono fun x hx => ⟨hx.1, hx.2.1⟩
        · rw [hbuffer] at hsplit
          rw [hnone before u after hsplit] at hbase
          cases hbase

end Client

end Multiview
