import Multiview.Proofs.Engine.Simulated
import Multiview.Proofs.Nal.Scan

/-!
What the simulated engine does with a stream when nothing was prepared. It takes the next slice of the
stream up to its last byte, or all of the stream if there is no slice, and it fails only when it runs
out of frame orders.
-/

namespace Multiview

open Outcome

/-! ## Writing -/

theorem HostBuffer.fill_returns {start stop : Nat} {b : HostBuffer} (hs : start ≤ stop)
    (hle : stop ≤ b.size) (value : UInt8) : Returns (b.fill start stop value) fun _ => True := by
  unfold fill
  rw [if_pos ⟨hs, hle⟩]
  exact .ok trivial

theorem HostFrames.fill_returns {mid : MemId} {v : FrameView} {s : HostFrames} {start stop : Nat}
    (hv : s.view mid = .ok v) (hs : start ≤ stop) (hle : stop ≤ v.buffer.size) (value : UInt8) :
    Returns (s.fill mid start stop value) fun _ => True := by
  unfold view at hv
  unfold fill
  cases hf : s.frames[mid.value]? with
  | none => exact .ok trivial
  | some f =>
    simp only [hf] at hv ⊢
    cases hv
    exact (HostBuffer.fill_returns hs hle value).bind fun _ _ => .pure trivial

/-- A frame that can be mapped can be filled within its buffer. -/
theorem MixedAllocator.fill_returns {mid : MemId} {v : FrameView} {a : MixedAllocator}
    {start stop : Nat} (hv : a.view mid = .ok v) (hs : start ≤ stop) (hle : stop ≤ v.buffer.size)
    (value : UInt8) : Returns (a.fill mid start stop value) fun _ => True := by
  have hask : a.store.ask mid (·.view mid) (·.view mid) = .ok v := hv
  have hfill : Returns (a.store.fill mid start stop value) fun _ => True := by
    unfold MixedFrames.fill
    split
    · rename_i host horigin hhost
      simp only [MixedFrames.ask, horigin, hhost] at hask
      have hfilled : Returns (host.fill mid start stop value) fun _ => True :=
        (HostFrames.fill_returns hask hs hle value).bind fun _ _ => .pure trivial
      exact hfilled.bind fun _ _ => .pure trivial
    · exact .ok trivial
  exact hfill.bind fun _ _ => .pure trivial

theorem Resources.fillLuma_returns (id : AllocatorId) (mid : MemId) (value : UInt8)
    (r : Resources) : Returns (r.fillLuma id mid value) fun _ => True := by
  unfold fillLuma
  cases r.allocators[id]? with
  | none => exact .ok trivial
  | some a =>
    cases hv : a.view mid with
    | error e =>
      simp only [hv]
      exact .ok trivial
    | ok v =>
      simp only [hv]
      have hstart : v.offsets.1 ≤ min v.offsets.2 v.buffer.size := by
        have hzero : v.offsets.1 = 0 := by
          have hask : a.store.ask mid (·.view mid) (·.view mid) = .ok v := hv
          unfold MixedFrames.ask at hask
          split at hask
          · split at hask
            · cases hask
            · cases hask
          · split at hask
            · cases hask
            · rename_i host _
              have hhost : host.store.view mid = .ok v := hask
              unfold HostFrames.view at hhost
              split at hhost
              · cases hhost
              · cases hhost
                rfl
        rw [hzero]
        exact Nat.zero_le _
      refine (MixedAllocator.fill_returns hv hstart (Nat.min_le_right _ _) value).bind ?_
      exact fun _ _ => .pure trivial

theorem Bitstream.consume_returns {b : Bitstream} {n : Nat} (h : b.offset + n ≤ b.data.length)
    (hlt : b.data.length < wordLimit) :
    Returns (b.consume n) fun b' => b' = { b with offset := b.offset + n } :=
  (below_returns (Nat.lt_of_le_of_lt h hlt)).bind fun offset ho => .pure (by
    rw [ho, Nat.min_eq_left h])

/-! ## Decoding -/

/-- After one answer of a busy device. -/
def Busy.next : Busy → Busy
  | calls n => calls (n - 1)
  | always => always

theorem Busy.always_or_calls {busy : Busy} (h : busy ≠ .calls 0) :
    busy = .always ∨ ∃ n, busy = .calls (n + 1) := by
  cases busy with
  | always => exact Or.inl rfl
  | calls n =>
    cases n with
    | zero => exact absurd rfl h
    | succ n => exact Or.inr ⟨n, rfl⟩

namespace SimulatedEngine

/-- Nothing was prepared: the engine decodes what it is handed. -/
structure Attentive (e : SimulatedEngine) : Prop where
  busy : e.busy = .calls 0
  injected : e.injected = []
  held : e.params.isSome = true

/-- A slice of the base view takes a new order. -/
theorem nextPicture_returns {u : NalUnit} {e : SimulatedEngine}
    (hn : u.isBaseSlice = true → e.nextOrder.toNat + 1 < UInt32.size) :
    Returns (e.nextPicture u) fun x => x.1 = u.viewId ∧ x.2.2.busy = e.busy ∧
      x.2.2.injected = e.injected ∧ x.2.2.params = e.params := by
  unfold nextPicture NalUnit.viewId
  by_cases hb : u.isBaseSlice = true
  · have hbase : u.header.type.isBaseSlice = true := hb
    rw [if_pos hbase, if_pos hb]
    exact (below_returns (hn hb)).bind fun _ _ => .pure ⟨rfl, rfl, rfl, rfl⟩
  · have hbase : ¬ u.header.type.isBaseSlice = true := hb
    rw [if_neg hbase, if_neg hb]
    exact .pure ⟨rfl, rfl, rfl, rfl⟩

section Decode

variable {e : SimulatedEngine} {stream : Bitstream} {u : NalUnit} {us : List NalUnit}

theorem decode_attentive (he : Attentive e) (stream : Bitstream) (work : WorkSurface)
    (r : Resources) :
    ∃ params, e.params = some params ∧ e.decode (some stream) work r =
      match (sliceUnits stream.remaining).head? with
      | none => do
        let stream ← stream.consume stream.remaining.length
        return ⟨.moreData, none, some stream,
          ({ e with submissions := e.submissions + 1 }.completeAll r).1,
          ({ e with submissions := e.submissions + 1 }.completeAll r).2⟩
      | some u => decodeSlice params u stream work
          ({ e with submissions := e.submissions + 1 }.completeAll r).1
          ({ e with submissions := e.submissions + 1 }.completeAll r).2 := by
  obtain ⟨params, hp⟩ := Option.isSome_iff_exists.mp he.held
  refine ⟨params, hp, ?_⟩
  unfold decode
  cases hfound : (sliceUnits stream.remaining).head? with
  | none => simp only [he.busy, he.injected, completeAll, hp, find?_isSlice, hfound]
  | some u => simp only [he.busy, he.injected, completeAll, hp, find?_isSlice, hfound]

/-- A busy device is not asked for anything. -/
theorem decode_busy (hb : e.busy ≠ .calls 0) (input : Option Bitstream) (work : WorkSurface)
    (r : Resources) :
    e.decode input work r = .ok ⟨.deviceBusy, none, input, { e with busy := e.busy.next }, r⟩ := by
  rcases Busy.always_or_calls hb with h | ⟨n, h⟩
  · have hsame : { e with busy := e.busy.next } = e := by
      rw [h, Busy.next, ← h]
    rw [hsame]
    simp only [decode, h]
  · simp only [decode, h, Busy.next, Nat.add_sub_cancel]

/-- Once the device is not busy, the answers that were prepared are given. -/
theorem decode_injected (hb : e.busy = .calls 0) {status : EngineStatus} {rest : List EngineStatus}
    (hi : e.injected = status :: rest) (input : Option Bitstream) (work : WorkSurface)
    (r : Resources) :
    e.decode input work r = .ok ⟨status, none, input, { e with injected := rest }, r⟩ := by
  simp only [decode, hb, hi]

/-- An engine that was not set up cannot decode. -/
theorem decode_unheld (hb : e.busy = .calls 0) (hi : e.injected = []) (hp : e.params = none)
    (input : Option Bitstream) (work : WorkSurface) (r : Resources) :
    e.decode input work r = .ok ⟨.fatal, none, input,
      ({ e with submissions := e.submissions + 1 }.completeAll r).1,
      ({ e with submissions := e.submissions + 1 }.completeAll r).2⟩ := by
  simp only [decode, hb, hi, completeAll, hp]

/-- Without a stream the engine has nothing left to decode. -/
theorem decode_none (he : Attentive e) (work : WorkSurface) (r : Resources) :
    e.decode none work r = .ok ⟨.moreData, none, none,
      ({ e with submissions := e.submissions + 1 }.completeAll r).1,
      ({ e with submissions := e.submissions + 1 }.completeAll r).2⟩ := by
  obtain ⟨params, hp⟩ := Option.isSome_iff_exists.mp he.held
  simp only [decode, he.busy, he.injected, completeAll, hp]

/-- Without a slice the whole stream is taken, and more is asked for. -/
theorem decode_dry (he : Attentive e) (hs : sliceUnits stream.remaining = [])
    (hle : stream.offset ≤ stream.data.length) (hlt : stream.data.length < wordLimit)
    (work : WorkSurface) (r : Resources) :
    Returns (e.decode (some stream) work r) fun a => a.status = .moreData ∧ a.output = none ∧
      a.stream = some { stream with offset := stream.data.length } ∧ Attentive a.engine := by
  obtain ⟨params, hp, hdecode⟩ := decode_attentive he stream work r
  rw [hdecode, hs]
  have hall : stream.offset + stream.remaining.length = stream.data.length := by
    rw [Bitstream.remaining, List.length_drop]
    omega
  refine (Bitstream.consume_returns (Nat.le_of_eq hall) hlt).bind ?_
  rintro _ rfl
  rw [hall]
  exact .pure ⟨rfl, rfl, rfl, ⟨he.busy, he.injected, he.held⟩⟩

/-- The next slice is taken, and with it all that comes before it. -/
theorem decode_slice (he : Attentive e) (hs : sliceUnits stream.remaining = u :: us)
    (hle : stream.offset ≤ stream.data.length) (hlt : stream.data.length < wordLimit)
    (hn : u.isBaseSlice = true → e.nextOrder.toNat + 1 < UInt32.size) (work : WorkSurface)
    (r : Resources) :
    Returns (e.decode (some stream) work r) fun a => Attentive a.engine ∧
      a.stream = some { stream with offset := stream.offset + u.stop } ∧
      ∃ d, Sliced work e r a d ∧ d.info.viewId = u.viewId ∧
        d.frameMeta.streamTimestamp = stream.timestamp := by
  obtain ⟨params, hp, hdecode⟩ := decode_attentive he stream work r
  have hstop : stream.offset + u.stop ≤ stream.data.length := by
    have hle' := (sliceUnits_drop hs).2.1
    rw [Bitstream.remaining, List.length_drop] at hle'
    omega
  have hreturns : Returns (e.decode (some stream) work r) fun a => Attentive a.engine ∧
      a.stream = some { stream with offset := stream.offset + u.stop } ∧
      ∃ d, a.output = some d ∧ d.info.viewId = u.viewId ∧
        d.frameMeta.streamTimestamp = stream.timestamp := by
    rw [hdecode, hs]
    simp only [List.head?_cons]
    unfold decodeSlice
    refine (Bitstream.consume_returns hstop hlt).bind ?_
    rintro _ rfl
    refine (nextPicture_returns (e := ({ e with
      submissions := e.submissions + 1 }.completeAll r).1) hn).bind ?_
    rintro ⟨viewId, order, e'⟩ ⟨rfl, hbusy, hinjected, hparams⟩
    dsimp only at hbusy hinjected hparams ⊢
    have hmeta : ∀ order : UInt32, FrameMeta.streamTimestamp ⟨order, stream.timestamp,
        if stream.timestamp.isSome then FrameMeta.fromStream else 0⟩ = stream.timestamp := by
      intro order
      cases stream.timestamp with
      | none => exact ite_self _
      | some timestamp => exact if_pos UInt16.and_self
    cases ha : e'.allocator with
    | none => exact .pure ⟨⟨hbusy.trans he.busy, hinjected.trans he.injected,
        (congrArg Option.isSome hparams).trans he.held⟩, rfl, _, rfl, rfl, hmeta order⟩
    | some id =>
      refine (Resources.fillLuma_returns id work.mid _ _).bind fun r' _ => .pure ?_
      exact ⟨⟨hbusy.trans he.busy, hinjected.trans he.injected,
        (congrArg Option.isSome hparams).trans he.held⟩, rfl, _, rfl, rfl, hmeta order⟩
  refine (hreturns.and (decode_sound (some stream) work e r).yields).mono ?_
  rintro a ⟨⟨hatt, hstream, d, hout, hview, htime⟩, hidle | ⟨_, d', hsliced⟩⟩
  · rw [hidle.output] at hout
    cases hout
  · cases hout.symm.trans hsliced.output
    exact ⟨hatt, hstream, d, hsliced, hview, htime⟩

/-- Orders run out before anything is written. -/
theorem decode_overflow (he : Attentive e) (hs : sliceUnits stream.remaining = u :: us)
    (hle : stream.offset ≤ stream.data.length) (hlt : stream.data.length < wordLimit)
    (hb : u.isBaseSlice = true) (hn : UInt32.size ≤ e.nextOrder.toNat + 1) (work : WorkSurface)
    (r : Resources) : e.decode (some stream) work r = .error .overflow := by
  obtain ⟨params, hp, hdecode⟩ := decode_attentive he stream work r
  have hstop : stream.offset + u.stop ≤ stream.data.length := by
    have hle' := (sliceUnits_drop hs).2.1
    rw [Bitstream.remaining, List.length_drop] at hle'
    omega
  obtain ⟨stream', hconsume, rfl⟩ := Bitstream.consume_returns hstop hlt
  have hbase : u.header.type.isBaseSlice = true := hb
  have hbelow : below UInt32.size (e.nextOrder.toNat + 1) = .error .overflow :=
    if_neg (Nat.not_lt.mpr hn)
  rw [hdecode, hs]
  simp only [List.head?_cons, decodeSlice, hconsume, nextPicture, hbase, ↓reduceIte, completeAll,
    hbelow, bind, Except.bind]

end Decode

end SimulatedEngine

end Multiview
