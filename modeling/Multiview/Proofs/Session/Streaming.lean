import Multiview.Proofs.Nal.Written
import Multiview.Proofs.Session.Aligned

/-!
One access unit after another through a ready session. Each brings one surface of either view, and they
are paired as soon as enough wait, so that the pool always has a surface left for the engine.
-/

namespace Multiview

open Outcome

namespace Session

variable {s t : Session SimulatedEngine} {pool : PoolId}

/-! ## Turns -/

section Turn

variable {a : DecodeAnswer SimulatedEngine} {d : DecodedSurface} {index : Nat} {work : WorkSurface}
  {stream : Bitstream} {u : NalUnit} {us : List NalUnit} {found first count : Nat} {p : Submission}

theorem Handed.base (h : Handed pool work stream u s a d found) (hu : u.isBaseSlice = true) :
    d.info.viewId = 0 ∧ d.frameMeta.frameOrder = s.engine.nextOrder ∧
      a.engine.lastBaseOrder = s.engine.nextOrder := by
  have hview := h.viewId
  rw [NalUnit.viewId, if_pos hu] at hview
  rcases h.sliced.order with ⟨_, horder, _, hlast⟩ | ⟨hone, _⟩
  · exact ⟨hview, horder, hlast⟩
  · rw [hone] at hview
    cases hview

theorem Handed.extension (h : Handed pool work stream u s a d found)
    (hu : u.isBaseSlice = false) :
    d.info.viewId = 1 ∧ d.frameMeta.frameOrder = s.engine.lastBaseOrder := by
  have hview := h.viewId
  rw [NalUnit.viewId, if_neg (Bool.eq_false_iff.mp hu)] at hview
  rcases h.sliced.order with ⟨hzero, _⟩ | ⟨_, horder, _⟩
  · rw [hzero] at hview
    cases hview
  · exact ⟨hview, horder⟩

/-- After the base slice of picture number `n` of a stream: it waits for the other view. -/
structure Half (n : Nat) (s t : Session SimulatedEngine) : Prop where
  base : ∃ b, IsView 0 n b ∧ t.queues = { s.queues with base := s.queues.base ++ [b] }
  pictures : t.pictures = s.pictures
  table : t.pools.pictures = s.pools.pictures
  attentive : t.engine.Attentive
  lastBaseOrder : t.engine.lastBaseOrder.toNat = n

theorem turn_base (hs : Running pool s) (hq : Aligned first count s.queues)
    (hfew : count ≤ s.config.asyncDepth.toNat / 2) (he : s.engine.Attentive)
    (hn : s.engine.nextOrder.toNat = first + count) (hlimit : first + count + 1 < UInt32.size)
    (hf : s.pools.freeSurface? pool = some (index, work)) (hp : p.flushing = false)
    (htime : p.stream.timestamp = some (UInt64.ofNat (first + count)))
    (hslices : sliceUnits p.stream.remaining = u :: us) (hu : u.isBaseSlice = true)
    (hle : p.stream.offset ≤ p.stream.data.length) (hlt : p.stream.data.length < wordLimit) :
    Returns (turn pool s p) fun x =>
      x.1 = true ∧ x.2.2 = p.past u ∧ Half (first + count) s x.2.1 := by
  obtain ⟨a, d, found, hh, hturn⟩ := turn_slice he hf hp hslices hle hlt fun _ => by
    rw [hn]
    exact hlimit
  obtain ⟨hzero, horder, hlast⟩ := hh.base hu
  have hb : IsView 0 (first + count) ⟨found, d.mid, d.info, d.frameMeta⟩ :=
    ⟨hzero, (congrArg UInt32.toNat horder).trans hn, hh.timestamp.trans htime⟩
  have hqueues : ((s.submitted (some p.stream) work a).received pool found d).queues =
      { s.queues with base := s.queues.base ++ [⟨found, d.mid, d.info, d.frameMeta⟩] } :=
    hb.push_base s.queues
  have hcur : ((s.submitted (some p.stream) work a).received pool found d).current = some pool :=
    hs.current
  rw [hturn, pairQueued_short hcur (by
    rw [hqueues, hq.length_extra]
    omega)]
  refine .ok ⟨rfl, rfl, ⟨_, hb, hqueues⟩, rfl, rfl, hh.attentive, ?_⟩
  exact (congrArg UInt32.toNat hlast).trans hn

/-- The extension slice completes the picture. -/
theorem turn_extension {s₀ : Session SimulatedEngine} (hs : Running pool s)
    (hq : Aligned first count s₀.queues) (hhalf : Half (first + count) s₀ s)
    (hf : s.pools.freeSurface? pool = some (index, work)) (hp : p.flushing = false)
    (htime : p.stream.timestamp = some (UInt64.ofNat (first + count)))
    (hslices : sliceUnits p.stream.remaining = u :: us) (hu : u.isBaseSlice = false)
    (hle : p.stream.offset ≤ p.stream.data.length) (hlt : p.stream.data.length < wordLimit) :
    Returns (turn pool s p) fun x => x.1 = true ∧ x.2.2 = p.past u ∧ x.2.1.engine.Attentive ∧
      Made first (count + 1 - s.config.asyncDepth.toNat / 2) s₀ x.2.1 ∧
      Aligned (first + (count + 1 - s.config.asyncDepth.toNat / 2))
        (count + 1 - (count + 1 - s.config.asyncDepth.toNat / 2)) x.2.1.queues := by
  obtain ⟨b, hb, hqueues⟩ := hhalf.base
  obtain ⟨a, d, found, hh, hturn⟩ := turn_slice hhalf.attentive hf hp hslices hle hlt fun h => by
    rw [hu] at h
    cases h
  obtain ⟨hone, horder⟩ := hh.extension hu
  have hx : IsView 1 (first + count) ⟨found, d.mid, d.info, d.frameMeta⟩ :=
    ⟨hone, (congrArg UInt32.toNat horder).trans hhalf.lastBaseOrder, hh.timestamp.trans htime⟩
  generalize ht : (s.submitted (some p.stream) work a).received pool found d = t at hturn
  have hall : Aligned first (count + 1) t.queues := by
    have hpushed : t.queues = s.queues.push ⟨found, d.mid, d.info, d.frameMeta⟩ := by
      rw [← ht]
      rfl
    rw [hpushed, hqueues, hx.push_extra]
    exact hq.push hb hx
  have hcur : t.current = some pool := by
    rw [← ht]
    exact hs.current
  obtain ⟨v, hv, htidied, hmade, haligned⟩ := pairQueued_aligned
    (Nat.le_add_left 1 (s.config.asyncDepth.toNat / 2)) hcur hall
  rw [Nat.add_sub_add_right] at hmade haligned
  rw [hturn, hv]
  refine .ok ⟨rfl, rfl, htidied.attentive ?_, ⟨?_, ?_⟩, haligned⟩
  · rw [← ht]
    exact hh.attentive
  · have htable : t.pools.pictures = s₀.pools.pictures := by
      rw [← ht]
      exact hhalf.table
    rw [← htable]
    exact hmade.table
  · have htable : t.pools.pictures = s₀.pools.pictures := by
      rw [← ht]
      exact hhalf.table
    have hpics : t.pictures = s₀.pictures := by
      rw [← ht]
      exact hhalf.pictures
    rw [← htable, ← hpics]
    exact hmade.pictures

end Turn

/-! ## Access units -/

/-- The pictures of a stream up to number `first` were made, and `count` more wait in the queues, fewer
than the depth calls for. The pool has as many surfaces as are ever in use, and two pairs to spare. -/
structure Streaming (pool : PoolId) (first count : Nat) (s : Session SimulatedEngine) : Prop where
  running : Running pool s
  aligned : Aligned first count s.queues
  few : count ≤ s.config.asyncDepth.toNat / 2
  room : s.config.asyncDepth.toNat + 4 ≤ (s.pools.pool pool).surfaces.length
  attentive : s.engine.Attentive
  nextOrder : s.engine.nextOrder.toNat = first + count

/-- A turn takes no surfaces away from the pool. -/
theorem turn_surfaces {p q : Submission} {goOn : Bool} (hs : Running pool s)
    (he : s.engine.Attentive) (h : turn pool s p = .ok (goOn, t, q)) :
    (t.pools.pool pool).surfaces.length = (s.pools.pool pool).surfaces.length ∧
      t.config = s.config := by
  have hserved := served_turn ⟨hs.engineReady, he.held⟩ p _ h
  exact ⟨hserved.pools.surfaces pool, hserved.config⟩

/-- As long as no more than one pair waits beyond the depth a surface is free for the next turn, since
the engine holds one surface at most. -/
theorem Streaming.exists_free {c : Client SimulatedEngine} {op : Operation} {first count : Nat}
    {q : Submission} (hs : Streaming pool first count s) (hc : Accounted c.references c.session)
    (hrefs : c.references = []) (hturn : c.Turns op pool t q)
    (hlen : (t.pools.pool pool).surfaces.length = (s.pools.pool pool).surfaces.length)
    (hle : t.queues.length + 2 * t.pictures.length ≤ 2 * (s.config.asyncDepth.toNat / 2) + 2) :
    ∃ index work, t.pools.freeSurface? pool = some (index, work) := by
  have hroom := hs.room
  obtain ⟨hacc, hrun⟩ := hturn.accounted hc
  refine hacc.exists_free hrun.current ?_
  rw [hrefs, List.append_nil, hlen]
  omega

/-- An access unit is handed over in three turns: one for either slice, and one that finds no more. In
each of them a surface is free, since less than the depth waits, one pair at most is on its way to the
client, and the engine holds one surface at most. -/
theorem submitWithin_pair {c : Client SimulatedEngine} {op : Operation} {data : Bytes}
    {first count : Nat} {p : Submission} {u v : NalUnit}
    (hc : Accounted c.references c.session) (hrefs : c.references = [])
    (hturn : c.Turns op pool s p) (hs : Streaming pool first count s) (hpics : s.pictures = [])
    (hlimit : first + count + 1 < UInt32.size) (hp : Underway data [] p)
    (htime : p.stream.timestamp = some (UInt64.ofNat (first + count)))
    (hslices : sliceUnits p.stream.remaining = [u, v]) (hu : u.isBaseSlice = true)
    (hv : v.isBaseSlice = false) (hlt : data.length < wordLimit) (fuel : Nat) :
    Returns (submitWithin pool (fuel + 3) s p) fun x =>
      x.2.starved = p.starved ∧ x.2.status = .moreData ∧
      Made first (count + 1 - s.config.asyncDepth.toNat / 2) s x.1 ∧
      Aligned (first + (count + 1 - s.config.asyncDepth.toNat / 2))
        (count + 1 - (count + 1 - s.config.asyncDepth.toNat / 2)) x.1.queues := by
  have hfew := hs.few
  have hfits : ∀ {q : Submission} {all : List NalUnit}, Underway data all q →
      q.stream.offset ≤ q.stream.data.length ∧ q.stream.data.length < wordLimit := by
    intro q all hq
    rw [hq.stream]
    exact ⟨hq.le, hlt⟩
  have hlength := hs.aligned.length_base
  have hlength' := hs.aligned.length_extra
  -- The base slice.
  obtain ⟨index, work, hf⟩ := hs.exists_free hc hrefs hturn rfl (by
    rw [ViewQueues.length, hlength, hlength', hpics, List.length_nil]
    omega)
  obtain ⟨x, hx, hgo, hpast, hhalf⟩ := turn_base hs.running hs.aligned hs.few hs.attentive
    hs.nextOrder hlimit hf hp.flushing htime hslices hu (hfits hp).1 (hfits hp).2
  obtain ⟨goOn, s₁, p₁⟩ := x
  dsimp only at hgo hpast hhalf
  subst hgo hpast
  obtain ⟨hlen₁, hconfig₁⟩ := turn_surfaces hs.running hs.attentive hx
  have hturn₁ := Client.Turns.next hturn hx
  obtain ⟨-, hp₁⟩ := hp.next hslices
  -- The extension slice.
  obtain ⟨b, -, hqueues₁⟩ := hhalf.base
  obtain ⟨index₁, work₁, hf₁⟩ := hs.exists_free hc hrefs hturn₁ hlen₁ (by
    rw [ViewQueues.length, hqueues₁, hhalf.pictures, hpics, List.length_append, hlength,
      hlength', List.length_singleton, List.length_nil]
    omega)
  obtain ⟨w, ws, hslices₁, hrest⟩ := List.map_eq_cons_iff.mp (Submission.slices_past hslices).symm
  obtain ⟨rfl, hws⟩ := hrest
  obtain ⟨y, hy, hgo, hpast, he₂, hmade, haligned⟩ := turn_extension (hturn₁.accounted hc).2 hs.aligned
    hhalf hf₁ hp₁.flushing htime hslices₁ hv (hfits hp₁).1 (hfits hp₁).2
  obtain ⟨goOn, s₂, p₂⟩ := y
  dsimp only at hgo hpast he₂ hmade haligned
  subst hgo hpast
  obtain ⟨hlen₂, -⟩ := turn_surfaces (hturn₁.accounted hc).2 hhalf.attentive hy
  have hturn₂ := Client.Turns.next hturn₁ hy
  obtain ⟨-, hp₂⟩ := hp₁.next hslices₁
  rw [hconfig₁] at hmade haligned
  -- Nothing more is found.
  have hwaiting := hmade.pictures
  rw [hpics, List.nil_append] at hwaiting
  obtain ⟨index₂, work₂, hf₂⟩ := hs.exists_free hc hrefs hturn₂ (hlen₂.trans hlen₁) (by
    rw [ViewQueues.length, haligned.length_base, haligned.length_extra, hwaiting,
      List.length_range']
    omega)
  have hslices₂ := Submission.slices_past hslices₁
  rw [List.map_eq_nil_iff.mp hws] at hslices₂
  obtain ⟨a, hi, ha, hz⟩ := turn_dry he₂ hf₂ hp₂.flushing
    (List.map_eq_nil_iff.mp hslices₂.symm) (hfits hp₂).1 (hfits hp₂).2
  simp only [submitWithin, hx, hy, hz, bind, Except.bind, ↓reduceIte, Bool.false_eq_true]
  exact .ok ⟨rfl, rfl, ⟨hmade.table, hmade.pictures⟩, haligned⟩

/-- Pictures that are due after one more access unit. -/
def due (count : Nat) (s : Session SimulatedEngine) : Nat :=
  count + 1 - s.config.asyncDepth.toNat / 2

/-- An access unit that was decoded: the pictures that are due are ready, and the rest waits. -/
structure Advanced (pool : PoolId) (first count : Nat) (s t : Session SimulatedEngine) : Prop where
  rest : ∃ engine queues pictures pools, t = { s with
    engine := engine, buffer := [], queues := queues, pictures := pictures, pools := pools }
  made : Made first (s.due count) s t
  streaming : Streaming pool (first + s.due count) (count + 1 - s.due count) t

/-- All input was taken, and the engine asks for more. -/
theorem conclude_spent {buffer : Bytes} {p : Submission} (hleft : leftover buffer p = .ok [])
    (hstuck : p.stuck = false) (hstatus : p.status = .moreData)
    (hcontrol : s.control.isDraining = false) :
    s.conclude buffer p = .ok (.ok { needInput := true, pictureReady := !s.pictures.isEmpty },
      { s with buffer := [] }) := by
  rw [conclude_eq s hstuck hleft (hstatus ▸ verdict_moreData)]
  simp only [Bool.false_eq_true, ↓reduceIte, bind, Except.bind, hstatus, hcontrol, statusAfter, BEq.rfl,
    Bool.not_false, Bool.and_self, Bool.false_and, Bool.true_or, pure, Except.pure]

/-- Both slices of an access unit are handed over, and nothing of it is left. -/
theorem submitted_pair {c : Client SimulatedEngine} {op : Operation} {first count : Nat}
    {pts : Option UInt64} {u v : NalUnit} (hc : Accounted c.references c.session)
    (hrefs : c.references = [])
    (hturn : c.Turns op pool { s with buffer := [] }
      { flushing := false, stream := ⟨s.buffer, 0, pts, none⟩ })
    (hs : Streaming pool first count { s with buffer := [] }) (hpics : s.pictures = [])
    (hlimit : first + count + 1 < UInt32.size) (hpts : pts = some (UInt64.ofNat (first + count)))
    (hslices : sliceUnits s.buffer = [u, v]) (hu : u.isBaseSlice = true)
    (hv : v.isBaseSlice = false) (hlt : s.buffer.length < wordLimit) :
    ∃ x, submitWithin pool (s.turnLimit s.buffer.length) { s with buffer := [] }
        { flushing := false, stream := ⟨s.buffer, 0, pts, none⟩ } = .ok x ∧
      Submitted pool s.buffer (c.Turns op pool) { s with buffer := [] } [u, v] x ∧
      x.2.stream.offset = s.buffer.length ∧ x.2.status = .moreData ∧
      Made first (s.due count) s x.1 ∧
      Aligned (first + s.due count) (count + 1 - s.due count) x.1.queues := by
  have hfirst := Underway.first s.buffer pts none
  have hturns : ∀ s p t q, c.Turns op pool s p → turn pool s p = .ok (true, t, q) →
      c.Turns op pool t q := fun _ _ _ _ => Client.Turns.next
  have henough := le_turnLimit s s.buffer.length
  have hall := submitWithin_delivers hturns (s.turnLimit s.buffer.length)
    hs.running (.refl hs.attentive) hfirst rfl hturn hlt (by
      dsimp only
      omega)
  obtain ⟨n, hfuel⟩ : ∃ n, s.turnLimit s.buffer.length = n + 3 := by
    refine ⟨s.turnLimit s.buffer.length - 3, ?_⟩
    have hbytes : s.buffer.length ≠ 0 := by
      intro hnone
      rw [List.length_eq_zero_iff.mp hnone] at hslices
      cases hslices
    omega
  obtain ⟨x, hx, hstarved, hstatus, hmade, haligned⟩ := submitWithin_pair hc hrefs hturn hs
    hpics hlimit hfirst hpts hslices hu hv hlt n
  rw [hfuel, hx] at hall
  obtain ⟨taken, hsub⟩ : ∃ taken, Submitted pool s.buffer (c.Turns op pool) { s with buffer := [] }
      taken x := by
    rcases hall with ⟨y, hy, hsub⟩ | ⟨hover, -⟩
    · cases hy
      exact hsub
    · cases hover
  have hend : x.2.stream.offset = s.buffer.length := by
    rcases hsub.ended with ⟨-, hend⟩ | ⟨hs, -⟩
    · exact hend
    · rw [hstarved] at hs
      cases hs
  have htaken : taken = [u, v] := by
    have hsplit := hsub.underway.split
    have hnone : sliceUnits [] = [] := rfl
    rw [hend, List.drop_length, hslices, hnone, List.map_nil, List.append_nil] at hsplit
    exact hsplit.symm
  exact ⟨x, by rw [hfuel, hx], htaken ▸ hsub, hend, hstatus, ⟨hmade.table, hmade.pictures⟩, haligned⟩

theorem decodeBuffer_pair {c : Client SimulatedEngine} {op : Operation} {first count : Nat}
    {pts : Option UInt64} {u v : NalUnit} (hc : Accounted c.references c.session)
    (hrefs : c.references = [])
    (hturn : c.Turns op pool { s with buffer := [] }
      { flushing := false, stream := ⟨s.buffer, 0, pts, none⟩ })
    (hs : Streaming pool first count s) (hpics : s.pictures = [])
    (hcontrol : s.control.isDraining = false) (hlimit : first + count + 1 < UInt32.size)
    (hpts : pts = some (UInt64.ofNat (first + count))) (hslices : sliceUnits s.buffer = [u, v])
    (hu : u.isBaseSlice = true) (hv : v.isBaseSlice = false) (hlt : s.buffer.length < wordLimit) :
    Returns (s.decodeBuffer false none pts) fun x =>
      x.1 = .ok { needInput := true, pictureReady := !x.2.pictures.isEmpty } ∧
        Advanced pool first count s x.2 := by
  have hempty : Streaming pool first count { s with buffer := [] } :=
    ⟨((aside_edit hs.running.inStep.ready []).fed hs.running).running hs.running, hs.aligned,
      hs.few, hs.room, hs.attentive, hs.nextOrder⟩
  obtain ⟨⟨t, q⟩, hx, hsub, hend, hstatus, hmade, haligned⟩ := submitted_pair hc hrefs hturn hempty
    hpics hlimit hpts hslices hu hv hlt
  have hnext : t.engine.nextOrder.toNat = first + count + 1 := by
    have hnext := hsub.delivered.nextOrder
    simpa [hs.nextOrder, hu, hv] using hnext
  have hleft : leftover s.buffer q = .ok [] := by
    rw [leftover_submitted hsub, hend, List.drop_length]
  have hserved := served_submitWithin _ ⟨hempty.running.engineReady, hs.attentive.held⟩ _ _ hx
  have hcontrol' : t.control.isDraining = false := by
    rw [hserved.control]
    exact hcontrol
  rw [decodeBuffer_eq hs.running.current, hx]
  refine ⟨_, conclude_spent hleft hsub.underway.stuck hstatus hcontrol', rfl, ?_, ?_, ?_⟩
  · obtain ⟨_, _, _, _, hrest⟩ := hsub.delivered.rest
    have hrest : t = _ := hrest
    exact ⟨_, _, _, _, by rw [hrest]⟩
  · exact ⟨hmade.table, hmade.pictures⟩
  · have hconfig : t.config = s.config := hserved.config
    refine ⟨((aside_edit hsub.running.inStep.ready []).fed hsub.running).running hsub.running,
      haligned, ?_, ?_, hsub.delivered.attentive, ?_⟩
    · have hfew := hs.few
      dsimp only
      rw [hconfig, due]
      omega
    · have hroom := hs.room
      rw [← hserved.pools.surfaces pool, ← hconfig] at hroom
      exact hroom
    · refine hnext.trans ?_
      rw [due]
      omega

end Session

end Multiview
