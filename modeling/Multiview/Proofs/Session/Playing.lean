import Multiview.Proofs.Session.Streaming
import Multiview.Session.Playback

/-!
Playing a stream. The client is shown every picture that is ready before the next packet goes in, and
the rest when the session is drained, so that it sees all pictures in order and holds none of them.
-/

namespace Multiview

open Outcome

namespace Pools

theorem mids_drop (id : PictureId) (pool : PoolId) (s : Pools) :
    (s.drop id).mids pool = s.mids pool := by
  rcases drop_cases id s with ⟨hd, _⟩ | ⟨x, n, hx, hn, _⟩
  · rw [hd]
  · exact (drop_spec hx hn).2.1.mids pool

theorem mids_dropAll (ids : List PictureId) (pool : PoolId) (s : Pools) :
    (s.dropAll ids).mids pool = s.mids pool := by
  unfold dropAll
  induction ids generalizing s with
  | nil => rfl
  | cons id ids ih => exact (ih (s.drop id)).trans (mids_drop id pool s)

theorem made_dropAll (ids : List PictureId) (s : Pools) : (s.dropAll ids).made = s.made := by
  unfold dropAll
  induction ids generalizing s with
  | nil => rfl
  | cons id ids ih => exact (ih (s.drop id)).trans (made_drop id s)

/-- A picture that was made stays in the table, whatever becomes of its references. -/
theorem recorded_of_made {s t : Pools} {id : PictureId} {n : Nat} (h : s.made <+: t.made)
    (hs : ∃ q, s.pictures[id]? = some q ∧ IsPicture n q) :
    ∃ q, t.pictures[id]? = some q ∧ IsPicture n q := by
  obtain ⟨q, hq, hn⟩ := hs
  obtain ⟨rest, hrest⟩ := h
  have hmade : s.made[id]? = some { q with references := 0 } := by
    unfold made
    rw [List.getElem?_map, hq]
    rfl
  have hlater : t.made[id]? = some { q with references := 0 } := by
    rw [← hrest, List.getElem?_append_left (List.getElem?_eq_some_iff.mp hmade).1, hmade]
  unfold made at hlater
  rw [List.getElem?_map] at hlater
  obtain ⟨q', hq', he⟩ := Option.map_eq_some_iff.mp hlater
  obtain ⟨hbase, hextra, -⟩ := Picture.mk.inj he
  exact ⟨q', hq', hbase ▸ hn.base, hextra ▸ hn.extra⟩

end Pools

namespace Session

variable {s t : Session SimulatedEngine} {pool : PoolId} {first count made : Nat}

/-! ## Pictures shown -/

/-- What the client was shown is picture number `n` of a stream. -/
structure Shown (s : Session SimulatedEngine) (n : Nat) (p : StereoPicture) : Prop where
  timestamp : p.timestamp = some (UInt64.ofNat n)
  surfaces : ∃ q, surfacesOf p s = some q ∧ IsPicture n q

theorem Shown.later {n : Nat} {p : StereoPicture} (h : Shown s n p)
    (hm : s.pools.made <+: t.pools.made) : Shown t n p := by
  obtain ⟨q, hq, hn⟩ := h.surfaces
  obtain ⟨id, hid, hget⟩ := Option.bind_eq_some_iff.mp hq
  obtain ⟨q', hq', hn'⟩ := Pools.recorded_of_made hm ⟨q, hget, hn⟩
  exact ⟨h.timestamp, q', Option.bind_eq_some_iff.mpr ⟨id, hid, hq'⟩, hn'⟩

theorem made_dropPictures (s : Session SimulatedEngine) :
    s.dropPictures.pools.made = s.pools.made := Pools.made_dropAll s.pictures s.pools

/-- Pictures that are ready are shown one after another, and none of them is kept. -/
theorem playReady_made {k : Nat} (hp : s.pictures = List.range' k made)
    (h : ∀ i < made, ∃ q, s.pools.pictures[k + i]? = some q ∧ IsPicture (first + i) q) :
    ∃ shown, s.playReady made = (shown, s.dropPictures) ∧
      List.Forall₂ (Shown s) (List.range' first made) shown := by
  induction made generalizing s k first with
  | zero =>
    have hp : s.pictures = [] := hp
    have hsame : s.dropPictures = s := by
      cases s
      cases hp
      rfl
    exact ⟨[], by rw [hsame]; rfl, .nil⟩
  | succ made ih =>
    rw [List.range'_succ] at hp
    obtain ⟨q, hq, hn⟩ := h 0 (Nat.succ_pos made)
    rw [Nat.add_zero] at hq hn
    obtain ⟨p, hget, hid, htime⟩ : ∃ p,
        s.getPicture = some (p, { s with pictures := List.range' (k + 1) made }) ∧
          p.picture = some k ∧ p.timestamp = q.base.frameMeta.streamTimestamp := by
      unfold getPicture
      rw [hp]
      dsimp only
      rw [hq]
      exact ⟨_, rfl, rfl, rfl⟩
    have hclear : (clearPicture p { s with pictures := List.range' (k + 1) made }).2 =
        { s with pictures := List.range' (k + 1) made, pools := s.pools.drop k } := by
      unfold clearPicture
      rw [hid]
    generalize ht : ({ s with pictures := List.range' (k + 1) made, pools := s.pools.drop k } :
      Session SimulatedEngine) = t at hclear
    have hmade : s.pools.made = t.pools.made := by
      rw [← ht]
      exact (Pools.made_drop k s.pools).symm
    have hprefix : s.pools.made <+: t.pools.made := hmade ▸ List.prefix_refl _
    have hrest : ∀ i < made, ∃ q, t.pools.pictures[k + 1 + i]? = some q ∧
        IsPicture (first + 1 + i) q := by
      intro i hi
      have hi := h (i + 1) (Nat.succ_lt_succ hi)
      rw [Nat.add_comm i 1, ← Nat.add_assoc, ← Nat.add_assoc] at hi
      exact Pools.recorded_of_made hprefix hi
    obtain ⟨shown, hplay, hall⟩ := ih (by rw [← ht]) hrest
    have hdrop : t.dropPictures = s.dropPictures := by
      unfold dropPictures
      rw [hp, ← ht]
      rfl
    refine ⟨p :: shown, ?_, ?_⟩
    · unfold playReady
      rw [hget]
      dsimp only
      rw [hclear, hplay, hdrop]
    · rw [List.range'_succ]
      refine .cons ⟨htime.trans hn.base.timestamp, q, ?_, hn⟩ ?_
      · exact Option.bind_eq_some_iff.mpr ⟨k, hid, hq⟩
      · exact hall.imp fun n p hp => hp.later (hmade ▸ List.prefix_refl _)

/-- All pictures of a stream that were made are shown. -/
theorem playAllReady_made (hs : s.pictures = []) (hm : Made first made s t) :
    ∃ shown, t.playAllReady = (shown, t.dropPictures) ∧
      List.Forall₂ (Shown t) (List.range' first made) shown := by
  obtain ⟨pictures, htable, hall⟩ := hm.table
  have hready : t.pictures = List.range' s.pools.pictures.length made := by
    rw [hm.pictures, hs, List.nil_append]
  have hlength : pictures.length = made := by
    rw [← hall.length_eq, List.length_range']
  unfold playAllReady
  rw [hready, List.length_range']
  refine playReady_made hready fun i hi => ?_
  have hi' : i < pictures.length := hlength.symm ▸ hi
  refine ⟨pictures[i], ?_, ?_⟩
  · rw [htable, List.getElem?_append_right (Nat.le_add_right _ _), Nat.add_sub_cancel_left]
    exact List.getElem?_eq_getElem hi'
  · have hn := hall.get (List.length_range' ▸ hi) hi'
    simpa using hn

end Session

namespace Client

/-- A client that holds no pictures. -/
def alone (s : Session SimulatedEngine) : Client SimulatedEngine := { session := s }

end Client

open Client

namespace Session

variable {s t : Session SimulatedEngine} {pool : PoolId} {first count : Nat}

/-- Showing pictures leaves the stream where it is. -/
theorem Streaming.dropPictures (h : Streaming pool first count s)
    (hr : (alone s.dropPictures).Reachable) : Streaming pool first count s.dropPictures where
  running := ⟨hr.accounted.inStep, h.running.engineReady, h.running.current⟩
  aligned := h.aligned
  few := h.few
  room := by
    have hmids := congrArg List.length (Pools.mids_dropAll s.pictures pool s.pools)
    unfold Pools.mids at hmids
    rw [List.length_map, List.length_map] at hmids
    refine Nat.le_trans h.room (Nat.le_of_eq hmids.symm)
  attentive := h.attentive
  nextOrder := h.nextOrder

end Session

namespace Playback

open Session

variable {p : Playback SimulatedEngine} {s t : Session SimulatedEngine} {pool : PoolId}
  {first count made : Nat}

/-- Between packets: `first` pictures were shown, and `count` more wait for those behind them. -/
structure Showing (pool : PoolId) (first count : Nat) (p : Playback SimulatedEngine) : Prop where
  reachable : (alone p.session).Reachable
  phase : p.session.phase = .ready
  lengthSize : p.session.lengthSize = none
  buffer : p.session.buffer = []
  pictures : p.session.pictures = []
  streaming : Streaming pool first count p.session
  result : p.result = .ok ()
  shown : List.Forall₂ (Shown p.session) (List.range' 0 first) p.shown

/-- The pictures that became ready with the last packet are shown. -/
theorem showReady_made (hr : (alone t).Reachable) (hphase : t.phase = .ready)
    (hlength : t.lengthSize = none) (hbuffer : t.buffer = [])
    (hs : Streaming pool (first + made) count t) (hpics : s.pictures = [])
    (hm : Made first made s t) (hresult : p.result = .ok ()) (hp : p.session = t)
    (hshown : List.Forall₂ (Shown s) (List.range' 0 first) p.shown) :
    ∃ q, p.showReady = (decide (made ≠ 0), q) ∧ Showing pool (first + made) count q ∧
      q.session.control = t.control ∧ q.session.engine = t.engine := by
  subst hp
  obtain ⟨shown, hplay, hall⟩ := playAllReady_made hpics hm
  have hgrew : s.pools.made <+: p.session.pools.made := by
    obtain ⟨pictures, htable, -⟩ := hm.table
    unfold Pools.made
    rw [htable, List.map_append]
    exact List.prefix_append _ _
  have hkeep : p.session.pools.made <+: p.session.dropPictures.pools.made :=
    (made_dropPictures p.session) ▸ List.prefix_refl _
  have hperform : (alone p.session).perform .play =
      .ok (.pictures shown, alone p.session.dropPictures) := by
    unfold Client.perform alone
    dsimp only
    rw [hplay]
    rfl
  have hdropped := hr.perform hperform
  have hany : (!shown.isEmpty) = decide (made ≠ 0) := by
    have hlen : shown.length = made := by
      rw [← hall.length_eq, List.length_range']
    rw [← hlen]
    cases shown <;> rfl
  refine ⟨{ p with shown := p.shown ++ shown, session := p.session.dropPictures }, ?_,
    ⟨hdropped, hphase, hlength, hbuffer, rfl, hs.dropPictures hdropped, hresult, ?_⟩, rfl, rfl⟩
  · unfold showReady
    rw [hplay]
    dsimp only
    rw [hany]
  · have hrange : List.range' 0 (first + made) = List.range' 0 first ++ List.range' first made := by
      rw [← List.range'_append_1, Nat.zero_add]
    rw [hrange]
    exact List.rel_append (hshown.imp fun n q hq => (hq.later hgrew).later hkeep)
      (hall.imp fun n q hq => hq.later hkeep)

/-! ## Packets -/

section Packets

variable {data : Bytes} {b e : NalUnit}

/-- A packet that brings both views of one picture to a session that is ready, or gets ready for it. -/
theorem playPacket_pair (hr : (alone p.session).Reachable) (hresult : p.result = .ok ())
    (ha : p.session.accept (some data) = .ok (.ok t)) (hu : t.arrange false = .ok (.ok true, s))
    (hphase : s.phase = .ready) (hlength : s.lengthSize = none) (hcontrol : s.control = ⟨0⟩)
    (hpics : s.pictures = []) (hs : Streaming pool first count s)
    (hshown : List.Forall₂ (Shown s) (List.range' 0 first) p.shown)
    (hlimit : first + count + 1 < UInt32.size) (hslices : sliceUnits s.buffer = [b, e])
    (hb : b.isBaseSlice = true) (he : e.isBaseSlice = false) (hlt : s.buffer.length < wordLimit) :
    Returns (p.playPacket (first + count) 16 data) fun q => q.session.control = ⟨0⟩ ∧
      ∃ made, made ≤ count + 1 ∧ Showing pool (first + made) (count + 1 - made) q := by
  have hidle : s.control.isDraining = false := by
    rw [hcontrol]
    rfl
  have hturn : (alone p.session).Turns
      (.decode (some data) none (some (UInt64.ofNat (first + count)))) pool { s with buffer := [] }
      { flushing := false, stream := ⟨s.buffer, 0, some (UInt64.ofNat (first + count)), none⟩ } :=
    .first none _ (.decode (some data) none _) ha hu hs.running.current
  obtain ⟨⟨answer, v⟩, hx, hanswer, hadvanced⟩ := decodeBuffer_pair hr.accounted rfl hturn hs hpics
    hidle hlimit rfl hslices hb he hlt
  dsimp only at hanswer hadvanced
  subst hanswer
  have hdecode : p.session.decode (some data) none (some (UInt64.ofNat (first + count))) =
      .ok ({ needInput := true, pictureReady := !v.pictures.isEmpty }, v) := by
    unfold Session.decode
    rw [tryDecode_of_accept ha]
    unfold advance
    rw [Option.isNone_some, hu]
    simp only [bind, Except.bind, hx]
    rfl
  have hperform : (alone p.session).perform
      (.decode (some data) none (some (UInt64.ofNat (first + count)))) =
        .ok (.status { needInput := true, pictureReady := !v.pictures.isEmpty }, alone v) := by
    unfold Client.perform alone
    dsimp only
    rw [hdecode]
    rfl
  obtain ⟨_, _, _, _, hrest⟩ := hadvanced.rest
  obtain ⟨q, hshow, hshowing, hctrl, -⟩ := showReady_made (p := { p with session := v })
    (hr.perform hperform)
    (by rw [hrest]; exact hphase) (by rw [hrest]; exact hlength) (by rw [hrest])
    hadvanced.streaming hpics hadvanced.made hresult rfl hshown
  have hplay : p.playPacket (first + count) (15 + 1) data = .ok q := by
    unfold playPacket
    rw [hdecode]
    simp only [bind, Except.bind, hshow]
    rfl
  refine ⟨q, hplay, ?_, s.due count, ?_, hshowing⟩
  · rw [hctrl, hrest]
    exact hcontrol
  · unfold due
    omega

theorem blankEndOfSequence_none {buffer : Bytes}
    (h : (startCodeUnits buffer).filter (·.header.type == .endOfSequence) = []) :
    blankEndOfSequence buffer = .ok buffer := by
  unfold blankEndOfSequence endOfSequenceStarts
  rw [h]
  rfl

/-- Packets without end of sequence go to the buffer as they are. -/
theorem accept_packet (hp : s.phase = .opened ∨ s.phase = .ready) (hl : s.lengthSize = none)
    (hb : s.buffer = [])
    (hd : (startCodeUnits data).filter (·.header.type == .endOfSequence) = []) :
    s.accept (some data) = .ok (.ok { s with buffer := data }) := by
  rw [accept_active hp]
  dsimp only
  unfold appendInput
  rw [hl, hb]
  dsimp only
  rw [List.nil_append, blankEndOfSequence_none hd]
  rfl

/-- One more access unit for a session that is ready. -/
theorem Showing.playPacket (h : Showing pool first count p) (hcontrol : p.session.control = ⟨0⟩)
    (hlimit : first + count + 1 < UInt32.size) {a : AccessUnit} (ha : a.Proper)
    (hlt : a.bytes.length < wordLimit) :
    Returns (p.playPacket (first + count) 16 a.bytes) fun q => q.session.control = ⟨0⟩ ∧
      ∃ made, made ≤ count + 1 ∧ Showing pool (first + made) (count + 1 - made) q := by
  obtain ⟨b, e, hslices, hb, he⟩ := ha.sliceUnits_bytes
  have haccept := accept_packet (Or.inr h.phase) h.lengthSize h.buffer ha.endOfSequenceStarts_bytes
  have hrun : Running pool { p.session with buffer := a.bytes } :=
    ((aside_edit h.streaming.running.inStep.ready a.bytes).fed h.streaming.running).running
      h.streaming.running
  have hs : Streaming pool first count { p.session with buffer := a.bytes } :=
    ⟨hrun, h.streaming.aligned, h.streaming.few, h.streaming.room, h.streaming.attentive,
      h.streaming.nextOrder⟩
  exact playPacket_pair h.reachable h.result haccept (if_pos h.phase) h.phase h.lengthSize hcontrol
    h.pictures hs (h.shown.imp fun _ _ hq => hq.later (List.prefix_refl _)) hlimit hslices hb he hlt

/-- All access units of a stream but those before them. -/
theorem Showing.playPackets (h : Showing pool first count p) (hcontrol : p.session.control = ⟨0⟩)
    {as : List AccessUnit} (ha : ∀ a ∈ as, a.Proper ∧ a.bytes.length < wordLimit)
    (hlimit : first + count + as.length < UInt32.size) :
    Returns (playPackets (first + count) (as.map (·.bytes)) p) fun q =>
      q.session.control = ⟨0⟩ ∧
        ∃ first' count', first' + count' = first + count + as.length ∧
          Showing pool first' count' q := by
  induction as generalizing p first count with
  | nil => exact .ok ⟨hcontrol, first, count, rfl, h⟩
  | cons a as ih =>
    rw [List.length_cons] at hlimit
    obtain ⟨hproper, hlt⟩ := ha a List.mem_cons_self
    obtain ⟨q, hq, hcontrol', made, hmade, hshowing⟩ := h.playPacket hcontrol (by omega) hproper hlt
    have hnumber : first + count + 1 = first + made + (count + 1 - made) := by omega
    obtain ⟨r, hr, hcontrol'', first', count', hsum, hdone⟩ := ih hshowing hcontrol'
      (fun a' ha' => ha a' (List.mem_cons_of_mem a ha')) (by omega)
    rw [← hnumber] at hr
    refine ⟨r, ?_, hcontrol'', first', count', ?_, hdone⟩
    · rw [List.map_cons, Playback.playPackets, hq]
      simp only [bind, Except.bind, hshowing.result, hr]
    · rw [List.length_cons]
      omega

end Packets

end Playback

/-! ## Draining -/

namespace SimulatedEngine

/-- Without input all operations in flight are completed. -/
theorem decode_drain {e : SimulatedEngine} (he : e.Attentive) (work : WorkSurface) (r : Resources) :
    ∃ a, e.decode none work r = .ok a ∧ a.status = .moreData ∧ a.output = none ∧ a.stream = none ∧
      a.engine.Attentive ∧ a.engine.inFlight = [] ∧ a.engine.nextOrder = e.nextOrder := by
  rw [decode_none he]
  exact ⟨_, rfl, rfl, rfl, rfl, ⟨he.busy, he.injected, he.held⟩, rfl, rfl⟩

end SimulatedEngine

namespace Session

variable {s t : Session SimulatedEngine} {pool : PoolId} {first count : Nat}

theorem isDraining_union_drain (c : Control) : (c.union .drain).isDraining = true := by
  change ((c.bits ||| 1) &&& 1 == 1) = true
  rw [beq_iff_eq, ← UInt32.toBitVec_inj, UInt32.toBitVec_and, UInt32.toBitVec_or]
  ext i hi
  simp only [BitVec.getElem_and, BitVec.getElem_or, UInt32.toBitVec_one, BitVec.getElem_one]
  cases decide (i = 0) <;> simp

theorem turn_drain {p : Submission} {index : Nat} {work : WorkSurface} (he : s.engine.Attentive)
    (hf : s.pools.freeSurface? pool = some (index, work)) (hp : p.flushing = true) :
    ∃ a, a.engine.Attentive ∧ a.engine.inFlight = [] ∧
      a.engine.nextOrder = s.engine.nextOrder ∧
      turn pool s p = .ok (false, s.submitted none work a, { p with status := .moreData }) := by
  obtain ⟨a, ha, hstatus, hout, hstream, hatt, hfly, hnext⟩ :=
    SimulatedEngine.decode_drain he work s.pools.resources
  have hask : s.askDecode none work =
      .ok (a.status, a.output, a.stream, s.submitted none work a) := askDecode_eq ha
  refine ⟨a, hatt, hfly, hnext, ?_⟩
  unfold turn
  rw [hf]
  simp only [hp, ↓reduceIte, hask, bind, Except.bind, hstatus, hstream, hout, handleAnswer,
    Option.getD_none, reduceCtorEq, EngineStatus.isError]
  rfl

theorem releaseQueued_empty (hq : s.queues = {}) : s.releaseQueued = s := by
  unfold releaseQueued
  cases s
  cases hq
  dsimp only
  split <;> rfl

/-- With an engine that is empty everything that waits is paired. -/
theorem flushQueues_aligned (hp : s.phase = .ready) (hc : s.current = some pool)
    (hq : Aligned first count s.queues) :
    Returns (s.flushQueues true) fun t => Tidied s t ∧ Made first count s t ∧
      Aligned (first + count) 0 t.queues ∧ (count = 0 → t = s) := by
  obtain ⟨t, ht, htidied, hmade, haligned⟩ := pairQueued_aligned (Nat.le_refl 1) hc hq
  rw [Nat.add_sub_cancel] at hmade haligned
  rw [Nat.sub_self] at haligned
  have hnone : count = 0 → t = s := by
    intro hzero
    rw [hzero] at hq
    rw [pairQueued_short hc (by rw [hq.length_extra]; exact Nat.one_pos)] at ht
    cases ht
    rfl
  refine ⟨t, ?_, htidied, hmade, haligned, hnone⟩
  unfold flushQueues
  rw [if_neg (not_not_intro hp), ht]
  simp only [bind, Except.bind, ↓reduceIte, releaseQueued_empty haligned.eq_nil]
  rfl

/-- A drained engine has no more surfaces to come, so that the queues are flushed. -/
theorem conclude_drained (hc : s.control.isDraining = true) {p : Submission}
    (hp : p = { status := .moreData, flushing := true, stream := ⟨[], 0, none, none⟩ }) :
    s.conclude [] p = (do
      let t ← flushQueues true { s with buffer := [] }
      return (.ok (t.statusAfter p), t)) := by
  have hleft : leftover [] p = .ok [] := by
    subst hp
    rfl
  subst hp
  rw [conclude_eq s rfl hleft verdict_moreData, if_pos hc]
  rfl

/-- An engine that is drained takes one turn, and then all surfaces that wait are made pictures. -/
theorem decodeBuffer_drain {control : Control} (hr : (alone s).Reachable) (hp : s.phase = .ready)
    (hb : s.buffer = []) (hpics : s.pictures = []) (hs : Streaming pool first count s)
    (hdraining : control.isDraining = true)
    (hdecodes : (alone s).Decodes .drain { s with control := control } none) :
    ∃ t q, decodeBuffer true none none { s with control := control } =
        .ok (.ok (t.statusAfter q), t) ∧
      (∃ engine queues pictures pools, t = { s with
        control := control, buffer := [], engine := engine, queues := queues, pictures := pictures
        pools := pools }) ∧
      Made first count s t ∧ Aligned (first + count) 0 t.queues ∧ t.engine.Attentive ∧
      t.engine.nextOrder = s.engine.nextOrder ∧ (count = 0 → t.engine.inFlight = []) := by
  have haccept : accept none { s with control := control } =
      .ok (.ok { s with control := control }) := accept_active (s := { s with control := control })
        (Or.inr hp) none
  have hturn : (alone s).Turns .drain pool { s with control := control, buffer := [] }
      { flushing := true, stream := ⟨s.buffer, 0, none, none⟩ } :=
    .first none none hdecodes haccept (if_pos hp) hs.running.current
  obtain ⟨index, work, hf⟩ := hs.exists_free hr.accounted rfl hturn rfl (by
    have hfew := hs.few
    dsimp only
    rw [ViewQueues.length, hs.aligned.length_base, hs.aligned.length_extra, hpics, List.length_nil]
    omega)
  obtain ⟨a, hatt, hfly, hnext, hx⟩ := turn_drain (s := { s with control := control, buffer := [] })
    (p := { flushing := true, stream := ⟨s.buffer, 0, none, none⟩ }) hs.attentive hf rfl
  generalize hu : submitted none work a { s with control := control, buffer := [] } = u at hx
  obtain ⟨hqueues, hctrl, hengine, htable, hpictures, hrest⟩ : u.queues = s.queues ∧
      u.control = control ∧ u.engine = a.engine ∧ u.pools.pictures = s.pools.pictures ∧
      u.pictures = s.pictures ∧ u = { s with
        control := control, buffer := [], engine := u.engine, pools := u.pools } := by
    rw [← hu]
    exact ⟨rfl, rfl, rfl, rfl, rfl, rfl⟩
  have hphase : u.phase = .ready := by
    rw [hrest]
    exact hp
  have hcur : u.current = some pool := by
    rw [hrest]
    exact hs.running.current
  obtain ⟨t, ht, htidied, hmade, haligned, hsettled⟩ :=
    flushQueues_aligned (s := { u with buffer := [] }) hphase hcur (hqueues ▸ hs.aligned)
  generalize hq : ({ status := .moreData, flushing := true, stream := ⟨[], 0, none, none⟩ } :
    Submission) = q
  have hdecode : decodeBuffer true none none { s with control := control } =
      .ok (.ok (t.statusAfter q), t) := by
    obtain ⟨n, hlimit⟩ : ∃ n, turnLimit s.buffer.length { s with control := control } = n + 1 :=
      ⟨_, rfl⟩
    rw [decodeBuffer_eq (s := { s with control := control }) hs.running.current, hlimit]
    dsimp only
    unfold submitWithin
    rw [hx, hb]
    have hdone := conclude_drained (hctrl ▸ hdraining) hq.symm
    rw [ht] at hdone
    rw [← hq] at hdone ⊢
    exact hdone
  refine ⟨t, q, hdecode, ?_, ⟨?_, ?_⟩, haligned, htidied.attentive (hengine ▸ hatt), ?_,
    fun hzero => ?_⟩
  · obtain ⟨engine, queues, pictures, pools, htrest⟩ := htidied.rest
    exact ⟨engine, queues, pictures, pools, by rw [htrest, hrest]⟩
  · rw [← htable]
    exact hmade.table
  · rw [← htable, ← hpictures]
    exact hmade.pictures
  · rw [htidied.nextOrder, hengine]
    exact hnext
  · rw [hsettled hzero]
    exact (congrArg SimulatedEngine.inFlight hengine).trans hfly

/-- What draining leaves: no more surfaces wait, and after the last drain the engine holds none. -/
structure Drained (pool : PoolId) (first count : Nat) (s t : Session SimulatedEngine) : Prop where
  reachable : (alone t).Reachable
  phase : t.phase = s.phase
  lengthSize : t.lengthSize = s.lengthSize
  buffer : t.buffer = []
  made : Made first count s t
  streaming : Streaming pool (first + count) 0 t
  idle : count = 0 → t.engine.inFlight = []

theorem drain_streaming (hr : (alone s).Reachable) (hp : s.phase = .ready) (hb : s.buffer = [])
    (hpics : s.pictures = []) (hs : Streaming pool first count s) :
    Returns s.drain fun x => x.1.error = false ∧ Drained pool first count s x.2 := by
  unfold drain
  generalize hcontrol : s.control.union .drain = control
  have hdecodes : (alone s).Decodes .drain { s with control := control } none := hcontrol ▸ .drain
  obtain ⟨t, q, hdecode, ⟨_, _, _, _, hrest⟩, hmade, haligned, hatt, hnext, hidle⟩ :=
    decodeBuffer_drain hr hp hb hpics hs (hcontrol ▸ isDraining_union_drain s.control) hdecodes
  have hall : decode none none none { s with control := control } = .ok (t.statusAfter q, t) := by
    have haccept := accept_active (s := { s with control := control }) (Or.inr hp) none
    unfold Session.decode
    rw [tryDecode_of_accept haccept, advance_of_ready (s := { s with control := control }) hp,
      Option.isNone_none, hdecode]
    rfl
  have hperform : (alone s).perform .drain = .ok (.status (t.statusAfter q), alone t) := by
    unfold Client.perform alone drain
    dsimp only
    rw [hcontrol, hall]
    rfl
  have hdrained := hr.perform hperform
  have hserved := (served_decodeBuffer (s := { s with control := control }) true none none
    ⟨hs.running.engineReady, hs.attentive.held⟩ (by rw [hs.running.current]; rfl) _ hdecode).1
  rw [hall]
  refine .ok ⟨rfl, hdrained, ?_, ?_, ?_, hmade, ⟨⟨hdrained.accounted.inStep,
    hserved.engineReady.trans hs.running.engineReady, hserved.current.trans hs.running.current⟩,
    haligned, Nat.zero_le _, ?_, hatt, ?_⟩, hidle⟩
  · rw [hrest]
  · rw [hrest]
  · rw [hrest]
  · have hroom := hs.room
    rw [hserved.config, hserved.pools.surfaces pool]
    exact hroom
  · rw [hnext]
    exact hs.nextOrder

end Session

namespace Playback

open Session

variable {p : Playback SimulatedEngine} {pool : PoolId} {first count : Nat}

/-- One drain, after which what came out is shown. -/
theorem Showing.drain (h : Showing pool first count p) :
    ∃ status s q, p.session.drain = .ok (status, s) ∧ status.error = false ∧
      showReady { p with session := s } = (decide (count ≠ 0), q) ∧
      Showing pool (first + count) 0 q ∧ (count = 0 → q.session.engine.inFlight = []) := by
  obtain ⟨⟨status, s⟩, hs, herror, hdrained⟩ :=
    drain_streaming h.reachable h.phase h.buffer h.pictures h.streaming
  obtain ⟨q, hshow, hshowing, -, hengine⟩ := showReady_made (p := { p with session := s })
    hdrained.reachable (hdrained.phase.trans h.phase) (hdrained.lengthSize.trans h.lengthSize)
    hdrained.buffer hdrained.streaming h.pictures hdrained.made h.result rfl h.shown
  exact ⟨status, s, q, hs, herror, hshow, hshowing, fun hzero => hengine ▸ hdrained.idle hzero⟩

/-- After the last packet one drain brings out what waits, and another one finds nothing. -/
theorem Showing.drainWithin (h : Showing pool first count p) (fuel : Nat) :
    Returns (drainWithin (fuel + 2) p) fun q => Showing pool (first + count) 0 q ∧
      q.session.engine.inFlight = [] := by
  obtain ⟨status, s, q, hdrain, herror, hshow, hshowing, hidle⟩ := h.drain
  have hfirst : Playback.drainWithin (fuel + 1 + 1) p =
      if decide (count ≠ 0) = true then Playback.drainWithin (fuel + 1) q else .ok q := by
    rw [Playback.drainWithin, hdrain]
    simp only [bind, Except.bind, herror, Bool.false_eq_true, ↓reduceIte, hshow]
    rfl
  by_cases hzero : count = 0
  · rw [if_neg (by simpa using hzero)] at hfirst
    exact ⟨q, hfirst, hshowing, hidle hzero⟩
  · rw [if_pos (by simpa using hzero)] at hfirst
    obtain ⟨status', s', r, hdrain', herror', hshow', hshowing', hidle'⟩ := hshowing.drain
    have hsecond : Playback.drainWithin (fuel + 1) q = .ok r := by
      rw [Playback.drainWithin, hdrain']
      simp only [bind, Except.bind, herror', Bool.false_eq_true, ↓reduceIte, hshow']
      rfl
    exact ⟨r, hfirst.trans hsecond, hshowing', hidle' rfl⟩

theorem Showing.drainAll (h : Showing pool first count p) :
    Returns p.drainAll fun q => Showing pool (first + count) 0 q ∧
      q.session.engine.inFlight = [] :=
  h.drainWithin _

end Playback

end Multiview
