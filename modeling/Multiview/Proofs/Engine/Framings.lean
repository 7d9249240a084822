import Mathlib.Algebra.Order.Group.Nat
import Mathlib.Data.List.Infix
import Multiview.Proofs.Engine.Attentive
import Multiview.Proofs.Nal.Records

/-!
The same units in different framings. Streams of them differ in the zero bytes between units, and so in
all offsets. An engine that gets one stream or the other finds the same header, takes unit after unit,
and gives the same answers.
-/

namespace Multiview

open Outcome

namespace FramedUnit

def isSlice (u : FramedUnit) : Bool := u.header.type.isSlice

/-- A unit that stays in the buffer as it was written. -/
structure Plain (u : FramedUnit) : Prop where
  proper : u.Proper
  goesOn : u.header.type ≠ .endOfSequence

instance (u : FramedUnit) : Decidable u.Plain :=
  decidable_of_iff (u.data ≠ [] ∧ ¬ [0, 0, 1] <:+: u.data ∧ u.data.getLast? ≠ some 0 ∧
      u.header.type ≠ .endOfSequence)
    ⟨fun ⟨hne, hcode, hlast, hend⟩ => ⟨⟨hne, hcode, hlast⟩, hend⟩,
      fun h => ⟨h.proper.ne_nil, h.proper.code_free, h.proper.last, h.goesOn⟩⟩

theorem Plain.of_data {u v : FramedUnit} (h : u.Plain) (hd : v.data = u.data) : v.Plain := by
  obtain ⟨zeros, data⟩ := v
  cases hd
  exact ⟨⟨h.proper.ne_nil, h.proper.code_free, h.proper.last⟩, h.goesOn⟩

end FramedUnit

/-! ## Units -/

theorem startCodeUnits_plain {us : List FramedUnit} (h : ∀ u ∈ us, u.Plain) :
    startCodeUnits (writeUnits us) = placedUnits 0 us := by
  have hscan := startCodeUnits_written us (fun u hu => (h u hu).proper) 0
  rwa [List.replicate_zero, List.append_nil] at hscan

theorem length_le_writeUnits (us : List FramedUnit) : us.length ≤ (writeUnits us).length := by
  induction us with
  | nil => exact Nat.zero_le _
  | cons u us ih =>
    rw [length_writeUnits_cons, FramedUnit.length_bytes, List.length_cons]
    omega

/-- The first slice, if there is one, ends where the units up to it end. -/
theorem first_slice (us : List FramedUnit) (offset : Nat) :
    us.findIdx? (·.isSlice) = none ∧ (placedUnits offset us).filter (·.isSlice) = [] ∨
      ∃ j u rest, us.findIdx? (·.isSlice) = some j ∧
        (placedUnits offset us).filter (·.isSlice) = u :: rest ∧
        (us.map (·.header))[j]? = some u.header ∧ j < us.length ∧
        u.stop = offset + (writeUnits (us.take (j + 1))).length := by
  induction us generalizing offset with
  | nil => exact Or.inl ⟨rfl, rfl⟩
  | cons v us ih =>
    by_cases hv : v.isSlice = true
    · have hplaced : (v.placed offset).isSlice = true := hv
      refine Or.inr ⟨0, v.placed offset, (placedUnits (offset + v.bytes.length) us).filter (·.isSlice),
        ?_, ?_, rfl, Nat.succ_pos _, ?_⟩
      · rw [List.findIdx?_cons, if_pos hv]
      · rw [placedUnits, List.filter_cons_of_pos hplaced]
      · rw [FramedUnit.stop_placed, List.take_succ_cons, List.take_zero, writeUnits,
          List.flatMap_singleton]
    · have hplaced : ¬ (v.placed offset).isSlice = true := hv
      rw [List.findIdx?_cons, if_neg hv, placedUnits, List.filter_cons_of_neg hplaced]
      rcases ih (offset + v.bytes.length) with ⟨hnone, hnil⟩ | ⟨j, u, rest, hj, hcons, hu, hlt, hstop⟩
      · exact Or.inl ⟨by rw [hnone, Option.map_none], hnil⟩
      · refine Or.inr ⟨j + 1, u, rest, by rw [hj, Option.map_some], hcons, hu,
          Nat.succ_lt_succ hlt, ?_⟩
        rw [hstop, List.take_succ_cons, length_writeUnits_cons, Nat.add_assoc]

/-- The same units, with any number of zero bytes before each start code. -/
structure Reframed (us vs : List FramedUnit) : Prop where
  data : vs.map (·.data) = us.map (·.data)
  plain : ∀ u ∈ us, u.Plain

namespace Reframed

variable {us vs us' vs' : List FramedUnit}

theorem plain' (h : Reframed us vs) : ∀ v ∈ vs, v.Plain := by
  intro v hv
  have hmem := List.mem_map_of_mem (f := fun u : FramedUnit => u.data) hv
  rw [h.data] at hmem
  obtain ⟨u, hu, hd⟩ := List.mem_map.mp hmem
  exact (h.plain u hu).of_data hd.symm

theorem nil : Reframed [] [] := ⟨rfl, fun _ hu => absurd hu List.not_mem_nil⟩

theorem append (h : Reframed us vs) (h' : Reframed us' vs') : Reframed (us ++ us') (vs ++ vs') where
  data := by rw [List.map_append, List.map_append, h.data, h'.data]
  plain := fun u hu => (List.mem_append.mp hu).elim (h.plain u) (h'.plain u)

theorem drop (h : Reframed us vs) (n : Nat) : Reframed (us.drop n) (vs.drop n) where
  data := by rw [List.map_drop, List.map_drop, h.data]
  plain := fun u hu => h.plain u (List.mem_of_mem_drop hu)

theorem length (h : Reframed us vs) : vs.length = us.length := by
  have hlen := congrArg List.length h.data
  rwa [List.length_map, List.length_map] at hlen

theorem map_header (h : Reframed us vs) : vs.map (·.header) = us.map (·.header) := by
  have hparse := congrArg (List.map fun d : Bytes => NalHeader.parse (d.headD 0)) h.data
  rwa [List.map_map, List.map_map] at hparse

theorem findIdx?_isSlice (h : Reframed us vs) :
    vs.findIdx? (·.isSlice) = us.findIdx? (·.isSlice) := by
  have hfind := congrArg (List.findIdx? fun d : Bytes =>
    (NalHeader.parse (d.headD 0)).type.isSlice) h.data
  rwa [List.findIdx?_map, List.findIdx?_map] at hfind

/-- In both streams the first slice is the same unit, unless there is none. -/
theorem first_slice (h : Reframed us vs) :
    (placedUnits 0 us).filter (·.isSlice) = [] ∧ (placedUnits 0 vs).filter (·.isSlice) = [] ∨
      ∃ j u v rest rest', (placedUnits 0 us).filter (·.isSlice) = u :: rest ∧
        (placedUnits 0 vs).filter (·.isSlice) = v :: rest' ∧ v.header = u.header ∧ j < us.length ∧
        u.stop = 0 + (writeUnits (us.take (j + 1))).length ∧
        v.stop = 0 + (writeUnits (vs.take (j + 1))).length := by
  have hfind := h.findIdx?_isSlice
  rcases Multiview.first_slice us 0 with ⟨hnone, hnil⟩ | ⟨j, u, rest, hj, hcons, hu, hlt, hstop⟩
  · rcases Multiview.first_slice vs 0 with ⟨-, hnil'⟩ | ⟨j', v, rest', hj', -, -, -, -⟩
    · exact Or.inl ⟨hnil, hnil'⟩
    · rw [hj', hnone] at hfind
      cases hfind
  · rcases Multiview.first_slice vs 0 with ⟨hnone', -⟩ | ⟨j', v, rest', hj', hcons', hv, -, hstop'⟩
    · rw [hnone', hj] at hfind
      cases hfind
    · rw [hj', hj] at hfind
      cases hfind
      rw [h.map_header, hu] at hv
      exact Or.inr ⟨j, u, v, rest, rest', hcons, hcons', (Option.some.inj hv).symm, hlt, hstop, hstop'⟩

/-- Length fields are replaced by start codes in front of the same units. -/
theorem converted (h : ∀ v ∈ vs, v.Plain) : Reframed (convertedUnits (vs.map (·.data))) vs where
  data := (map_data_convertedUnits _).symm
  plain := fun u hu => by
    have hmem := List.mem_map_of_mem (f := fun u : FramedUnit => u.data) hu
    rw [map_data_convertedUnits] at hmem
    obtain ⟨v, hv, hd⟩ := List.mem_map.mp hmem
    exact (h v hv).of_data hd.symm

/-- A scan finds units of the same types. -/
theorem types (h : Reframed us vs) :
    (startCodeUnits (writeUnits vs)).map (·.header.type) =
      (startCodeUnits (writeUnits us)).map (·.header.type) := by
  have htypes : ∀ ws : List FramedUnit, (placedUnits 0 ws).map (·.header.type) =
      (ws.map (·.header)).map (·.type) := by
    intro ws
    rw [← map_header_placedUnits 0 ws, List.map_map]
    rfl
  rw [startCodeUnits_plain h.plain, startCodeUnits_plain h.plain', htypes, htypes, h.map_header]

end Reframed

/-- The conversion writes one zero byte, and otherwise the shortest start codes. -/
theorem length_converted_le (vs : List FramedUnit) :
    (writeUnits (convertedUnits (vs.map (·.data)))).length ≤ (writeUnits vs).length + 1 := by
  have hshort : ∀ ws : List FramedUnit,
      (writeUnits ((ws.map (·.data)).map (⟨0, ·⟩))).length ≤ (writeUnits ws).length := by
    intro ws
    induction ws with
    | nil => exact Nat.le_refl _
    | cons w ws ih =>
      rw [List.map_cons, List.map_cons, length_writeUnits_cons, length_writeUnits_cons,
        FramedUnit.length_bytes, FramedUnit.length_bytes]
      dsimp only
      omega
  cases vs with
  | nil => exact Nat.zero_le _
  | cons v vs =>
    have hrest := hshort vs
    rw [List.map_cons, convertedUnits, length_writeUnits_cons, length_writeUnits_cons,
      FramedUnit.length_bytes, FramedUnit.length_bytes]
    dsimp only
    omega

namespace SimulatedEngine

/-- Only the types of units are read off a header. -/
theorem readHeader_congr {input input' : Bytes}
    (h : (startCodeUnits input').map (·.header.type) = (startCodeUnits input).map (·.header.type))
    (params : VideoParams) (e : SimulatedEngine) :
    readHeader input' params e = readHeader input params e := by
  unfold readHeader
  rw [h]

/-! ## Streams -/

/-- Two streams of the same units, with `k` units behind each of them. -/
structure Abreast (us vs : List FramedUnit) (k : Nat) (a b : Bitstream) : Prop where
  data : a.data = writeUnits us
  data' : b.data = writeUnits vs
  offset : a.offset = (writeUnits (us.take k)).length
  offset' : b.offset = (writeUnits (vs.take k)).length
  timestamp : b.timestamp = a.timestamp
  le : k ≤ us.length

theorem drop_written (k : Nat) (us : List FramedUnit) :
    (writeUnits us).drop (writeUnits (us.take k)).length = writeUnits (us.drop k) := by
  have hsplit : writeUnits us = writeUnits (us.take k) ++ writeUnits (us.drop k) := by
    rw [← writeUnits_append, List.take_append_drop]
  rw [hsplit]
  exact List.drop_left

theorem remaining_reading {us : List FramedUnit} {k : Nat} {a : Bitstream}
    (hd : a.data = writeUnits us) (ho : a.offset = (writeUnits (us.take k)).length) :
    a.remaining = writeUnits (us.drop k) := by
  rw [Bitstream.remaining, hd, ho, drop_written]

theorem length_take_drop (k : Nat) (us : List FramedUnit) :
    (writeUnits (us.take k)).length + (writeUnits (us.drop k)).length = (writeUnits us).length := by
  rw [← List.length_append, ← writeUnits_append, List.take_append_drop]

theorem sliceUnits_reading {us : List FramedUnit} (h : ∀ u ∈ us, u.Plain) {k : Nat} {a : Bitstream}
    (hd : a.data = writeUnits us) (ho : a.offset = (writeUnits (us.take k)).length) :
    sliceUnits a.remaining = (placedUnits 0 (us.drop k)).filter (·.isSlice) := by
  rw [remaining_reading hd ho, sliceUnits,
    startCodeUnits_plain fun u hu => h u (List.mem_of_mem_drop hu)]

/-- All that is left of a stream can be taken. -/
theorem consume_rest {us : List FramedUnit} {k : Nat} {a : Bitstream} (hd : a.data = writeUnits us)
    (ho : a.offset = (writeUnits (us.take k)).length) (hlt : (writeUnits us).length < wordLimit) :
    a.consume a.remaining.length = .ok { a with offset := (writeUnits us).length } := by
  have hall : a.offset + a.remaining.length = (writeUnits us).length := by
    rw [remaining_reading hd ho, ho, length_take_drop]
  obtain ⟨_, hconsume, rfl⟩ := Bitstream.consume_returns (b := a) (n := a.remaining.length)
    (by rw [hd]; exact Nat.le_of_eq hall) (by rwa [hd])
  rw [hconsume, hall]

/-- The units up to the next slice can be taken. -/
theorem consume_slice {us : List FramedUnit} {k j stop : Nat} {a : Bitstream}
    (hd : a.data = writeUnits us) (ho : a.offset = (writeUnits (us.take k)).length)
    (hlt : (writeUnits us).length < wordLimit)
    (hstop : stop = 0 + (writeUnits ((us.drop k).take (j + 1))).length) :
    a.consume stop = .ok { a with offset := (writeUnits (us.take (k + (j + 1)))).length } := by
  have hoffset : a.offset + stop = (writeUnits (us.take (k + (j + 1)))).length := by
    rw [ho, hstop, Nat.zero_add, ← List.length_append, ← writeUnits_append, ← List.take_add]
  have hle : a.offset + stop ≤ a.data.length := by
    rw [hoffset, hd, ← length_take_drop (k + (j + 1)) us]
    exact Nat.le_add_right _ _
  obtain ⟨_, hconsume, rfl⟩ := Bitstream.consume_returns hle (by rwa [hd])
  rw [hconsume, hoffset]

/-! ## Answers -/

/-- The same answer, but for the stream that comes back with it. -/
structure SameAnswer (x y : DecodeAnswer SimulatedEngine) : Prop where
  status : y.status = x.status
  output : y.output = x.output
  engine : y.engine = x.engine
  resources : y.resources = x.resources

/-- The engine asks for more, or fails. -/
def Stops (status : EngineStatus) (output : Option DecodedSurface) : Prop :=
  output = none ∧ (status = .moreData ∨ status = .fatal)

theorem nextPicture_congr {u v : NalUnit} (h : v.header = u.header) (e : SimulatedEngine) :
    nextPicture v e = nextPicture u e := by
  unfold nextPicture
  rw [h]

/-- Slices with the same header are decoded alike. -/
theorem decodeSlice_agree {u v : NalUnit} (hh : v.header = u.header) {a b a' b' : Bitstream}
    (ha : a.consume u.stop = .ok a') (hb : b.consume v.stop = .ok b')
    (ht : b'.timestamp = a'.timestamp) (params : VideoParams) (work : WorkSurface)
    (e : SimulatedEngine) (r : Resources) :
    Agree (fun x y => SameAnswer x y ∧ x.engine.busy = e.busy ∧ x.engine.injected = e.injected ∧
      x.stream = some a' ∧ y.stream = some b')
      (decodeSlice params u a work e r) (decodeSlice params v b work e r) := by
  unfold decodeSlice
  rw [ha, hb, nextPicture_congr hh]
  refine (nextPicture_rest u e).agree.bind ?_
  rintro ⟨viewId, order, _⟩ _ ⟨rfl, _, _, rfl⟩
  dsimp only
  rw [ht]
  cases e.allocator with
  | none => exact .ok ⟨⟨rfl, rfl, rfl, rfl⟩, rfl, rfl, rfl, rfl⟩
  | some id =>
    dsimp only
    cases Resources.fillLuma id work.mid (lumaPattern viewId order) (r.lock work.lock) with
    | error fault => exact .error fault
    | ok r' => exact .ok ⟨⟨rfl, rfl, rfl, rfl⟩, rfl, rfl, rfl, rfl⟩

variable {us vs : List FramedUnit} {k : Nat} {a b : Bitstream} {e : SimulatedEngine}

/-- With nothing prepared, the engine answers the same to both streams. Either both are behind further
units then, or it stops. -/
theorem decode_abreast (hr : Reframed us vs) (hlt : (writeUnits us).length < wordLimit)
    (hlt' : (writeUnits vs).length < wordLimit) (h : Abreast us vs k a b)
    (hb : e.busy = .calls 0) (hi : e.injected = []) (work : WorkSurface) (r : Resources) :
    Agree (fun x y => SameAnswer x y ∧ x.engine.busy = .calls 0 ∧ x.engine.injected = [] ∧
      ∃ k' a' b', x.stream = some a' ∧ y.stream = some b' ∧ Abreast us vs k' a' b' ∧
        (k < k' ∨ Stops x.status x.output))
      (e.decode (some a) work r) (e.decode (some b) work r) := by
  cases hp : e.params with
  | none =>
    rw [decode_unheld hb hi hp, decode_unheld hb hi hp]
    exact .ok ⟨⟨rfl, rfl, rfl, rfl⟩, hb, hi, k, a, b, rfl, rfl, h, Or.inr ⟨rfl, Or.inr rfl⟩⟩
  | some params =>
    have he : Attentive e := ⟨hb, hi, by rw [hp]; rfl⟩
    obtain ⟨_, hpa, hda⟩ := decode_attentive he a work r
    obtain ⟨_, hpb, hdb⟩ := decode_attentive he b work r
    cases hp.symm.trans hpa
    cases hp.symm.trans hpb
    rw [hda, hdb, sliceUnits_reading hr.plain h.data h.offset,
      sliceUnits_reading hr.plain' h.data' h.offset']
    rcases (hr.drop k).first_slice with
      ⟨hnil, hnil'⟩ | ⟨j, u, v, rest, rest', hcons, hcons', hheader, hjlt, hstop, hstop'⟩
    · rw [hnil, hnil']
      simp only [List.head?_nil]
      rw [consume_rest h.data h.offset hlt, consume_rest h.data' h.offset' hlt']
      refine .ok ⟨⟨rfl, rfl, rfl, rfl⟩, hb, hi, us.length, _, _, rfl, rfl,
        ⟨h.data, h.data', ?_, ?_, h.timestamp, Nat.le_refl _⟩, Or.inr ⟨rfl, Or.inl rfl⟩⟩
      · rw [List.take_length]
      · rw [← hr.length, List.take_length]
    · have hle : k + (j + 1) ≤ us.length := by
        rw [List.length_drop] at hjlt
        omega
      rw [hcons, hcons']
      simp only [List.head?_cons]
      refine (decodeSlice_agree hheader (consume_slice h.data h.offset hlt hstop)
        (consume_slice h.data' h.offset' hlt' hstop') h.timestamp params work _ _).mono ?_
      rintro x y ⟨hsame, hbusy, hinjected, hx, hy⟩
      exact ⟨hsame, hbusy.trans hb, hinjected.trans hi, k + (j + 1), _, _, hx, hy,
        ⟨h.data, h.data', rfl, rfl, h.timestamp, hle⟩, Or.inl (by omega)⟩

/-- An answer that was prepared is given whatever the input. -/
theorem decode_prepared (hc : e.busy ≠ .always) :
    e.busy = .calls 0 ∧ e.injected = [] ∨
      ∃ status e', e'.busy ≠ .always ∧ e'.patience < e.patience ∧
        ∀ input work r, e.decode input work r = .ok ⟨status, none, input, e', r⟩ := by
  by_cases hb : e.busy = .calls 0
  · cases hi : e.injected with
    | nil => exact Or.inl ⟨hb, rfl⟩
    | cons status rest =>
      refine Or.inr ⟨status, { e with injected := rest }, hc, ?_, decode_injected hb hi⟩
      simp only [patience, hi, List.length_cons]
      omega
  · obtain ⟨n, hn⟩ := (Busy.always_or_calls hb).resolve_left hc
    refine Or.inr ⟨.deviceBusy, { e with busy := e.busy.next }, ?_, ?_, decode_busy hb⟩
    · rw [hn]
      exact nofun
    · simp only [patience, hn, Busy.next]
      omega

/-- Without input the engine stops, unless an answer was prepared. -/
theorem decode_drained (hb : e.busy = .calls 0) (hi : e.injected = []) (work : WorkSurface)
    (r : Resources) :
    Returns (e.decode none work r) fun x => x.stream = none ∧ x.engine.busy = .calls 0 ∧
      Stops x.status x.output := by
  cases hp : e.params with
  | none =>
    rw [decode_unheld hb hi hp]
    exact .ok ⟨rfl, hb, rfl, Or.inr rfl⟩
  | some params =>
    rw [decode_none ⟨hb, hi, by rw [hp]; rfl⟩]
    exact .ok ⟨rfl, hb, rfl, Or.inl rfl⟩

end SimulatedEngine

end Multiview
