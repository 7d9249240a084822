import Multiview.Proofs.Session.Opening
import Multiview.Proofs.Session.Playing

/-!
A stereo stream from start to end. Whatever the depth and the length of the stream, the pool is large
enough for the surfaces on their way, and each picture is shown once and in order.
-/

namespace Multiview

open Outcome Client Session

/-! ## Packets of a stream -/

namespace AccessUnit

theorem length_trimmed_le (a : AccessUnit) : a.trimmed.bytes.length ≤ a.bytes.length := by
  obtain ⟨u, us, hunits, htrim⟩ := a.bytes_trimmed
  rw [htrim, bytes, hunits, writeUnits_cons, FramedUnit.bytes]
  simp only [List.length_append, List.length_replicate]
  omega

theorem length_le_stream {a : AccessUnit} {as : List AccessUnit} (h : a ∈ as) (zeros : Nat) :
    a.trimmed.bytes.length ≤ (writeStream as zeros).length := by
  have hsub := (List.sublist_flatten_of_mem (List.mem_map_of_mem (f := AccessUnit.bytes) h)).length_le
  rw [← List.flatMap_def] at hsub
  rw [writeStream, List.length_append]
  exact Nat.le_trans a.length_trimmed_le (Nat.le_trans hsub (Nat.le_add_right _ _))

/-- The parameter sets of two views come before the slices. -/
def OpensStereo (a : AccessUnit) : Prop :=
  (∃ u ∈ a.others, u.header.type = .subsetSps) ∧ ∃ u ∈ a.others, u.header.type = .pps

theorem bringsStereo {a : AccessUnit} (h : a.Proper) (ho : a.OpensStereo) :
    SimulatedEngine.BringsStereo a.trimmed.bytes := by
  have hcontains : ∀ type, (∃ u ∈ a.others, u.header.type = type) →
      ((startCodeUnits a.trimmed.bytes).map (·.header.type)).contains type = true := by
    rintro type ⟨u, hu, rfl⟩
    have hheader : u.header ∈ a.trimmed.units.map (·.header) := by
      rw [units, List.map_append, a.map_header_trimmed.1]
      exact List.mem_append_left _ (List.mem_map_of_mem hu)
    rw [h.trimmed.startCodeUnits_bytes, List.contains_iff_mem]
    rw [← map_header_placedUnits 0] at hheader
    have htype := List.mem_map_of_mem (f := NalHeader.type) hheader
    rwa [List.map_map] at htype
  exact ⟨hcontains _ ho.1, hcontains _ ho.2⟩

end AccessUnit

namespace Playback

variable {traits : SimulatedTraits} {config : SessionConfig} {device : Option TextureDevice}
  {memory : HostMemory} {hints : StreamHints} {options : Options} {mode : StereoMode} {coded : Resolution}

theorem opened_reachable (hcodec : hints.codec = .h264 ∨ hints.codec = .h264Mvc)
    (htag : hints.tag = .amvc) (hextra : hints.extradata = []) :
    (alone (opened traits config device memory options
      (StereoMode.ofHint hints.stereoMode))).Reachable := by
  have hstart : (Client.start traits config device memory).Reachable :=
    ⟨traits, config, device, memory, [], rfl⟩
  have hperform : (Client.start traits config device memory).perform (.open hints options) =
      .ok (.opened (.ok ()) { hints with
          stereoMode := (StereoMode.ofHint hints.stereoMode).text },
        alone (opened traits config device memory options (StereoMode.ofHint hints.stereoMode))) := by
    unfold Client.perform
    dsimp only
    rw [open_start traits config device memory options hcodec htag hextra]
    rfl
  exact hstart.perform hperform

/-- The first access unit of a stream sets up the session that it is decoded in. -/
theorem playPacket_first (hr : (alone (opened traits config device memory options mode)).Reachable)
    {a : AccessUnit} (ha : a.Proper) (hstereo : SimulatedEngine.BringsStereo a.bytes)
    (hlt : a.bytes.length < wordLimit) (hcoded : traits.codedResolution = .ok coded)
    (halloc : CanAllocate traits config { device := device, memory := memory }
      (options.surfaces?.getD 0) coded)
    (hdepth : traits.implementation = .hardware → config.asyncDepth ≤ traits.suggested)
    (hfit : traits.suggested.toNat + config.asyncDepth.toNat + 4 ≤ 65535) :
    Returns (playPacket 0 16 a.bytes { session := opened traits config device memory options mode })
      fun q => q.session.control = ⟨0⟩ ∧ ∃ made, made ≤ 1 ∧ Showing 0 made (1 - made) q := by
  have hunused := unused_opened traits config device memory options mode
  obtain ⟨b, e, hslices, hb, he⟩ := ha.sliceUnits_bytes
  have haccept := accept_packet (s := opened traits config device memory options mode) (Or.inl rfl) rfl rfl
    ha.endOfSequenceStarts_bytes
  have hin := (aside_edit hr.accounted.inStep.ready a.bytes).inStep hr.accounted.inStep
  obtain ⟨⟨answer, u⟩, hu, hanswer, hstreaming, hpictures, hrest⟩ := setUp_stereo hin
    ⟨hunused.phase, hunused.engineReady, hunused.current, hunused.frames, hunused.sequence,
      hunused.busy, hunused.injected, hunused.nextOrder⟩ hstereo hcoded hdepth hfit halloc
  dsimp only at hanswer hstreaming hrest
  subst hanswer
  have harrange : arrange false { opened traits config device memory options mode with buffer := a.bytes } =
      .ok (.ok true, u) := hu
  obtain ⟨_, _, _, _, hrest⟩ := hrest
  obtain ⟨hphase, hlength, hcontrol, hpics, hbuffer⟩ : u.phase = .ready ∧ u.lengthSize = none ∧
      u.control = ⟨0⟩ ∧ u.pictures = [] ∧ u.buffer = a.bytes := by
    rw [hrest]
    exact ⟨rfl, rfl, rfl, rfl, rfl⟩
  rw [← hbuffer] at hslices hlt
  generalize hs : opened traits config device memory options mode = s at hr haccept harrange
  obtain ⟨q, hq, hcontrol, made, hmade, hshowing⟩ := playPacket_pair (p := { session := s }) hr rfl
    haccept harrange hphase hlength hcontrol hpics hstreaming .nil (by decide) hslices hb he hlt
  rw [Nat.zero_add] at hq hmade hshowing
  exact ⟨q, hq, hcontrol, made, hmade, hshowing⟩

/-- All packets of a stream, from the first on. -/
theorem playPackets_stream (hr : (alone (opened traits config device memory options mode)).Reachable)
    {a : AccessUnit} {as : List AccessUnit}
    (ha : ∀ b ∈ a :: as, b.Proper ∧ b.bytes.length < wordLimit)
    (hstereo : SimulatedEngine.BringsStereo a.bytes)
    (hcoded : traits.codedResolution = .ok coded)
    (halloc : CanAllocate traits config { device := device, memory := memory }
      (options.surfaces?.getD 0) coded)
    (hdepth : traits.implementation = .hardware → config.asyncDepth ≤ traits.suggested)
    (hfit : traits.suggested.toNat + config.asyncDepth.toNat + 4 ≤ 65535)
    (hcount : (a :: as).length < UInt32.size) :
    Returns (playPackets 0 ((a :: as).map (·.bytes))
      { session := opened traits config device memory options mode }) fun q =>
        q.session.control = ⟨0⟩ ∧ ∃ first count, first + count = (a :: as).length ∧
          Showing 0 first count q := by
  obtain ⟨hproper, hlt⟩ := ha a List.mem_cons_self
  obtain ⟨q, hq, hcontrol, made, hmade, hshowing⟩ :=
    playPacket_first hr hproper hstereo hlt hcoded halloc hdepth hfit
  have hsum : 1 = made + (1 - made) := by omega
  rw [List.length_cons] at hcount
  obtain ⟨r, hplay, hcontrol', first, count, htotal, hdone⟩ := hshowing.playPackets hcontrol
    (fun b hb => ha b (List.mem_cons_of_mem a hb)) (by omega)
  rw [← hsum] at hplay
  refine ⟨r, ?_, hcontrol', first, count, ?_, hdone⟩
  · rw [List.map_cons, Playback.playPackets, hq]
    simp only [bind, Except.bind, hshowing.result, Nat.zero_add, hplay]
  · rw [List.length_cons]
    omega

/-- The end of a playback that lost nothing: as many pictures were shown as the stream has, each of them
in its place, and nothing is in use any more. -/
structure Complete (n : Nat) (r : Playback SimulatedEngine) : Prop where
  result : r.result = .ok ()
  count : r.shown.length = n
  shown : ∀ i p, r.shown[i]? = some p → Shown r.session i p
  control : r.session.control = ⟨0⟩
  free : ∃ pool, r.session.current = some pool ∧
    ∀ x ∈ (r.session.pools.pool pool).surfaces, x.isFree r.session.pools.resources = true

theorem Showing.complete {p : Playback SimulatedEngine} {pool : PoolId} {n : Nat}
    (h : Showing pool n 0 p) (hfly : p.session.engine.inFlight = []) :
    Complete n { p with session := p.session.setControl ⟨0⟩ } where
  result := h.result
  count := by
    rw [← h.shown.length_eq, List.length_range']
  shown := by
    intro i x hx
    obtain ⟨hlt, hx⟩ := List.getElem?_eq_some_iff.mp hx
    have hlt' : i < (List.range' 0 n).length := h.shown.length_eq ▸ hlt
    have hi := h.shown.get hlt' hlt
    have hi : Shown p.session i x := by simpa [hx] using hi
    exact hi.later (List.prefix_refl _)
  control := rfl
  free := by
    refine ⟨pool, h.streaming.running.current, ?_⟩
    have hnone : (alone p.session).session.pictures ++ (alone p.session).references = [] :=
      (List.append_nil _).trans h.pictures
    exact h.reachable.accounted.all_free h.streaming.running.current h.streaming.aligned.eq_nil
      hnone hfly

/-- Without a single packet nothing is shown. -/
theorem drainAll_opened (hr : (alone (opened traits config device memory options mode)).Reachable) :
    Returns (drainAll { session := opened traits config device memory options mode }) fun q =>
      q.result = .ok () ∧ Complete 0 { q with session := q.session.setControl ⟨0⟩ } := by
  generalize hs : opened traits config device memory options mode = s at hr ⊢
  obtain ⟨hphase, hcur, hqueues, hpics, hfly⟩ : s.phase = .opened ∧ s.current = some 0 ∧
      s.queues = {} ∧ s.pictures = [] ∧ s.engine.inFlight = [] := by
    rw [← hs]
    exact ⟨rfl, rfl, rfl, rfl, rfl⟩
  generalize hcontrol : s.control.union .drain = control
  have hdrain : s.drain = .ok ({ needInput := true }, { s with control := control }) := by
    have haccept : accept none { s with control := control } =
        .ok (.ok { s with control := control }) :=
      accept_active (s := { s with control := control }) (Or.inl hphase) none
    have harrange : arrange true { s with control := control } =
        .ok (.ok false, { s with control := control }) := by
      refine (if_neg ?_).trans (if_pos rfl)
      rw [hphase]
      decide
    unfold drain Session.decode
    rw [hcontrol, tryDecode_of_accept haccept]
    unfold advance
    rw [Option.isNone_none, harrange]
    rfl
  have hplay : playAllReady { s with control := control } = ([], { s with control := control }) := by
    unfold playAllReady
    rw [hpics]
    rfl
  have hall : drainAll { session := s } = .ok { session := { s with control := control } } := by
    unfold drainAll
    dsimp only
    rw [drainWithin, hdrain]
    simp only [bind, Except.bind, Bool.false_eq_true, ↓reduceIte, showReady, hplay]
    rfl
  refine ⟨_, hall, rfl, rfl, rfl, (fun _ _ hp => by cases hp), rfl, 0, hcur, ?_⟩
  have hnone : (alone s).session.pictures ++ (alone s).references = [] :=
    (List.append_nil _).trans hpics
  exact hr.accounted.all_free hcur hqueues hnone hfly

end Playback

namespace Session

open Playback

/-- Playing a stereo stream loses nothing. If the frames of a new session can be allocated, and a
hardware engine suggests as many as may be in flight, then every picture of a stream with two slices in
each access unit is shown, in order. -/
theorem play_complete (traits : SimulatedTraits) (config : SessionConfig)
    (device : Option TextureDevice) (memory : HostMemory) (options : Options) {hints : StreamHints}
    (hcodec : hints.codec = .h264 ∨ hints.codec = .h264Mvc) (htag : hints.tag = .amvc)
    (hextra : hints.extradata = []) {coded : Resolution}
    (hcoded : traits.codedResolution = .ok coded)
    (halloc : CanAllocate traits config { device := device, memory := memory }
      (options.surfaces?.getD 0) coded)
    (hdepth : traits.implementation = .hardware → config.asyncDepth ≤ traits.suggested)
    (hfit : traits.suggested.toNat + config.asyncDepth.toNat + 4 ≤ 65535)
    {as : List AccessUnit} (hproper : ∀ a ∈ as, a.Proper)
    (hstereo : ∀ a ∈ as.head?, a.OpensStereo) (hcount : as.length < UInt32.size) (zeros : Nat)
    (hlt : (writeStream as zeros).length < wordLimit) :
    ∃ hints' s, (Client.start traits config device memory).session.open hints options =
        .ok (.ok (), hints', s) ∧
      Returns (s.play (accessUnits (writeStream as zeros))) (Complete as.length) := by
  refine ⟨_, _, open_start traits config device memory options hcodec htag hextra, ?_⟩
  have hr : (alone (opened traits config device memory options
      (StereoMode.ofHint hints.stereoMode))).Reachable :=
    opened_reachable hcodec htag hextra
  generalize StereoMode.ofHint hints.stereoMode = mode at hr
  rw [accessUnits_written hproper]
  cases as with
  | nil =>
    obtain ⟨q, hq, hresult, hcomplete⟩ := drainAll_opened hr
    refine ⟨_, ?_, hcomplete⟩
    unfold play
    rw [List.map_nil, playPackets]
    simp only [bind, Except.bind, pure, Except.pure, hq, hresult]
  | cons a as =>
    have htrimmed : ∀ b ∈ (a :: as).map (·.trimmed), b.Proper ∧ b.bytes.length < wordLimit := by
      intro b hb
      obtain ⟨c, hc, rfl⟩ := List.mem_map.mp hb
      exact ⟨(hproper c hc).trimmed, Nat.lt_of_le_of_lt (AccessUnit.length_le_stream hc zeros) hlt⟩
    have hbrings := AccessUnit.bringsStereo (hproper a List.mem_cons_self) (hstereo a rfl)
    rw [List.map_cons] at htrimmed
    obtain ⟨p, hp, -, first, count, hsum, hshowing⟩ := playPackets_stream hr htrimmed hbrings hcoded
      halloc hdepth hfit (by simpa using hcount)
    obtain ⟨q, hq, hdone, hfly⟩ := hshowing.drainAll
    have hpackets : ((a.trimmed :: as.map (·.trimmed)).map (·.bytes)) =
        (a :: as).map (·.trimmed.bytes) := by
      rw [List.map_cons, List.map_cons, List.map_map]
      rfl
    have hlength : first + count = (a :: as).length := by
      rw [hsum, List.length_cons, List.length_cons, List.length_map]
    rw [hpackets] at hp
    rw [hlength] at hdone
    refine ⟨_, ?_, hdone.complete hfly⟩
    unfold play
    rw [hp]
    simp only [bind, Except.bind, hshowing.result, hq, hdone.result, pure, Except.pure]

/-- Two pictures behind their parameter sets, with zero bytes in front of a start code. -/
def stereoStream : List AccessUnit :=
  [{ others := [{ data := [0x67, 1] }, { data := [0x6f, 1] }, { zeros := 1, data := [0x68, 1] }]
     base := { data := [0x65, 1] }
     extension := { data := [0x74, 1] } },
   { base := { zeros := 2, data := [0x41, 1] }, extension := { data := [0x74, 2] } }]

/-- One picture is still on its way when the second one is decoded. -/
theorem stereoStream_complete : ∃ hints s,
    (Client.start { display := ⟨16, 16⟩ } { asyncDepth := 2 } none).session.open {} [] =
        .ok (.ok (), hints, s) ∧
      Returns (s.play (accessUnits (writeStream stereoStream 2))) (Complete 2) := by
  have hproper : ∀ a ∈ stereoStream, a.Proper := by
    have hunits : ∀ a ∈ stereoStream, ∀ u ∈ a.units,
        u.data ≠ [] ∧ ¬ [0, 0, 1] <:+: u.data ∧ u.data.getLast? ≠ some 0 := by decide
    have hothers : ∀ a ∈ stereoStream, ∀ u ∈ a.others,
        u.header.type.isSlice = false ∧ u.header.type ≠ .endOfSequence := by decide +kernel
    have hslices : ∀ a ∈ stereoStream, a.base.header.type.isBaseSlice = true ∧
        a.extension.header.type.isExtensionSlice = true := by decide +kernel
    intro a ha
    refine ⟨fun u hu => ?_, hothers a ha, (hslices a ha).1, (hslices a ha).2⟩
    obtain ⟨hne, hcode, hlast⟩ := hunits a ha u hu
    exact ⟨hne, hcode, hlast⟩
  have hstereo : ∀ a ∈ stereoStream.head?, a.OpensStereo := by
    intro a ha
    cases ha
    exact ⟨by decide +kernel, by decide +kernel⟩
  exact play_complete { display := ⟨16, 16⟩ } { asyncDepth := 2 } none .ample [] (Or.inr rfl) rfl rfl
    rfl (fun _ => ⟨_, rfl, _, rfl⟩) (by decide) (by decide) hproper hstereo (by decide) 2
    (by decide +kernel)

end Session

end Multiview
