import Mathlib.Algebra.GroupWithZero.Nat
import Multiview.Proofs.Session.Framings

/-!
Two clients of new sessions get the same stream, one with length fields and one with start codes. Call by
call both are told the same and hold the same pictures.
-/

namespace Multiview

open Outcome

/-- What a client does with an open stream. -/
inductive Feed where
  /-- Decode the units of a sample. -/
  | sample (units : List FramedUnit) (dts pts : Option UInt64)
  | call (op : Operation)

namespace Client

open Session

/-- Whether an operation leaves the stream as it is: it neither opens one nor gives input, and the device
does not become busy for good. -/
def silent : Operation → Bool
  | .open _ _ | .decode (some _) _ _ | .prepare (.busy .always) => false
  | _ => true

end Client

namespace Feed

/-- Each unit of a sample follows its length. -/
def withLengths (width : Nat) : Feed → Operation
  | sample units dts pts => .decode (some (writeRecords width (units.map (·.data)))) dts pts
  | call op => op

/-- Each unit of a sample follows a start code. -/
def withStartCodes : Feed → Operation
  | sample units dts pts => .decode (some (writeUnits units)) dts pts
  | call op => op

/-- The lengths of units fit their fields. -/
def Fits (size : LengthSize) : Feed → Prop
  | sample units _ _ => ∀ u ∈ units, u.Plain ∧ u.data.length < 256 ^ size.bytes
  | call op => Client.silent op = true

instance (size : LengthSize) : (f : Feed) → Decidable (f.Fits size)
  | sample units _ _ =>
    inferInstanceAs (Decidable (∀ u ∈ units, u.Plain ∧ u.data.length < 256 ^ size.bytes))
  | call op => inferInstanceAs (Decidable (Client.silent op = true))

/-- Bytes of a feed in either framing, at most. -/
def volume : Feed → Nat
  | sample units _ _ => (writeUnits units).length + 1
  | call _ => 0

end Feed

namespace Client

open Session

/-- Two clients with the same pictures, whose sessions are twins. In the first one samples have length
fields. -/
structure Twins (size : LengthSize) (m : Nat) (c d : Client SimulatedEngine) : Prop where
  session : ∃ l l', Session.Twins l l' m c.session d.session ∧
    (Active c.session → l = some size ∧ l' = none)
  held : d.held = c.held
  shared : d.shared = c.shared

/-- The same answer to clients that are twins afterwards. -/
abbrev Beside (size : LengthSize) (m : Nat) (x y : Answer × Client SimulatedEngine) : Prop :=
  y.1 = x.1 ∧ Twins size m x.2 y.2

variable {size : LengthSize} {m : Nat} {c d : Client SimulatedEngine}

theorem phase_takeReady (n : Nat) (s : Session SimulatedEngine) :
    (s.takeReady n).2.phase = s.phase := by
  induction n generalizing s with
  | zero => rfl
  | succ n ih =>
    unfold takeReady
    cases hget : s.getPicture with
    | none => rfl
    | some x =>
      obtain ⟨-, rest, -, -, ht⟩ := getPicture_eq_some hget
      refine (ih x.2).trans ?_
      rw [ht]

theorem phase_clearPicture (p : StereoPicture) (s : Session SimulatedEngine) :
    (s.clearPicture p).2.phase = s.phase := by
  unfold clearPicture
  cases p.picture <;> rfl

theorem phase_playReady (n : Nat) (s : Session SimulatedEngine) :
    (s.playReady n).2.phase = s.phase := by
  induction n generalizing s with
  | zero => rfl
  | succ n ih =>
    unfold playReady
    cases hget : s.getPicture with
    | none => rfl
    | some x =>
      obtain ⟨-, rest, -, -, ht⟩ := getPicture_eq_some hget
      refine (ih _).trans ((phase_clearPicture x.1 x.2).trans ?_)
      rw [ht]

theorem phase_dropReference (id : Option PictureId) (c : Client SimulatedEngine) :
    (c.dropReference id).session.phase = c.session.phase := by
  cases id <;> rfl

/-- What a client does with its pictures has nothing to do with the phase. -/
theorem phase_handles {op : Operation} (hop : handles op = true) (c : Client SimulatedEngine) :
    Yields (c.perform op) fun x => x.2.session.phase = c.session.phase := by
  cases op with
  | control flags => exact .pure rfl
  | take n => exact .pure (phase_takeReady n c.session)
  | play => exact .pure (phase_playReady _ c.session)
  | clear place =>
    refine .pure ?_
    unfold clear
    cases c.held? place with
    | none => rfl
    | some p => exact phase_clearPicture p c.session
  | drop place => exact .pure (phase_dropReference _ c)
  | share place => exact .pure rfl
  | mark place =>
    refine .pure ?_
    unfold mark
    cases c.surfaces? place <;> rfl
  | view place => exact .pure rfl
  | dropShared place => exact .pure (phase_dropReference _ c)
  | _ => cases hop

theorem perform_handles (h : Twins size m c d) {op : Operation} (hop : handles op = true) :
    Agree (Beside size m) (c.perform op) (d.perform op) := by
  obtain ⟨⟨l, l', htwins, hl⟩, hheld, hshared⟩ := h
  obtain ⟨s, held, shared⟩ := c
  obtain ⟨t, held', shared'⟩ := d
  cases hheld
  cases hshared
  cases htwins with
  | intro b hg =>
    rename_i g g'
    have hphase := phase_handles hop ⟨b, held, shared⟩
    have hone := perform_under g ⟨b, held, shared⟩ hop
    have hother := perform_under g' ⟨b, held, shared⟩ hop
    change Agree _ (perform op (under g ⟨b, held, shared⟩)) (perform op (under g' ⟨b, held, shared⟩))
    rw [hone, hother]
    cases hx : perform op ⟨b, held, shared⟩ with
    | error fault => exact .error fault
    | ok x =>
      refine .ok ⟨rfl, ⟨l, l', .intro _ hg, fun ha => hl ?_⟩, rfl, rfl⟩
      have hkept : x.2.session.phase = b.phase := hphase x hx
      have ha : x.2.session.phase = .opened ∨ x.2.session.phase = .ready := ha
      rwa [hkept] at ha

/-- A session that cannot decode is left as it is. -/
theorem decode_none_active (hm : m < wordLimit) {l l' : Option LengthSize}
    {s t : Session SimulatedEngine} (h : Session.Twins l l' m s t)
    (hl : Active s → l = some size ∧ l' = none) (dts pts : Option UInt64) :
    Agree (fun x y => y.1 = x.1 ∧ Session.Twins l l' m x.2 y.2 ∧
        (Active x.2 → l = some size ∧ l' = none))
      (s.decode none dts pts) (t.decode none dts pts) := by
  by_cases ha : Active s
  · exact (decode_none hm h dts pts).mono fun x y hxy => ⟨hxy.1, hxy.2, fun _ => hl ha⟩
  · rw [decode_refused ha, decode_refused fun ha' => ha (h.active.mp ha')]
    exact .ok ⟨rfl, h, hl⟩

theorem perform_silent (hm : m < wordLimit) (h : Twins size m c d) {op : Operation}
    (hop : silent op = true) : Agree (Beside size m) (c.perform op) (d.perform op) := by
  obtain ⟨l, l', htwins, hl⟩ := h.session
  cases op with
  | «open» hints options => cases hop
  | decode data dts pts =>
    cases data with
    | some data => cases hop
    | none =>
      refine (decode_none_active hm htwins hl dts pts).bind ?_
      rintro ⟨_, s⟩ ⟨status, t⟩ ⟨rfl, hxy⟩
      exact .pure ⟨rfl, ⟨l, l', hxy⟩, h.held, h.shared⟩
  | drain =>
    have hdraining := htwins.blind
      (f := fun s => { s with control := s.control.union .drain }) fun _ _ => rfl
    refine (decode_none_active hm hdraining hl none none).bind ?_
    rintro ⟨_, s⟩ ⟨status, t⟩ ⟨rfl, hxy⟩
    exact .pure ⟨rfl, ⟨l, l', hxy⟩, h.held, h.shared⟩
  | flush =>
    refine .pure ⟨rfl, ⟨l, l', flush_twins htwins, fun ha => hl ?_⟩, h.held, h.shared⟩
    unfold Active at ha
    rwa [phase_flush] at ha
  | close =>
    obtain ⟨k, k', hclosed⟩ := close_twins htwins
    refine .pure ⟨rfl, ⟨k, k', hclosed, fun ha => ?_⟩, h.held, h.shared⟩
    exact absurd ha (not_active_of_resting (Or.inr (phase_close c.session)))
  | prepare p =>
    have hcalm : (c.session.engine.prepare p).busy ≠ .always := by
      cases p with
      | inject status => exact htwins.calm
      | slow n => exact htwins.calm
      | busy period =>
        cases period with
        | calls n => exact nofun
        | always => cases hop
    have hprepared := htwins.withEngine hcalm
    refine .pure ⟨rfl, ⟨l, l', ?_, hl⟩, h.held, h.shared⟩
    change Session.Twins l l' m { c.session with engine := c.session.engine.prepare p }
      { d.session with engine := d.session.engine.prepare p }
    rwa [htwins.engine]
  | _ => exact perform_handles h rfl

theorem perform_feed (h : Twins size m c d) {f : Feed} (hf : f.Fits size)
    (hm : m + f.volume < wordLimit) :
    Agree (Beside size (m + f.volume)) (c.perform (f.withLengths size.bytes))
      (d.perform f.withStartCodes) := by
  cases f with
  | call op => exact perform_silent hm h hf
  | sample units dts pts =>
    obtain ⟨l, l', htwins, hl⟩ := h.session
    have hunits : ∀ u ∈ units, u.Plain ∧ u.data.length < 256 ^ size.bytes := hf
    by_cases ha : Active c.session
    · obtain ⟨rfl, rfl⟩ := hl ha
      refine (decode_twins (tryDecode_sample htwins ha hunits hm dts pts)).bind ?_
      rintro ⟨_, s⟩ ⟨status, t⟩ ⟨rfl, hxy⟩
      exact .pure ⟨rfl, ⟨_, _, hxy, fun _ => ⟨rfl, rfl⟩⟩, h.held, h.shared⟩
    · have hone : c.perform (Feed.withLengths size.bytes (.sample units dts pts)) =
          .ok (.status { error := true }, c) := by
        unfold Feed.withLengths perform
        dsimp only
        rw [decode_refused ha]
        rfl
      have hother : d.perform (Feed.withStartCodes (.sample units dts pts)) =
          .ok (.status { error := true }, d) := by
        unfold Feed.withStartCodes perform
        dsimp only
        rw [decode_refused fun ha' => ha (htwins.active.mp ha')]
        rfl
      rw [hone, hother]
      exact .ok ⟨rfl, ⟨l, l', htwins.mono (Nat.le_add_right _ _), hl⟩, h.held, h.shared⟩

/-! ## Runs -/

/-- An answer without the parts of the stream's description that repeat its framing. -/
def unframed : Answer → Answer
  | .opened result hints => .opened result { hints with tag := .amvc, extradata := [] }
  | a => a

/-- Two runs with the same answers, after which both clients have the same pictures, and both sessions
are the same but for their journals and their input. -/
structure Alike (x y : List Answer × Client SimulatedEngine) : Prop where
  answers : y.1.map unframed = x.1.map unframed
  pictures : y.2.session.pools.pictures = x.2.session.pools.pictures
  held : y.2.held = x.2.held
  shared : y.2.shared = x.2.shared
  session : y.2.session.bare = x.2.session.bare

theorem Twins.alike (h : Twins size m c d) : Alike ([], c) ([], d) := by
  obtain ⟨l, l', htwins, -⟩ := h.session
  exact ⟨rfl, htwins.table, h.held, h.shared, htwins.bare.symm⟩

theorem answers_cons {op op' : Operation} {ops ops' : List Operation}
    (h : Agree (fun x y => unframed y.1 = unframed x.1 ∧
        Agree Alike (x.2.answers ops) (y.2.answers ops')) (c.perform op) (d.perform op')) :
    Agree Alike (c.answers (op :: ops)) (d.answers (op' :: ops')) := by
  unfold answers
  refine h.bind fun x y hxy => hxy.2.bind fun z w hzw => .pure ?_
  exact ⟨by rw [List.map_cons, List.map_cons, hxy.1, hzw.answers], hzw.pictures, hzw.held,
    hzw.shared, hzw.session⟩

/-- Feeding both clients the same, each in its framing. -/
theorem answers_feeds (h : Twins size m c d) {feeds : List Feed} (hf : ∀ f ∈ feeds, f.Fits size)
    (hm : m + (feeds.map Feed.volume).sum < wordLimit) :
    Agree Alike (c.answers (feeds.map (Feed.withLengths size.bytes)))
      (d.answers (feeds.map Feed.withStartCodes)) := by
  induction feeds generalizing m c d with
  | nil => exact .pure h.alike
  | cons f feeds ih =>
    rw [List.map_cons, List.sum_cons] at hm
    refine answers_cons ((perform_feed h (hf f List.mem_cons_self) (by omega)).mono ?_)
    rintro x y ⟨ha, htwins⟩
    exact ⟨by rw [ha], ih htwins (fun f' hf' => hf f' (List.mem_cons_of_mem f hf')) (by omega)⟩

/-- Whatever leaves the stream as it is may come first. -/
theorem answers_before {before ops ops' : List Operation} (hb : ∀ op ∈ before, silent op = true)
    (hm : m < wordLimit) (h : Twins size m c d)
    (hrest : ∀ c d, Twins size m c d → Agree Alike (c.answers ops) (d.answers ops')) :
    Agree Alike (c.answers (before ++ ops)) (d.answers (before ++ ops')) := by
  induction before generalizing c d with
  | nil => exact hrest c d h
  | cons op before ih =>
    refine answers_cons ((perform_silent hm h (hb op List.mem_cons_self)).mono ?_)
    rintro x y ⟨ha, htwins⟩
    exact ⟨by rw [ha], ih (fun op' hop' => hb op' (List.mem_cons_of_mem op hop')) htwins⟩

theorem start_twins (traits : SimulatedTraits) (config : SessionConfig)
    (device : Option TextureDevice) (memory : HostMemory) (size : LengthSize) :
    Twins size 0 (start traits config device memory) (start traits config device memory) where
  session := ⟨none, none, .of_bare rfl ⟨rfl, rfl, nofun, rfl, rfl, matched_nil 0⟩,
    fun ha => absurd ha (not_active_of_resting (Or.inl rfl))⟩
  held := rfl
  shared := rfl

/-- The header of a stream in its container is the one that was written there. -/
theorem headerOf_written {outer : Bytes} (hv : outer.head? = some 1)
    (ht : ¬ Config.atomTag <:+: outer) {r : Config.WrittenRecord} (hr : r.Proper) (behind : Bytes)
    (hints : StreamHints) :
    headerOf { hints with
      tag := .mvc1, extradata := outer ++ (Config.writeAtom r.bytes ++ behind) } =
        .ok (some r.header) := by
  have hmin : 6 ≤ r.bytes.length := by
    rw [Config.WrittenRecord.bytes, List.length_append]
    exact Nat.le_add_right 6 _
  have hheader := Config.sequenceHeader_written hr []
  rw [List.append_nil] at hheader
  unfold headerOf
  rw [if_pos rfl, Config.secondViewRecord_written hv ht rfl hmin hr.length_lt behind]
  simp only [bind, Except.bind, hheader]
  rfl

/-- The two framings decode alike. The first stream is opened with a record of its second view, whose
length size its samples have, the second one with the same parameter sets behind start codes. All input
together is less than a word can count. -/
theorem framings_agree (traits : SimulatedTraits) (config : SessionConfig)
    (device : Option TextureDevice) (memory : HostMemory) {before : List Operation}
    (hbefore : ∀ op ∈ before, silent op = true) (hints : StreamHints) (options : Options)
    {outer : Bytes} (hversion : outer.head? = some 1) (htag : ¬ Config.atomTag <:+: outer)
    {r : Config.WrittenRecord} (hr : r.Proper) (behind : Bytes)
    (hsize : size.bytes = r.header.lengthSize) {sets : List FramedUnit}
    (hsets : r.sps ++ r.pps = sets.map (·.data)) (hne : sets ≠ []) (hplain : ∀ u ∈ sets, u.Plain)
    {feeds : List Feed} (hfeeds : ∀ f ∈ feeds, f.Fits size)
    (hvolume : (writeUnits sets).length + 1 + (feeds.map Feed.volume).sum < wordLimit) :
    Agree Alike
      ((start traits config device memory).answers (before ++
        .open { hints with
          tag := .mvc1, extradata := outer ++ (Config.writeAtom r.bytes ++ behind) } options ::
            feeds.map (Feed.withLengths size.bytes)))
      ((start traits config device memory).answers (before ++
        .open { hints with tag := .amvc, extradata := writeUnits sets } options ::
            feeds.map Feed.withStartCodes)) := by
  have hlength : LengthSize.ofNat? r.header.lengthSize = .ok size := by
    rw [← hsize]
    exact dif_pos ⟨size.one_le, size.le_four⟩
  have hunits : ∀ u ∈ sets, u.Plain ∧ u.data.length < 65536 := by
    refine fun u hu => ⟨hplain u hu, hr.sets u.data ?_⟩
    rw [hsets]
    exact List.mem_map_of_mem hu
  refine answers_before hbefore (by decide) (start_twins traits config device memory size) ?_
  intro c d htwins
  obtain ⟨l, l', hsession, -⟩ := htwins.session
  refine answers_cons ?_
  have hopen := open_twins hsession (headerOf_written hversion htag hr behind hints) hsets hlength hne
    hunits (by omega) options
  refine hopen.bind ?_
  rintro ⟨_, hints', s⟩ ⟨answer, hints'', t⟩ ⟨rfl, hhints, k, k', hopened, hk⟩
  dsimp only at hhints hopened hk
  rw [Nat.zero_add] at hopened
  have hfed : Twins size ((writeUnits sets).length + 1) { c with session := s }
      { d with session := t } := ⟨⟨k, k', hopened, hk⟩, htwins.held, htwins.shared⟩
  exact .pure ⟨by rw [hhints]; rfl, answers_feeds hfed hfeeds hvolume⟩

/-- A record for samples with length fields of four bytes. -/
def stereoRecord : Config.WrittenRecord where
  profile := 118
  compatibility := 0
  level := 41
  lengthByte := 0xff
  spsByte := 0xe2
  sps := [[0x67, 1], [0x6f, 1]]
  ppsByte := 1
  pps := [[0x68, 1]]

/-- The parameter sets of the record, with start codes. -/
def stereoSets : List FramedUnit := [⟨1, [0x67, 1]⟩, ⟨0, [0x6f, 1]⟩, ⟨2, [0x68, 1]⟩]

/-- Both views of one picture, which is taken then. -/
def stereoFeeds : List Feed :=
  [.sample [⟨1, [0x65, 1]⟩, ⟨0, [0x74, 1]⟩] none (some 7), .call (.take 1), .call .drain]

def fourBytes : LengthSize := ⟨4, by decide, by decide⟩

def lengthOperations : List Operation :=
  [] ++ .open { tag := .mvc1, extradata :=
    [1, 100, 0, 41, 0xff, 0xe0, 0] ++ (Config.writeAtom stereoRecord.bytes ++ []) } [] ::
      stereoFeeds.map (Feed.withLengths fourBytes.bytes)

def startCodeOperations : List Operation :=
  [] ++ .open { tag := .amvc, extradata := writeUnits stereoSets } [] ::
    stereoFeeds.map Feed.withStartCodes

/-- The picture comes out of either stream. -/
theorem stereoFeeds_agree :
    Agree Alike ((start {} { asyncDepth := 0 } none).answers lengthOperations)
        ((start {} { asyncDepth := 0 } none).answers startCodeOperations) ∧
      ((start {} { asyncDepth := 0 } none).answers startCodeOperations).toOption.map
        (fun x => (x.2.session.phase, x.2.held.length)) = some (.ready, 1) := by
  have hsets : ∀ u ∈ stereoSets, u.Plain := by decide
  have hfeeds : ∀ f ∈ stereoFeeds, f.Fits fourBytes := by decide +kernel
  have hrecord : stereoRecord.Proper := ⟨by decide, by decide, by decide⟩
  refine ⟨?_, by decide +kernel⟩
  exact framings_agree {} { asyncDepth := 0 } none .ample (by decide) {} [] (by decide) (by decide)
    hrecord [] (by decide) (by decide) (by decide) hsets hfeeds (by decide +kernel)

end Client

end Multiview
