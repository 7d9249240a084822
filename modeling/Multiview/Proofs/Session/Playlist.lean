import Multiview.Proofs.Session.Backlog
import Multiview.Proofs.Session.Draining
import Multiview.Proofs.Session.Faultless

/-!
Runs of operations that can be borne, and playback as one of them. Playing packets is a run in which each
operation depends on the answer to the one before. It ends since a drain brings no new surfaces: every
picture that is shown was waiting, or two surfaces of the queues were.
-/

namespace Multiview

open Outcome Session

/-! ## Drains bring nothing new -/

/-- Each step takes a surface off the queues. -/
theorem ViewQueues.length_resolveWithin (least fuel : Nat) (q : ViewQueues) :
    (resolveWithin least fuel q).1.length + (resolveWithin least fuel q).2.length ≤ q.length := by
  induction fuel generalizing q with
  | zero => exact Nat.le_of_eq (Nat.zero_add _)
  | succ fuel ih =>
    unfold resolveWithin
    split
    · split
      · exact Nat.le_of_eq (Nat.zero_add _)
      · rename_i step q' hstep
        have hshort := length_step? hstep
        have hrest := ih q'
        dsimp only
        rw [List.length_cons]
        omega
    · exact Nat.le_of_eq (Nat.zero_add _)

namespace Session

variable {s t : Session SimulatedEngine} {pool : PoolId}

/-- Surfaces in the queues, and pictures that wait for the client. -/
def pending (s : Session SimulatedEngine) : Nat := s.queues.length + s.pictures.length

/-- A step of the pairing makes one picture at most. -/
theorem pictures_perform (step : PairingStep) (s : Session SimulatedEngine) :
    Yields (s.perform pool step) fun t =>
      t.queues = s.queues ∧ t.pictures.length ≤ s.pictures.length + 1 := by
  have hsync : ∀ (surface : SurfaceInfo) (u : Session SimulatedEngine),
      (u.syncSurface pool surface).pictures = u.pictures := by
    intro surface u
    rw [(waited_syncSurface pool surface u).eq_withEngine]
    rfl
  cases step with
  | drop surface => exact .ok ⟨rfl, Nat.le_succ _⟩
  | pair base extra =>
    have hqueues := (tended_syncSurface pool extra (s.syncSurface pool base)).2.trans
      (tended_syncSurface pool base s).2
    have hpictures := (hsync extra (s.syncSurface pool base)).trans (hsync base s)
    unfold perform
    dsimp only
    generalize syncSurface pool extra (syncSurface pool base s) = t at hqueues hpictures ⊢
    refine Yields.bind (p := fun _ => True) (fun _ _ => trivial) fun x _ => .pure ⟨hqueues, ?_⟩
    dsimp only
    rw [hpictures, List.length_append, List.length_singleton]

theorem pictures_performs (steps : List PairingStep) (s : Session SimulatedEngine) :
    Yields (steps.foldlM (fun s step => s.perform pool step) s) fun t =>
      t.queues = s.queues ∧ t.pictures.length ≤ s.pictures.length + steps.length := by
  induction steps generalizing s with
  | nil => exact .ok ⟨rfl, Nat.le_refl _⟩
  | cons step steps ih =>
    rw [List.foldlM_cons]
    refine (pictures_perform step s).bind fun t ⟨hqueues, hpictures⟩ => (ih t).mono ?_
    rintro u ⟨hqueues', hpictures'⟩
    refine ⟨hqueues'.trans hqueues, ?_⟩
    rw [List.length_cons]
    omega

/-- Two surfaces become one picture, or one is given up. -/
theorem pending_pairQueued (least : Nat) (s : Session SimulatedEngine) :
    Yields (s.pairQueued least) fun t => t.pending ≤ s.pending := by
  unfold pairQueued
  split
  · exact .ok (Nat.le_refl _)
  · have hresolved := ViewQueues.length_resolveWithin least s.queues.length s.queues
    refine (pictures_performs _ _).mono ?_
    rintro t ⟨hqueues, hpictures⟩
    unfold pending
    rw [hqueues]
    dsimp only [ViewQueues.resolve] at hpictures ⊢
    omega

theorem pending_flushQueues (engineEmpty : Bool) (s : Session SimulatedEngine) :
    Yields (s.flushQueues engineEmpty) fun t => t.pending ≤ s.pending := by
  unfold flushQueues
  split
  · exact .pure (Nat.le_refl _)
  · refine (pending_pairQueued 1 s).bind fun t ht => ?_
    split
    · refine .pure (Nat.le_trans ?_ ht)
      unfold pending
      rw [releaseQueued_rest]
      exact Nat.add_le_add_right (Nat.zero_le _) _
    · exact .pure ht

theorem pending_conclude (buffer : Bytes) (p : Submission) (s : Session SimulatedEngine) :
    Yields (s.conclude buffer p) fun x => x.2.pending ≤ s.pending := by
  unfold conclude
  split
  · exact .pure (Nat.le_refl _)
  · refine (leftover_sound buffer p).yields.bind fun rest _ => ?_
    dsimp only
    split
    · exact .pure (Nat.le_refl _)
    · split
      · exact (pending_flushQueues _ _).bind fun t ht => .pure ht
      · exact .pure (Nat.le_refl _)

theorem pending_decodeBuffer (dts pts : Option UInt64) (s : Session SimulatedEngine) :
    Yields (s.decodeBuffer true dts pts) fun x => x.2.pending ≤ s.pending := by
  unfold decodeBuffer submit
  dsimp only
  split
  · exact .pure (Nat.le_refl _)
  · refine Yields.bind (p := fun x : Except DecodeError Submission × Session SimulatedEngine =>
      x.2.pending = s.pending) ?_ ?_
    · refine (submitWithin_flushing _ rfl (Or.inl rfl)).bind ?_
      rintro ⟨t, p⟩ ⟨ht, -, -⟩
      have hsame := ht.untouched
      refine .pure ?_
      unfold pending
      rw [hsame.queues, hsame.pictures]
    · rintro ⟨answer, t⟩ ht
      cases answer with
      | error e => exact .pure (Nat.le_of_eq ht)
      | ok p => exact (pending_conclude s.buffer p t).mono fun x hx => ht ▸ hx

/-- A drain asks the engine for nothing that it does not have. -/
theorem pending_drain (s : Session SimulatedEngine) :
    Yields s.drain fun x => x.2.pending ≤ s.pending := by
  unfold drain decode
  generalize hu : ({ s with control := s.control.union .drain } : Session SimulatedEngine) = u
  have hsame : u.pending = s.pending := by
    rw [← hu]
    rfl
  rw [← hsame]
  have hadvance : ∀ b : Bytes, Yields (advance true none none { u with buffer := b }) fun x =>
      x.2.pending ≤ u.pending := by
    intro b
    unfold advance arrange
    split
    · exact pending_decodeBuffer none none { u with buffer := b }
    · exact .pure (Nat.le_refl _)
  have htry : Yields (tryDecode none none none u) fun x => x.2.pending ≤ u.pending := by
    unfold tryDecode
    refine (accept_sound none u).yields.bind fun answer ha => ?_
    cases answer with
    | error e => exact .pure (Nat.le_refl _)
    | ok t =>
      obtain ⟨b, rfl⟩ := ha t rfl
      exact hadvance b
  refine Yields.bind htry ?_
  rintro ⟨answer, t⟩ ht
  cases answer with
  | ok status => exact .pure ht
  | error e =>
    dsimp only
    split
    · exact .pure ht
    · exact .pure ht

/-- Pictures that are shown do not wait any more. -/
theorem pending_playReady (n : Nat) (s : Session SimulatedEngine) :
    (s.playReady n).2.pending + (s.playReady n).1.length = s.pending := by
  induction n generalizing s with
  | zero => rfl
  | succ n ih =>
    unfold playReady
    split
    · rfl
    · rename_i p t hget
      obtain ⟨id, rest, hpics, -, rfl⟩ := getPicture_eq_some hget
      have hclear : (clearPicture p { s with pictures := rest }).2.pending + 1 = s.pending := by
        unfold clearPicture pending
        rw [hpics, List.length_cons]
        split <;> rfl
      have hrest := ih (clearPicture p { s with pictures := rest }).2
      dsimp only
      rw [List.length_cons]
      omega

/-- Pictures are taken until there is none. -/
theorem getPicture_playReady {n : Nat} (h : s.pictures.length ≤ n) :
    (s.playReady n).2.getPicture = none := by
  induction n generalizing s with
  | zero =>
    have hnone : s.pictures = [] := List.length_eq_zero_iff.mp (Nat.le_zero.mp h)
    unfold playReady getPicture
    rw [hnone]
  | succ n ih =>
    unfold playReady
    split
    · rename_i hget
      exact hget
    · rename_i p t hget
      obtain ⟨id, rest, hpics, hid, rfl⟩ := getPicture_eq_some hget
      refine ih ?_
      unfold clearPicture
      rw [hid]
      rw [hpics, List.length_cons] at h
      exact Nat.le_of_succ_le_succ h

end Session

/-! ## Playback as operations -/

namespace Client

section Operations

variable {σ : Type} [DecodeEngine σ] [Preparable σ]

/-- An operation, and then those that depend on its answer. -/
def followed (op : Operation) (next : Answer → Client σ → List Operation) (c : Client σ) :
    List Operation :=
  op :: match c.perform op with
    | .error _ => []
    | .ok (a, c) => next a c

/-- The operations in which a packet is played, and those to come unless it fails. -/
def packetOperations (number : Nat) (next : Client σ → List Operation) :
    Nat → Bytes → Client σ → List Operation
  | 0, _, c => next c
  | attempts + 1, data, c =>
    c.followed (.decode (some data) none (some (UInt64.ofNat number))) fun
      | .status status, c =>
        if status.error then []
        else if status.flushed then c.followed .flush fun _ c => next c
        else c.followed .play fun _ c =>
          if status.needInput || !status.pictureReady then next c
          else packetOperations number next attempts [] c
      | _, _ => []

def packetsOperations (next : Client σ → List Operation) :
    Nat → List Bytes → Client σ → List Operation
  | _, [], c => next c
  | number, packet :: rest, c =>
    c.packetOperations number (fun c => packetsOperations next (number + 1) rest c) 16 packet

/-- The operations in which a session is drained, and those to come unless it fails. -/
def drainOperations (next : Client σ → List Operation) : Nat → Client σ → List Operation
  | 0, _ => []
  | fuel + 1, c =>
    c.followed .drain fun
      | .status status, c =>
        if status.error then []
        else c.followed .play fun
          | .pictures shown, c => if shown.isEmpty then next c else drainOperations next fuel c
          | _, _ => []
      | _, _ => []

/-- The operations in which packets are played once from start to end. -/
def playOperations (packets : List Bytes) (c : Client σ) : List Operation :=
  c.packetsOperations (fun c => drainOperations (fun _ => [.control ⟨0⟩])
    (DecodeEngine.patience c.session.engine + c.session.queues.length + c.session.pictures.length + 2)
    c) 0 packets

end Operations

variable {c : Client SimulatedEngine}

/-- Each operation can be borne by the client that those before it leave. -/
def Bears : List Operation → Client SimulatedEngine → Prop
  | [], _ => True
  | op :: ops, c => c.Bearable op ∧ ∀ a c', c.perform op = .ok (a, c') → Bears ops c'

theorem Reachable.run_moderate (h : c.Reachable) (hm : c.session.engine.Moderate)
    {ops : List Operation} (hb : Bears ops c) :
    Returns (c.run ops) fun c' => c'.Reachable ∧ c'.session.engine.Moderate := by
  induction ops generalizing c with
  | nil => exact .ok ⟨h, hm⟩
  | cons op ops ih =>
    obtain ⟨hop, hrest⟩ := hb
    obtain ⟨⟨a, c'⟩, hperform, hm'⟩ := h.perform_moderate hm hop
    have hrun : c.run (op :: ops) = ((·.2) <$> c.perform op) >>= fun c => c.run ops := rfl
    rw [hrun, hperform]
    exact ih (h.perform hperform) hm' (hrest a c' hperform)

theorem bears_followed {op : Operation} {next : Answer → Client SimulatedEngine → List Operation}
    (h : Bears (c.followed op next) c) :
    c.Bearable op ∧ ∀ a c', c.perform op = .ok (a, c') → Bears (next a c') c' := by
  obtain ⟨hop, hrest⟩ := h
  refine ⟨hop, fun a c' hperform => ?_⟩
  have hnext := hrest a c' hperform
  rwa [hperform] at hnext

theorem run_followed {op : Operation} {next : Answer → Client SimulatedEngine → List Operation}
    {a : Answer} {c' : Client SimulatedEngine} (h : c.perform op = .ok (a, c')) :
    c.run (c.followed op next) = c'.run (next a c') := by
  have hrun : ∀ ops, c.run (op :: ops) = ((·.2) <$> c.perform op) >>= fun c => c.run ops :=
    fun _ => rfl
  unfold followed
  rw [hrun, h]
  rfl

/-- Operations that are still to come after a part of playback. -/
def remaining (next : Client SimulatedEngine → List Operation) (p : Playback SimulatedEngine)
    (c : Client SimulatedEngine) : List Operation :=
  match p.result with
  | .ok _ => next c
  | .error _ => []

/-- A part of playback was carried out as the operations `ops`, up to those that are to come. -/
structure Played (ops : List Operation) (next : Client SimulatedEngine → List Operation)
    (c : Client SimulatedEngine) (p : Playback SimulatedEngine) : Prop where
  reachable : Reachable { c with session := p.session }
  moderate : p.session.engine.Moderate
  bears : Bears (remaining next p { c with session := p.session }) { c with session := p.session }
  run : c.run ops =
    run (remaining next p { c with session := p.session }) { c with session := p.session }

variable {next : Client SimulatedEngine → List Operation} {p : Playback SimulatedEngine}

/-- Nothing was done yet. -/
theorem played_nothing (h : c.Reachable) (hm : c.session.engine.Moderate)
    (hp : p.session = c.session) (hr : p.result = .ok ()) (hb : Bears (next c) c) :
    Played (next c) next c p := by
  have hsame : ({ c with session := p.session } : Client SimulatedEngine) = c := by
    rw [hp]
  refine ⟨?_, hp ▸ hm, ?_, ?_⟩
  · rw [hsame]
    exact h
  · rw [hsame, remaining, hr]
    exact hb
  · rw [hsame, remaining, hr]

/-- An operation is carried out, and then what follows it. -/
theorem Played.after {op : Operation} {follow : Answer → Client SimulatedEngine → List Operation}
    {a : Answer} {s : Session SimulatedEngine}
    (hop : c.perform op = .ok (a, { c with session := s }))
    (h : Played (follow a { c with session := s }) next { c with session := s } p) :
    Played (c.followed op follow) next c p :=
  ⟨h.reachable, h.moderate, h.bears, (run_followed hop).trans h.run⟩

/-- One part of playback after another. -/
theorem Played.trans {ops : List Operation} {next' : Client SimulatedEngine → List Operation}
    {q : Playback SimulatedEngine} (h : Played ops next c p) (hr : p.result = .ok ())
    (h' : Played (next { c with session := p.session }) next' { c with session := p.session } q) :
    Played ops next' c q := by
  have hrun := h.run
  rw [remaining, hr] at hrun
  exact ⟨h'.reachable, h'.moderate, h'.bears, hrun.trans h'.run⟩

/-- Nothing is to come after a failure. -/
theorem Played.failed {ops : List Operation} {e : PlaybackError} (h : Played ops next c p)
    (hr : p.result = .error e) (next' : Client SimulatedEngine → List Operation) :
    Played ops next' c p := by
  have hrun := h.run
  rw [remaining, hr] at hrun
  refine ⟨h.reachable, h.moderate, ?_, ?_⟩
  · rw [remaining, hr]
    trivial
  · rw [remaining, hr]
    exact hrun

/-- Playback that failed ends there. -/
theorem played_failed {s : Session SimulatedEngine} {e : PlaybackError}
    (h : Reachable { c with session := s }) (hm : s.engine.Moderate) :
    Played [] next { c with session := s } { p with session := s, result := .error e } :=
  ⟨h, hm, trivial, rfl⟩

theorem showReady_eq (p : Playback SimulatedEngine) :
    p.showReady = (!p.session.playAllReady.1.isEmpty,
      { p with shown := p.shown ++ p.session.playAllReady.1, session := p.session.playAllReady.2 }) :=
  rfl

/-- Showing the pictures that are ready is an operation of its own. -/
theorem Reachable.perform_play (h : c.Reachable) (hm : c.session.engine.Moderate) :
    c.perform .play = .ok (.pictures c.session.playAllReady.1,
        { c with session := c.session.playAllReady.2 }) ∧
      Reachable { c with session := c.session.playAllReady.2 } ∧
      c.session.playAllReady.2.engine.Moderate := by
  have hplay : c.perform .play = .ok (.pictures c.session.playAllReady.1,
      { c with session := c.session.playAllReady.2 }) := rfl
  have hsame := (playReady_steps c.session.pictures.length c.session [] []).engine
  exact ⟨hplay, h.perform hplay, hsame ▸ hm⟩

/-- The data of a packet goes in, and pictures are shown as soon as they are ready. -/
theorem playPacket_played (number attempts : Nat) (data : Bytes) (h : c.Reachable)
    (hm : c.session.engine.Moderate) (hp : p.session = c.session) (hr : p.result = .ok ())
    (hb : Bears (c.packetOperations number next attempts data) c) :
    Returns (p.playPacket number attempts data)
      (Played (c.packetOperations number next attempts data) next c) := by
  induction attempts generalizing data c p with
  | zero => exact .ok (played_nothing h hm hp hr hb)
  | succ attempts ih =>
    unfold packetOperations at hb ⊢
    obtain ⟨hop, hrest⟩ := bears_followed hb
    obtain ⟨⟨a, c'⟩, hperform, hm'⟩ := h.perform_moderate hm hop
    obtain ⟨status, t, hdecode, rfl, rfl⟩ := perform_decode_eq hperform
    have hreach := h.perform hperform
    have hnext := hrest _ _ hperform
    dsimp only at hm' hnext
    unfold Playback.playPacket
    rw [hp, hdecode]
    simp only [bind, Except.bind]
    refine Returns.mono (p := Played _ next { c with session := t }) ?_ fun q hq => hq.after hperform
    dsimp only
    split
    · exact .ok (played_failed hreach hm')
    · rename_i herror
      rw [if_neg herror] at hnext
      split
      · rename_i hflushed
        rw [if_pos hflushed] at hnext
        have hflush : Client.perform .flush { c with session := t } =
            .ok (.done, { c with session := t.flush }) := rfl
        have hbears := (bears_followed hnext).2 _ _ hflush
        have hdone := played_nothing (p := { p with session := t.flush }) (hreach.perform hflush)
          ((primed_flush t).moderate hm') rfl hr hbears
        exact .ok (hdone.after hflush)
      · rename_i hflushed
        rw [if_neg hflushed] at hnext
        obtain ⟨hplay, hshown, hm''⟩ := hreach.perform_play hm'
        have hbears := (bears_followed hnext).2 _ _ hplay
        rw [showReady_eq]
        refine Returns.mono (p := Played _ next { c with session := t.playAllReady.2 }) ?_
          fun q hq => hq.after hplay
        dsimp only
        split
        · rename_i hdone
          rw [if_pos hdone] at hbears
          exact .ok (played_nothing hshown hm'' rfl hr hbears)
        · rename_i hdone
          rw [if_neg hdone] at hbears
          exact ih [] hshown hm'' rfl hr hbears

theorem playPackets_played (number : Nat) (packets : List Bytes) (h : c.Reachable)
    (hm : c.session.engine.Moderate) (hp : p.session = c.session) (hr : p.result = .ok ())
    (hb : Bears (c.packetsOperations next number packets) c) :
    Returns (p.playPackets number packets)
      (Played (c.packetsOperations next number packets) next c) := by
  induction packets generalizing number c p with
  | nil => exact .ok (played_nothing h hm hp hr hb)
  | cons packet rest ih =>
    obtain ⟨q, hq, hplayed⟩ := playPacket_played number 16 packet h hm hp hr hb
    have hbears := hplayed.bears
    unfold Playback.playPackets
    rw [hq]
    simp only [bind, Except.bind]
    cases hresult : q.result with
    | error e => exact .ok (hplayed.failed hresult next)
    | ok u =>
      rw [remaining, hresult] at hbears
      refine (ih (number + 1) hplayed.reachable hplayed.moderate rfl hresult hbears).mono ?_
      exact fun r hr' => hplayed.trans hresult hr'

/-- Each drain but the last shows a picture, for which less is pending. -/
theorem drainWithin_played (fuel : Nat) (h : c.Reachable) (hm : c.session.engine.Moderate)
    (hp : p.session = c.session) (hr : p.result = .ok ()) (hfuel : c.session.pending < fuel)
    (hb : Bears (c.drainOperations next fuel) c) :
    Returns (p.drainWithin fuel) (Played (c.drainOperations next fuel) next c) := by
  induction fuel generalizing c p with
  | zero => cases hfuel
  | succ fuel ih =>
    unfold drainOperations at hb ⊢
    obtain ⟨hop, hrest⟩ := bears_followed hb
    obtain ⟨⟨a, c'⟩, hperform, hm'⟩ := h.perform_moderate hm hop
    obtain ⟨status, t, hdrain, rfl, rfl⟩ := perform_drain_eq hperform
    have hpending : t.pending ≤ c.session.pending := pending_drain c.session _ hdrain
    have hreach := h.perform hperform
    have hnext := hrest _ _ hperform
    dsimp only at hm' hnext
    unfold Playback.drainWithin
    rw [hp, hdrain]
    simp only [bind, Except.bind]
    refine Returns.mono (p := Played _ next { c with session := t }) ?_ fun q hq => hq.after hperform
    dsimp only
    split
    · exact .ok (played_failed hreach hm')
    · rename_i herror
      rw [if_neg herror] at hnext
      obtain ⟨hplay, hshown, hm''⟩ := hreach.perform_play hm'
      have hbears := (bears_followed hnext).2 _ _ hplay
      have hless : t.playAllReady.2.pending + t.playAllReady.1.length = t.pending :=
        pending_playReady _ t
      rw [showReady_eq]
      refine Returns.mono (p := Played _ next { c with session := t.playAllReady.2 }) ?_
        fun q hq => hq.after hplay
      dsimp only at hbears ⊢
      cases hpics : t.playAllReady.1 with
      | nil =>
        rw [hpics] at hbears
        exact .ok (played_nothing hshown hm'' rfl hr hbears)
      | cons picture pictures =>
        rw [hpics] at hbears hless
        rw [List.length_cons] at hless
        exact ih hshown hm'' rfl hr (by dsimp only; omega) hbears

/-- Playback comes to an end, and it is a run of its operations. -/
theorem Reachable.play_returns (h : c.Reachable) (hm : c.session.engine.Moderate)
    {packets : List Bytes} (hb : Bears (c.playOperations packets) c) :
    Returns (c.session.play packets) fun p =>
      c.run (c.playOperations packets) = .ok { c with session := p.session } := by
  obtain ⟨p, hp, hplayed⟩ :=
    playPackets_played (p := { session := c.session }) 0 packets h hm rfl rfl hb
  have hbears := hplayed.bears
  have hrun := hplayed.run
  unfold Session.play
  rw [hp]
  simp only [bind, Except.bind]
  cases hresult : p.result with
  | error e =>
    rw [remaining, hresult] at hrun
    exact .ok hrun
  | ok u =>
    rw [remaining, hresult] at hbears
    obtain ⟨q, hq, hdrained⟩ := drainWithin_played _ hplayed.reachable hplayed.moderate rfl hresult
      (by unfold Session.pending; omega) hbears
    have hdrain : p.drainAll = .ok q := hq
    have hend := (hplayed.trans hresult hdrained).run
    rw [hdrain]
    dsimp only
    cases hlast : q.result with
    | error e =>
      rw [remaining, hlast] at hend
      exact .ok hend
    | ok u =>
      rw [remaining, hlast] at hend
      exact .ok hend

/-! ## Light input -/

/-- With the units in the buffer, of which each takes a byte, there is a frame order left. -/
def isLightInput (data : Option Bytes) (s : Session SimulatedEngine) : Bool :=
  match s.accept data with
  | .ok (.ok t) =>
    match t.arrange data.isNone with
    | .ok (.ok true, u) => u.engine.nextOrder.toNat + u.buffer.length + 1 < UInt32.size
    | _ => true
  | _ => true

/-- An operation that can be borne, as far as this is seen from its input. -/
def isLight (op : Operation) (c : Client SimulatedEngine) : Bool :=
  match op with
  | .open hints options =>
    match headerOf hints with
    | .ok (some header) =>
      isLightInput (some header.data) { c.session.restart options with lengthSize := some .two }
    | .ok none => isLightInput (some hints.extradata) (c.session.restart options)
    | .error _ => true
  | .decode data _ _ => isLightInput data c.session
  | .drain => isLightInput none (c.session.setControl (c.session.control.union .drain))
  | .prepare (.busy .always) => false
  | _ => true

def areLight : List Operation → Client SimulatedEngine → Bool
  | [], _ => true
  | op :: ops, c => c.isLight op && match c.perform op with
    | .error _ => true
    | .ok (_, c) => areLight ops c

section Light

variable {op : Operation} {s : Session SimulatedEngine} {data : Option Bytes}

theorem Decodes.light (h : c.Decodes op s data) (hl : c.isLight op) : isLightInput data s := by
  cases h with
  | decode dts pts => exact hl
  | drain => exact hl
  | header options h => simpa only [isLight, h] using hl
  | extradata options h => simpa only [isLight, h] using hl

theorem Decodes.moderate (h : c.Decodes op s data) (hm : c.session.engine.Moderate) :
    s.engine.Moderate := by
  cases h with
  | decode dts pts => exact hm
  | drain => exact hm
  | header options h => exact (primed_restart options c.session).moderate hm
  | extradata options h => exact (primed_restart options c.session).moderate hm

/-- There are as many frame orders as bytes of the stream left, and one more. -/
structure LightTurn (s : Session SimulatedEngine) (p : Submission) : Prop where
  moderate : s.engine.Moderate
  consumed : p.stream.offset ≤ p.stream.data.length
  short : p.stream.data.length < UInt32.size
  orders : s.engine.nextOrder.toNat + (p.stream.data.length - p.stream.offset) + 1 < UInt32.size

/-- Frame orders are taken for bytes, in every turn. -/
theorem Turns.light {pool : PoolId} {p : Submission} (h : c.Turns op pool s p)
    (hc : Session.Accounted c.references c.session) (hm : c.session.engine.Moderate)
    (hl : c.isLight op) : LightTurn s p := by
  induction h with
  | @first s t u data dts pts hd ht hu hcur =>
    have hsm := hd.moderate hm
    have hlight := hd.light hl
    unfold isLightInput at hlight
    simp only [ht, hu] at hlight
    have hbytes : u.engine.nextOrder.toNat + u.buffer.length + 1 < UInt32.size :=
      of_decide_eq_true hlight
    obtain ⟨b, rfl⟩ := (accept_sound data s).result ht t rfl
    have hum := (arrange_moderate (s := { s with buffer := b }) hsm data.isNone).sound.result hu
    exact ⟨hum, Nat.zero_le _, by dsimp only; omega, hbytes⟩
  | @next s t p q h ht ih =>
    have hrun := (h.accounted hc).2
    have hword : UInt32.size < wordLimit := by decide
    have hturn := (turn_proceeds hrun ih.moderate ih.consumed (Nat.lt_trans ih.short hword)
      fun _ _ _ _ _ => by have hleft := ih.orders; omega).sound.result ht
    obtain ⟨offset, hoffset, hstream⟩ := hturn.consumed
    have hless := hturn.orders
    have hleft := ih.orders
    dsimp only at hstream hless
    refine ⟨hturn.moderate, ?_, ?_, by omega⟩
    · rw [hstream]
      exact hoffset
    · rw [hstream]
      exact ih.short

theorem Reachable.bearable (h : c.Reachable) (hm : c.session.engine.Moderate)
    (hl : c.isLight op) : c.Bearable op where
  patient := by
    rintro period rfl rfl
    cases hl
  addressable := fun _ _ _ hturn =>
    Nat.lt_trans (hturn.light h.accounted hm hl).short (by decide)
  orders := by
    rintro pool s p hturn ⟨-, u, us, -, -, hmany⟩
    have hnumbered : s.Numbered := hturn.numbered h.accounted h.numbered
    have hleft := (hturn.light h.accounted hm hl).orders
    rw [← hnumbered] at hmany
    omega

theorem Reachable.bears (h : c.Reachable) (hm : c.session.engine.Moderate) {ops : List Operation}
    (hl : c.areLight ops) : Bears ops c := by
  induction ops generalizing c with
  | nil => exact trivial
  | cons op ops ih =>
    obtain ⟨hop, hrest⟩ := Bool.and_eq_true_iff.mp hl
    have hb := h.bearable hm hop
    refine ⟨hb, fun a c' hperform => ih (h.perform hperform) ?_ ?_⟩
    · exact (h.perform_moderate hm hb).sound.result hperform
    · rwa [hperform] at hrest

end Light

/-! ## Runs and playback -/

theorem start_reachable (traits : SimulatedTraits) (config : SessionConfig)
    (device : Option TextureDevice) (memory : HostMemory) :
    (start traits config device memory).Reachable :=
  ⟨traits, config, device, memory, [], rfl⟩

/-- Operations that can be borne all come to their answers, and so does playback of any packets after
them. Pictures are taken until none is left, and surfaces are paired until a partner is missing. -/
theorem run_faultless {traits : SimulatedTraits} (hw : traits.display.width.toNat ≤ 16384)
    (hh : traits.display.height.toNat ≤ 16384) (config : SessionConfig)
    (device : Option TextureDevice) (memory : HostMemory) {ops : List Operation}
    (hb : Bears ops (start traits config device memory)) :
    (∀ least, 1 ≤ least → ∀ q : ViewQueues,
      min (q.resolve least).2.base.length (q.resolve least).2.extra.length < least) ∧
    Returns ((start traits config device memory).run ops) fun c =>
      c.session.playAllReady.2.getPicture = none ∧
      ∀ packets, Bears (c.playOperations packets) c →
        Returns (c.session.play packets) fun p =>
          c.run (c.playOperations packets) = .ok { c with session := p.session } := by
  refine ⟨fun least hl q => ViewQueues.resolve_short hl q, ?_⟩
  have hm : (start traits config device memory).session.engine.Moderate := ⟨nofun, hw, hh⟩
  refine (Reachable.run_moderate (start_reachable traits config device memory) hm hb).mono ?_
  rintro c ⟨hreach, hmoderate⟩
  exact ⟨getPicture_playReady (Nat.le_refl _), fun packets => hreach.play_returns hmoderate⟩

/-- A stream is played after the same stream was decoded on a device that was busy. -/
theorem busyRun_faultless : ∃ c : Client SimulatedEngine,
    (start {} { asyncDepth := 0 } none).run (.prepare (.busy (.calls 1)) :: stereoOperations) =
      .ok c ∧
    ∃ p, c.session.play [stereoUnits, stereoUnits] = .ok p ∧
      c.run (c.playOperations [stereoUnits, stereoUnits]) = .ok { c with session := p.session } := by
  have hstart := start_reachable {} { asyncDepth := 0 } none .ample
  have hm : (start {} { asyncDepth := 0 } none).session.engine.Moderate := ⟨nofun, by decide, by decide⟩
  have hlight : (start {} { asyncDepth := 0 } none).areLight
      (.prepare (.busy (.calls 1)) :: stereoOperations) := by decide +kernel
  have hb := hstart.bears hm hlight
  have hplay : ((start {} { asyncDepth := 0 } none).run
      (.prepare (.busy (.calls 1)) :: stereoOperations)).toOption.map
        (fun c => c.areLight (c.playOperations [stereoUnits, stereoUnits])) = some true := by
    decide +kernel
  obtain ⟨-, c, hrun, -, hc⟩ := run_faultless (by decide) (by decide) { asyncDepth := 0 } none .ample
    hb
  obtain ⟨hreach, hmoderate⟩ := (hstart.run_moderate hm hb).sound.result hrun
  rw [hrun] at hplay
  exact ⟨c, hrun, hc _ (hreach.bears hmoderate (Option.some.inj hplay))⟩

end Client

end Multiview
