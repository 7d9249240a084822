import Multiview.Proofs.Engine.Stages
import Multiview.Proofs.Session.Delivery

/-!
What a session shows of itself, apart from the surfaces in which it does so. Two sessions of the same
prospect whose engines are not busy fare alike: they take the same turns, pair views of the same pictures
and answer the same, although they may do so in other surfaces of their pools.
-/

namespace Multiview

open Outcome

/-! ## Outlines -/

/-- The view and the picture that a surface holds, without the surface itself. -/
def SurfaceInfo.outline (x : SurfaceInfo) : SurfaceInfo :=
  { index := 0, mid := ⟨0⟩, info := { viewId := x.info.viewId }, frameMeta := x.frameMeta }

def ViewQueues.outline (q : ViewQueues) : ViewQueues :=
  ⟨q.base.map SurfaceInfo.outline, q.extra.map SurfaceInfo.outline⟩

def PairingStep.outline : PairingStep → PairingStep
  | pair base extra => pair base.outline extra.outline
  | drop surface => drop surface.outline

def Picture.outline (p : Picture) : Picture :=
  { p with base := p.base.outline, extra := p.extra.outline }

theorem fits_outline {b e : SurfaceInfo} : Fits b.outline e.outline ↔ Fits b e := Iff.rfl

namespace ViewQueues

theorem outline_push (x : SurfaceInfo) (q : ViewQueues) :
    (q.push x).outline = q.outline.push x.outline := by
  have hview : x.outline.info.viewId = x.info.viewId := rfl
  unfold push
  rw [hview]
  split
  · simp only [outline, List.map_append, List.map_singleton]
  · simp only [outline, List.map_append, List.map_singleton]

/-- Which surfaces are taken off the queues depends on their outlines. -/
theorem step?_outline (q : ViewQueues) :
    q.outline.step? = q.step?.map (Prod.map PairingStep.outline outline) := by
  obtain ⟨base, extra⟩ := q
  cases base with
  | nil => rfl
  | cons b base =>
    cases extra with
    | nil => rfl
    | cons e extra =>
      have hb : b.outline.order = b.order := rfl
      have he : e.outline.order = e.order := rfl
      simp only [outline, List.map_cons, step?, hb, he]
      split
      · rfl
      · split <;> rfl

theorem resolveWithin_outline (least fuel : Nat) (q : ViewQueues) :
    resolveWithin least fuel q.outline =
      Prod.map (List.map PairingStep.outline) outline (resolveWithin least fuel q) := by
  induction fuel generalizing q with
  | zero => rfl
  | succ fuel ih =>
    have hbase : q.outline.base.length = q.base.length := List.length_map _
    have hextra : q.outline.extra.length = q.extra.length := List.length_map _
    unfold resolveWithin
    rw [hbase, hextra, step?_outline]
    split
    · cases q.step? with
      | none => rfl
      | some x =>
        obtain ⟨step, q'⟩ := x
        have hrest := ih q'
        simp only [Option.map_some, Prod.map]
        rw [hrest]
        rfl
    · rfl

theorem resolve_outline (least : Nat) (q : ViewQueues) :
    q.outline.resolve least = Prod.map (List.map PairingStep.outline) outline (q.resolve least) := by
  have hlength : q.outline.length = q.length :=
    congrArg₂ (· + ·) (List.length_map _) (List.length_map _)
  unfold resolve
  rw [hlength]
  exact resolveWithin_outline least q.length q

end ViewQueues

/-! ## Prospects -/

/-- What a session shows of itself and of its engine, apart from surfaces and from a busy device. -/
structure Prospect where
  phase : Phase
  config : SessionConfig
  control : Control
  buffer : Bytes
  current : Option PoolId
  queues : ViewQueues
  pictures : List PictureId
  table : List Picture
  /-- Views and pictures of all surfaces that came back, in order. -/
  returned : List (UInt16 × FrameMeta)
  stage : Stage

namespace Session

variable {s t u : Session SimulatedEngine} {pool : PoolId}

/-- View, frame order and timestamp of all surfaces that the engine has returned, in order. -/
def returned (s : Session SimulatedEngine) : List (UInt16 × FrameMeta) :=
  s.journal.reverse.filterMap fun event => event.output?.map DecodedSurface.outline

def prospect (s : Session SimulatedEngine) : Prospect where
  phase := s.phase
  config := s.config
  control := s.control
  buffer := s.buffer
  current := s.current
  queues := s.queues.outline
  pictures := s.pictures
  table := s.pools.pictures.map Picture.outline
  returned := s.returned
  stage := s.engine.stage

theorem returned_record (call : EngineCall) (s : Session SimulatedEngine) :
    (s.record call).returned =
      s.returned ++ ((Event.engine call).output?.map DecodedSurface.outline).toList := by
  have hj : (s.record call).journal = .engine call :: s.journal := rfl
  unfold returned
  rw [hj, List.reverse_cons, List.filterMap_append, List.filterMap_cons]
  cases (Event.engine call).output?.map DecodedSurface.outline <;> rfl

/-- A call of the engine changes its stage, and a surface may come back. -/
theorem prospect_record (e : SimulatedEngine) (r : Resources) (call : EngineCall)
    (s : Session SimulatedEngine) :
    (record call ({ s with engine := e }.withResources r)).prospect =
      { s.prospect with
        stage := e.stage
        returned := s.returned ++ ((Event.engine call).output?.map DecodedSurface.outline).toList } := by
  unfold prospect
  rw [returned_record]
  rfl

theorem prospect_submitted (input : Option Bitstream) (work : WorkSurface)
    (a : DecodeAnswer SimulatedEngine) (s : Session SimulatedEngine) :
    (s.submitted input work a).prospect =
      { s.prospect with
        stage := a.engine.stage
        returned := s.returned ++ (a.output.map DecodedSurface.outline).toList } :=
  prospect_record a.engine a.resources _ s

theorem prospect_received (found : Nat) (d : DecodedSurface) (s : Session SimulatedEngine) :
    (s.received pool found d).prospect =
      { s.prospect with
        queues := s.prospect.queues.push ⟨0, ⟨0⟩, { viewId := d.outline.1 }, d.outline.2⟩ } := by
  have hpush := ViewQueues.outline_push ⟨found, d.mid, d.info, d.frameMeta⟩ s.queues
  unfold prospect received
  dsimp only
  rw [hpush]
  rfl

/-- Waiting for the engine changes nothing that is to be seen. -/
theorem Waited.prospect (h : Waited s t) : t.prospect = s.prospect := by
  induction h with
  | refl => rfl
  | @ask s t point _ ih =>
    have hask := prospect_record (s.engine.sync point s.pools.resources).2.1
      (s.engine.sync point s.pools.resources).2.2
      (.sync point s.config.syncTimeoutMs (s.engine.sync point s.pools.resources).1) s
    rw [SimulatedEngine.sync_stage] at hask
    have hnone : s.returned ++ [] = s.returned := List.append_nil _
    exact ih.trans (hask.trans (congrArg (fun r => { s.prospect with returned := r }) hnone))

theorem prospect_joined (pool : PoolId) (b e : SurfaceInfo) (s : Session SimulatedEngine) :
    (s.joined pool b e).prospect =
      { s.prospect with
        pictures := s.prospect.pictures ++ [s.prospect.table.length]
        table := s.prospect.table ++ [⟨b.outline, e.outline, pool, 1⟩] } := by
  have htable : (s.joined pool b e).pools.pictures = s.pools.pictures ++ [⟨b, e, pool, 1⟩] := rfl
  have hpictures : (s.joined pool b e).pictures = s.pictures ++ [s.pools.pictures.length] := rfl
  unfold prospect
  rw [htable, hpictures, List.map_append, List.length_map]
  rfl

theorem prospect_releaseQueued (s : Session SimulatedEngine) :
    s.releaseQueued.prospect = { s.prospect with queues := {} } := by
  cases hc : s.current with
  | none =>
    have hnone : s.releaseQueued = { s with queues := {} } := by
      unfold releaseQueued
      rw [hc]
    rw [hnone]
    rfl
  | some pool =>
    obtain ⟨pools, hp, -⟩ := steady_foldl_release pool s.queues.toList s.pools
    rw [releaseQueued_of_current hc, hp]
    rfl

/-! ## Pairing -/

/-- Surfaces that do not fit are not joined. -/
theorem perform_unfit {b e : SurfaceInfo} (h : ¬ Fits b e) (pool : PoolId)
    (s : Session SimulatedEngine) : s.perform pool (.pair b e) = .error .mismatch := by
  have hjoin : ∀ p : Pools, p.join pool b e = .error .mismatch := fun p => if_neg h
  unfold perform
  dsimp only
  rw [hjoin]
  rfl

theorem perform_outline (h : t.prospect = s.prospect) {step step' : PairingStep}
    (hstep : step'.outline = step.outline) :
    Agree (fun x y => y.prospect = x.prospect) (s.perform pool step) (t.perform pool step') := by
  cases step with
  | drop x =>
    cases step' with
    | drop x' => exact .ok h
    | pair b e => cases hstep
  | pair b e =>
    cases step' with
    | drop x => cases hstep
    | pair b' e' =>
      obtain ⟨hb, he⟩ := PairingStep.pair.inj hstep
      have hfits : Fits b' e' ↔ Fits b e := by
        rw [← fits_outline, hb, he, fits_outline]
      by_cases hf : Fits b e
      · obtain ⟨u, hu, hw⟩ := perform_pair hf pool s
        obtain ⟨v, hv, hw'⟩ := perform_pair (hfits.mpr hf) pool t
        rw [hu, hv]
        refine .ok ?_
        rw [hw.prospect, hw'.prospect, prospect_joined, prospect_joined, h, hb, he]
      · rw [perform_unfit hf, perform_unfit fun hf' => hf (hfits.mp hf')]
        exact .error _

theorem performs_outline {steps steps' : List PairingStep} (h : t.prospect = s.prospect)
    (hsteps : steps'.map PairingStep.outline = steps.map PairingStep.outline) :
    Agree (fun x y => y.prospect = x.prospect)
      (steps.foldlM (fun s step => s.perform pool step) s)
      (steps'.foldlM (fun s step => s.perform pool step) t) := by
  induction steps generalizing s t steps' with
  | nil =>
    rw [List.map_eq_nil_iff.mp hsteps]
    exact .ok h
  | cons step steps ih =>
    cases steps' with
    | nil => cases hsteps
    | cons step' steps' =>
      obtain ⟨hstep, hrest⟩ := List.cons.inj hsteps
      rw [List.foldlM_cons, List.foldlM_cons]
      exact (perform_outline h hstep).bind fun x y hxy => ih hxy hrest

theorem pairQueued_outline (h : t.prospect = s.prospect) (least : Nat) :
    Agree (fun x y => y.prospect = x.prospect) (s.pairQueued least) (t.pairQueued least) := by
  have hcurrent : t.current = s.current := congrArg Prospect.current h
  have hqueues : t.queues.outline = s.queues.outline := congrArg Prospect.queues h
  have hresolve := congrArg (ViewQueues.resolve least) hqueues
  rw [ViewQueues.resolve_outline, ViewQueues.resolve_outline] at hresolve
  obtain ⟨hsteps, hleft⟩ := Prod.mk.inj hresolve
  cases hc : s.current with
  | none =>
    unfold pairQueued
    rw [hcurrent, hc]
    exact .ok h
  | some pool =>
    rw [pairQueued_of_current hc, pairQueued_of_current (hcurrent.trans hc)]
    refine performs_outline ?_ hsteps
    exact congrArg₂ (fun (p : Prospect) queues => { p with queues := queues }) h hleft

theorem flushQueues_outline (h : t.prospect = s.prospect) (engineEmpty : Bool) :
    Agree (fun x y => y.prospect = x.prospect) (s.flushQueues engineEmpty)
      (t.flushQueues engineEmpty) := by
  have hphase : t.phase = s.phase := congrArg Prospect.phase h
  unfold flushQueues
  rw [hphase]
  split
  · exact .pure h
  · refine (pairQueued_outline h 1).bind fun x y hxy => ?_
    split
    · refine .pure ?_
      rw [prospect_releaseQueued, prospect_releaseQueued, hxy]
    · exact .pure hxy

/-! ## Turns -/

/-- The same answer of both sessions, and the same prospect after it. Resets are of no account. -/
def SameTurn (n : Nat) (x y : Bool × Session SimulatedEngine × Submission) : Prop :=
  y.1 = x.1 ∧ y.2.1.prospect = x.2.1.prospect ∧ y.2.2 = { x.2.2 with resets := n }

section Turns

variable {p : Submission} {n : Nat}

theorem handleAnswer_none (h : t.prospect = s.prospect) (status : EngineStatus) (p : Submission)
    (n : Nat) : Agree (SameTurn n) (s.handleAnswer pool status none p)
      (t.handleAnswer pool status none { p with resets := n }) := by
  unfold handleAnswer
  split
  · exact .ok ⟨rfl, congrArg (fun p : Prospect => { p with phase := .opened }) h, rfl⟩
  · exact .ok ⟨rfl, h, rfl⟩

/-- Surfaces of the same outline go into the queues and are paired with the same partners. -/
theorem handleAnswer_some (h : t.prospect = s.prospect) {status : EngineStatus}
    (hstatus : status ≠ .incompatibleParams) {d d' : DecodedSurface} (hd : d'.outline = d.outline)
    {found found' : Nat} (hf : (s.pools.pool pool).find? d.mid = some found)
    (hf' : (t.pools.pool pool).find? d'.mid = some found') (p : Submission) (n : Nat) :
    Agree (SameTurn n) (s.handleAnswer pool status (some d) p)
      (t.handleAnswer pool status (some d') { p with resets := n }) := by
  have hmark := Pools.markQueued_eq pool d s.pools
  have hmark' := Pools.markQueued_eq pool d' t.pools
  rw [hf] at hmark
  rw [hf'] at hmark'
  have hconfig : t.config = s.config := congrArg Prospect.config h
  have hreceived : (t.received pool found' d').prospect = (s.received pool found d).prospect := by
    rw [prospect_received, prospect_received, h, hd]
  unfold handleAnswer
  rw [if_neg hstatus, if_neg hstatus]
  dsimp only
  rw [hmark, hmark']
  change Agree _ (pairQueued _ (s.received pool found d) >>= _)
    (pairQueued _ (t.received pool found' d') >>= _)
  dsimp only
  rw [hconfig]
  exact (pairQueued_outline hreceived _).bind fun x y hxy => .pure ⟨rfl, hxy, rfl⟩

/-- Sessions of the same prospect that both have a free surface take the same turn. -/
theorem turn_outline (h : t.prospect = s.prospect) (hs : s.engine.Calm) (ht : t.engine.Calm)
    {index index' : Nat} {work work' : WorkSurface}
    (hf : s.pools.freeSurface? pool = some (index, work))
    (hf' : t.pools.freeSurface? pool = some (index', work')) (p : Submission) (n : Nat) :
    Agree (SameTurn n) (turn pool s p) (turn pool t { p with resets := n }) := by
  have hstage : t.engine.stage = s.engine.stage := congrArg Prospect.stage h
  have hreturned : t.returned = s.returned := congrArg Prospect.returned h
  unfold turn
  rw [hf, hf']
  dsimp only
  generalize (if p.flushing then none else some p.stream) = input
  have hdecode := ((SimulatedEngine.decode_stage hstage hs.busy ht.busy input work work'
    s.pools.resources t.pools.resources).and (SimulatedEngine.decode_calm hs input work _)
    (fun _ _ => trivial)).and (SimulatedEngine.decode_sound input work _ _).yields
    (SimulatedEngine.decode_sound input work' _ _).yields
  have hask : Agree (fun x y => ∃ a b, x = (a.status, a.output, a.stream, s.submitted input work a) ∧
      y = (b.status, b.output, b.stream, t.submitted input work' b) ∧
      SimulatedEngine.Twofold a b ∧ a.status ≠ .deviceBusy ∧
      (s.engine.Idled s.pools.resources a ∨ input.isSome = true ∧
        ∃ d, SimulatedEngine.Sliced work s.engine s.pools.resources a d) ∧
      (t.engine.Idled t.pools.resources b ∨ input.isSome = true ∧
        ∃ d, SimulatedEngine.Sliced work' t.engine t.pools.resources b d))
      (s.askDecode input work) (t.askDecode input work') := by
    refine hdecode.bind ?_
    rintro a b ⟨⟨hab, ⟨hbusy, -⟩, -⟩, ha, hb⟩
    exact .pure ⟨a, b, rfl, rfl, hab, hbusy, ha, hb⟩
  refine hask.bind ?_
  rintro _ _ ⟨a, b, rfl, rfl, hab, hbusy, ha, hb⟩
  have hsubmitted : (t.submitted input work' b).prospect = (s.submitted input work a).prospect := by
    rw [prospect_submitted, prospect_submitted, h, hreturned, hab.stage, hab.output]
  dsimp only
  rw [hab.status, hab.stream, if_neg hbusy, if_neg hbusy]
  rcases ha with ha | ⟨-, d, ha⟩
  · have hnone : b.output = none := by
      have hout := hab.output
      rw [ha.output] at hout
      exact Option.map_eq_none_iff.mp hout
    rw [ha.output, hnone]
    exact handleAnswer_none hsubmitted a.status _ n
  · rcases hb with hb | ⟨-, d', hb⟩
    · have hout := hab.output
      rw [ha.output, hb.output] at hout
      cases hout
    · have hout := hab.output
      rw [ha.output, hb.output] at hout
      have hd : d'.outline = d.outline := Option.some.inj hout
      obtain ⟨found, hfound⟩ := Pools.exists_find? hf
      obtain ⟨found', hfound'⟩ := Pools.exists_find? hf'
      rw [← ha.mid] at hfound
      rw [← hb.mid] at hfound'
      have hstatus : a.status ≠ .incompatibleParams := by
        rw [ha.status]
        exact nofun
      rw [ha.output, hb.output]
      exact handleAnswer_some hsubmitted hstatus hd hfound hfound' _ n

theorem handleAnswer_calm (hs : s.engine.Calm) (status : EngineStatus)
    (output : Option DecodedSurface) (p : Submission) :
    Yields (s.handleAnswer pool status output p) fun x =>
      x.2.1.engine.Calm ∧ x.2.2.stuck = p.stuck := by
  refine (handleAnswer_tidied status output s p).mono ?_
  rintro ⟨_, t, _⟩ ⟨ht | rfl, _, _, _, rfl⟩
  · obtain ⟨_, _, _, he⟩ := ht.engine
    exact ⟨⟨he ▸ hs.busy, he ▸ hs.injected⟩, rfl⟩
  · exact ⟨hs, rfl⟩

/-- An engine that does not find its device busy stays so, and it is not given up. -/
theorem turn_calm (hs : s.engine.Calm) (p : Submission) :
    Yields (turn pool s p) fun x => x.2.1.engine.Calm ∧ x.2.2.stuck = p.stuck := by
  unfold turn
  split
  · exact .ok ⟨hs, rfl⟩
  · rename_i index work _
    generalize (if p.flushing then none else some p.stream) = input
    have hask : Yields (s.askDecode input work) fun x => x.1 ≠ .deviceBusy ∧ x.2.2.2.engine.Calm :=
      (SimulatedEngine.decode_calm hs input work _).bind fun a ha => .pure ha
    refine hask.bind ?_
    rintro ⟨status, output, stream, u⟩ ⟨hbusy, hu⟩
    dsimp only at hbusy hu ⊢
    rw [if_neg hbusy]
    exact handleAnswer_calm hu status output _

end Turns

/-! ## Submissions -/

section Submissions

theorem submitWithin_calm (fuel : Nat) (hs : s.engine.Calm) (p : Submission) :
    Yields (submitWithin pool fuel s p) fun x => x.2.stuck = p.stuck := by
  have hkept : Yields (submitWithin pool fuel s p) fun x =>
      x.1.engine.Calm ∧ x.2.stuck = p.stuck := by
    refine submitWithin_keeps (q := fun t r => t.engine.Calm ∧ r.stuck = p.stuck) ?_ fuel ⟨hs, rfl⟩
    rintro t r ⟨ht, hr⟩
    exact (turn_calm ht r).mono fun x hx => ⟨hx.1, hx.2.trans hr⟩
  exact hkept.mono fun x hx => hx.2

/-- As long as no surface is missing, both sessions take the same turns to the same end. -/
theorem submitWithin_outline (fuel : Nat) (h : t.prospect = s.prospect) (hs : s.engine.Calm)
    (ht : t.engine.Calm) {p : Submission} {n : Nat} {x : Session SimulatedEngine × Submission}
    (hx : submitWithin pool fuel s p = .ok x) (hfree : x.2.starved = false)
    (hfree' : ∀ y, submitWithin pool fuel t { p with resets := n } = .ok y → y.2.starved = false) :
    Returns (submitWithin pool fuel t { p with resets := n }) fun y =>
      y.1.prospect = x.1.prospect ∧ y.2 = { x.2 with resets := n } := by
  induction fuel generalizing s t p with
  | zero => cases hx
  | succ fuel ih =>
    unfold submitWithin at hx hfree' ⊢
    cases hf : s.pools.freeSurface? pool with
    | none =>
      rw [turn_starved hf] at hx
      cases hx
      cases hfree
    | some free =>
      cases hf' : t.pools.freeSurface? pool with
      | none =>
        rw [turn_starved hf'] at hfree'
        cases hfree' _ rfl
      | some free' =>
        have hturns := (turn_outline h hs ht hf hf' p n).and (turn_calm hs p) (turn_calm ht _)
        cases hturn : turn pool s p with
        | error fault =>
          rw [hturn] at hx
          cases hx
        | ok a =>
          obtain ⟨goOn, u, q⟩ := a
          rw [hturn] at hx hturns
          obtain ⟨⟨more, v, q'⟩, hturn', ⟨hmore, huv, hq⟩, ⟨hu, -⟩, hv, -⟩ := hturns.returns
          dsimp only at hmore huv hq hu hv
          subst hq
          rw [hturn', hmore] at hfree'
          rw [hturn', hmore]
          cases goOn with
          | false =>
            cases hx
            exact .ok ⟨huv, rfl⟩
          | true => exact ih huv hu hv hx hfree'

theorem conclude_outline (h : t.prospect = s.prospect) (buffer : Bytes) (p : Submission) (n : Nat) :
    Agree (fun x y => y.1 = x.1 ∧ y.2.prospect = x.2.prospect) (s.conclude buffer p)
      (t.conclude buffer { p with resets := n }) := by
  have hcontrol : t.control = s.control := congrArg Prospect.control h
  have hedit : ∀ b : Bytes, ({ t with buffer := b } : Session SimulatedEngine).prospect =
      ({ s with buffer := b } : Session SimulatedEngine).prospect :=
    fun b => congrArg (fun p : Prospect => { p with buffer := b }) h
  have hstatus : ∀ {u v : Session SimulatedEngine}, v.prospect = u.prospect →
      v.statusAfter { p with resets := n } = u.statusAfter p := by
    intro u v huv
    have hpictures : v.pictures = u.pictures := congrArg Prospect.pictures huv
    have hcontrol : v.control = u.control := congrArg Prospect.control huv
    unfold statusAfter
    rw [hpictures, hcontrol]
  unfold conclude
  dsimp only
  split
  · exact .pure ⟨rfl, hedit buffer⟩
  · have hleftover : leftover buffer { p with resets := n } = leftover buffer p := rfl
    rw [hleftover]
    refine (leftover_sound buffer p).yields.agree.bind ?_
    rintro _ rest ⟨rfl, -⟩
    have hrest := hedit rest
    split
    · exact .pure ⟨rfl, hrest⟩
    · by_cases hd : s.control.isDraining = true
      · rw [if_pos hd, if_pos (hcontrol ▸ hd)]
        refine (flushQueues_outline hrest _).bind fun u v huv => .pure ⟨?_, huv⟩
        exact congrArg Except.ok (hstatus huv)
      · rw [if_neg hd, if_neg (hcontrol ▸ hd)]
        exact .pure ⟨congrArg Except.ok (hstatus hrest), hrest⟩

end Submissions

end Session

end Multiview
