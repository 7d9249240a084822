import Multiview.Proofs.Session.Orders

/-!
All pictures of a run are right. Each is made of the two views of one frame order, which the engine
returned since the last flush, start or opening; and the client gets pictures in rising frame order,
whatever happens in between.
-/

namespace Multiview

open Outcome Relation Session

namespace Session

section Keeps

variable {s t : Session SimulatedEngine}

/-- The views of every picture fit. -/
def AllFit (s : Session SimulatedEngine) : Prop := ∀ p ∈ s.pools.made, Fits p.base p.extra

theorem AllFit.fits (h : AllFit s) {p : Picture} (hp : p ∈ s.pools.pictures) :
    Fits p.base p.extra := by
  have hmade : { p with references := 0 } ∈ s.pools.made :=
    List.mem_map_of_mem (f := fun p : Picture => { p with references := 0 }) hp
  have hfits := h _ hmade
  exact hfits

theorem Course.allFit (h : Course s t) (hs : AllFit s) : AllFit t := by
  refine h.keeps ?_ ?_ ?_ hs
  · intro u v hmove hu
    obtain ⟨_, hc, _⟩ := hmove.continued
    rw [AllFit, hc.made]
    exact hu
  · intro u v hstart hu
    obtain ⟨_, hc, _⟩ := hstart.continued
    rw [AllFit, hc.made]
    exact hu
  · intro u v hpair hu p hp
    obtain ⟨q, hmade, _, _, hfits, _, _⟩ := hpair.made
    rw [hmade] at hp
    rcases List.mem_append.mp hp with hp | hp
    · exact hu p hp
    · cases List.mem_singleton.mp hp
      exact hfits

/-- Once the queues are empty, only what the engine returns from then on can become a picture. -/
theorem Restarted.drawn (h : Restarted s t) (hs : Fresh s) :
    ∃ new, t.journal = new ++ s.journal ∧ Drawn s.pools.made.length new t := by
  obtain ⟨u, hmoves, hq, hcourse⟩ := h
  obtain ⟨hmade, new, hj, _⟩ := (Moves.preparing hmoves).drawn hs
  have hu : Drawn s.pools.made.length new u := by
    refine ⟨fun x hx => ?_, fun p hp => ?_⟩
    · rw [hq] at hx
      cases hx
    · rw [hmade, List.drop_length] at hp
      cases hp
  obtain ⟨new', hj', ht⟩ := hcourse.drawn_since hu
  exact ⟨new' ++ new, by rw [hj', hj, List.append_assoc], ht⟩

end Keeps

/-- The pictures after the first `n` are made of surfaces that the engine returned in these events. -/
def MadeFrom (n : Nat) (events : List Event) (s : Session SimulatedEngine) : Prop :=
  ∀ id p, n ≤ id → s.pools.pictures[id]? = some p → Returned events p.base ∧ Returned events p.extra

theorem Drawn.madeFrom {n : Nat} {events : List Event} {s : Session SimulatedEngine}
    (h : Drawn n events s) : MadeFrom n events s := by
  intro id p hid hp
  refine h.made { p with references := 0 } (List.mem_iff_getElem?.mpr ⟨id - n, ?_⟩)
  rw [List.getElem?_drop, Nat.add_sub_cancel' hid, Pools.made, List.getElem?_map, hp]
  rfl

/-- The pictures have frame orders that rise. -/
def InOrder (taken : List PictureId) (s : Session SimulatedEngine) : Prop :=
  ∃ orders : List UInt32,
    taken.map (fun id => (s.pools.pictures[id]?).map (·.frameOrder)) = orders.map some ∧
      orders.Pairwise (· < ·)

theorem Rising.inOrder {taken : List PictureId} {s : Session SimulatedEngine}
    (h : Rising taken s) : InOrder taken s := by
  generalize hf : (fun id : PictureId =>
    ((s.pools.pictures[id]?).map Picture.frameOrder).getD 0) = f
  have hrank : ∀ id, rank s.pools.made id = (f id).toNat := by
    intro id
    rw [← hf, rank, Pools.made, List.getElem?_map]
    dsimp only
    cases s.pools.pictures[id]? <;> rfl
  refine ⟨taken.map f, ?_, ?_⟩
  · rw [List.map_map]
    refine List.map_congr_left fun id hid => ?_
    have hlt := h.present id (List.mem_append_left _ hid)
    rw [Pools.made, List.length_map] at hlt
    rw [← hf]
    simp [hlt]
  · have hsub : (taken.map (rank s.pools.made)).Sublist (s.orders taken) := by
      unfold orders
      rw [List.map_append, List.append_assoc]
      exact List.sublist_append_left _ _
    have hpair := List.pairwise_map.mp (h.rising.sublist hsub)
    refine List.pairwise_map.mpr (hpair.imp fun {a b} hab => ?_)
    rw [hrank, hrank] at hab
    exact UInt32.lt_iff_toNat_lt.mpr hab

end Session

namespace Custody

/-- The client neither queues surfaces nor makes pictures, and calls nobody but the device. -/
theorem Step.continued {c c' : Custody} (h : Step c c') :
    ∃ new, Continued new c.session c'.session ∧ ∀ e ∈ new, e.starts = false := by
  have hmade := made_of_step h
  cases h with
  | take hp => exact Continued.of_grew (.refl _) (fun _ hx => hx) hmade
  | share hid => exact Continued.of_grew (.refl _) (fun _ hx => hx) hmade
  | @drop refs taken s id =>
    exact Continued.of_grew (Pools.grew_drop id s.pools) (fun _ hx => hx) hmade
  | mark hid hp => exact Continued.of_grew (.refl _) (fun _ hx => hx) hmade
  | reorder hr => exact Continued.of_grew (.refl _) (fun _ hx => hx) hmade

theorem Runs.fresh {c c' : Custody} (h : Runs c c') (hc : c.session.Fresh) : c'.session.Fresh := by
  refine h.keeps (q := fun c => c.session.Fresh) (fun _ _ _ _ => Session.Course.fresh) ?_ hc
  intro c c' hstep hc
  obtain ⟨new, hcont, hnew⟩ := hstep.continued
  refine fresh_of_queued ?_
  rw [recent_append hcont.journal hnew]
  exact (hcont.drawn hc).queued

/-- An operation makes pictures of what the engine returned since its last start. -/
theorem Operated.drawn {c c' : Custody} (h : Operated c c') (hc : c.session.Fresh) :
    Drawn c.session.pools.made.length c'.session.recent c'.session := by
  have hfresh : c'.session.Fresh := Runs.fresh (.single h) hc
  cases h with
  | session hs => exact hs.drawn hc
  | client hs =>
    have hmade : c'.session.pools.made = c.session.pools.made := by
      clear hfresh
      induction hs with
      | refl => rfl
      | tail _ hstep ih => exact (made_of_step hstep).trans ih
    rw [← hmade]
    exact hfresh

theorem Runs.allFit {c c' : Custody} (h : Runs c c') (hc : c.session.AllFit) :
    c'.session.AllFit := by
  refine h.keeps (q := fun c => c.session.AllFit) (fun _ _ _ _ => Session.Course.allFit) ?_ hc
  intro c c' hstep hc
  rw [AllFit, made_of_step hstep]
  exact hc

theorem Runs.drawn {c c' : Custody} {n : Nat} {events : List Event} (h : Runs c c')
    (hc : Drawn n events c.session) :
    ∃ new, c'.session.journal = new ++ c.session.journal ∧ Drawn n (new ++ events) c'.session := by
  have hgo : ∀ (s t u : Session SimulatedEngine) (new : List Event), t.journal = new ++ s.journal →
      (∃ new', u.journal = new' ++ t.journal ∧ Drawn n (new' ++ (new ++ events)) u) →
      ∃ new, u.journal = new ++ s.journal ∧ Drawn n (new ++ events) u := by
    rintro s t u new hj ⟨new', hj', hd⟩
    exact ⟨new' ++ new, by rw [hj', hj, List.append_assoc], by rwa [List.append_assoc]⟩
  refine h.keeps (q := fun x => ∃ new, x.session.journal = new ++ c.session.journal ∧
    Drawn n (new ++ events) x.session) ?_ ?_ ⟨[], rfl, hc⟩
  · rintro _ _ s t hcourse ⟨new, hj, hd⟩
    exact hgo _ s t new hj (hcourse.drawn_since hd)
  · rintro x y hstep ⟨new, hj, hd⟩
    obtain ⟨new', hcont, _⟩ := hstep.continued
    exact hgo _ x.session y.session new hj ⟨new', hcont.journal, hcont.drawn hd⟩

end Custody

namespace Client

variable {c : Client SimulatedEngine}

/-- A flush and a successful opening leave nothing of the time before. -/
theorem perform_restarted (op : Operation) (hs : InStep c.session) :
    Sound (c.perform op) fun x =>
      (op = .flush ∨ ∃ hints, x.1 = .opened (.ok ()) hints) → Restarted c.session x.2.session := by
  have hother : ∀ (a : Answer) (t : Session SimulatedEngine), op ≠ .flush →
      (∀ hints, a ≠ .opened (.ok ()) hints) →
      (op = .flush ∨ ∃ hints, a = .opened (.ok ()) hints) → Restarted c.session t := by
    rintro a t hop ha (h | ⟨hints, h⟩)
    · exact absurd h hop
    · exact absurd h (ha hints)
  cases op with
  | «open» hints options =>
    refine (Session.open_sound hints options hs).bind fun x hx => .pure ?_
    rintro (h | ⟨hints', h⟩)
    · cases h
    · exact hx.2 (Answer.opened.inj h).1
  | flush =>
    exact .pure fun _ => ⟨_, Session.moves_flush hs, queues_flush c.session, Moves.course .refl⟩
  | decode data dts pts =>
    exact (Session.decode_sound data dts pts hs).bind fun x _ => .pure (hother _ _ nofun nofun)
  | drain => exact (Session.drain_sound hs).bind fun x _ => .pure (hother _ _ nofun nofun)
  | close => exact .pure (hother _ _ nofun nofun)
  | control flags => exact .pure (hother _ _ nofun nofun)
  | prepare p => exact .pure (hother _ _ nofun nofun)
  | take n => exact .pure (hother _ _ nofun nofun)
  | play => exact .pure (hother _ _ nofun nofun)
  | clear place =>
    refine .pure (hother _ _ nofun fun hints h => ?_)
    unfold clear at h
    split at h <;> cases h
  | drop place => exact .pure (hother _ _ nofun nofun)
  | share place => exact .pure (hother _ _ nofun nofun)
  | mark place =>
    refine .pure (hother _ _ nofun fun hints h => ?_)
    unfold mark at h
    split at h <;> cases h
  | view place => exact .pure (hother _ _ nofun nofun)
  | dropShared place => exact .pure (hother _ _ nofun nofun)

theorem start_custody (traits : SimulatedTraits) (config : SessionConfig)
    (device : Option TextureDevice) (memory : HostMemory) :
    (start traits config device memory).session.Fresh ∧ (start traits config device memory).session.AllFit ∧
      (start traits config device memory).session.Rising [] :=
  ⟨fresh_of_queued nofun, nofun, ⟨nofun, .nil, nofun⟩⟩

/-- Every picture of every run is made of the two views of one frame order, both from its own pool. An
operation makes pictures of what the engine returned since its last start, and what was returned
before a flush or a successful opening never becomes a picture afterwards. The client is answered
pictures in rising frame order. -/
theorem pictures_match (traits : SimulatedTraits) (config : SessionConfig)
    (device : Option TextureDevice) (memory : HostMemory) (ops : List Operation) :
    (start traits config device memory).run ops ≠ .error .mismatch ∧
      ∀ as c, (start traits config device memory).answers ops = .ok (as, c) →
        (∀ p ∈ c.session.pools.pictures, Fits p.base p.extra ∧
          c.session.pools.Places p.pool p.base ∧ c.session.pools.Places p.pool p.extra) ∧
        InOrder (as.flatMap Answer.taken) c.session ∧
        (∀ op a c', c.perform op = .ok (a, c') →
          MadeFrom c.session.pools.pictures.length c'.session.recent c'.session) ∧
        ∀ op a c' ops' c'', c.perform op = .ok (a, c') →
          (op = .flush ∨ ∃ hints, a = .opened (.ok ()) hints) → c'.run ops' = .ok c'' →
            ∃ new, c''.session.journal = new ++ c.session.journal ∧
              MadeFrom c.session.pools.pictures.length new c''.session := by
  have hstart := start_accounted traits config device memory
  obtain ⟨hfresh, hfit, hrising⟩ := start_custody traits config device memory
  refine ⟨(run_sound ops [] hstart).ne_mismatch, fun as c has => ?_⟩
  have hruns := (answers_sound ops [] hstart).result has
  generalize as.flatMap Answer.taken = taken at hruns ⊢
  have hacc := hruns.accounted hstart
  have hc : c.session.Fresh := hruns.fresh hfresh
  have hlen : c.session.pools.made.length = c.session.pools.pictures.length := List.length_map _
  refine ⟨fun p hp => ?_, (hruns.rising hrising).inOrder, ?_, ?_⟩
  · exact ⟨AllFit.fits (hruns.allFit hfit) hp, hacc.paired p hp⟩
  · intro op a c' hop
    rw [← hlen]
    exact (((perform_sound op taken hacc.inStep).result hop).drawn hc).madeFrom
  · intro op a c' ops' c'' hop hclear hrun
    have hre := (perform_restarted op hacc.inStep).result hop hclear
    obtain ⟨new, hj, hd⟩ := hre.drawn hc
    have hop' : Custody.Runs (c.custody taken) (c'.custody (taken ++ a.taken)) :=
      .single ((perform_sound op taken hacc.inStep).result hop)
    obtain ⟨taken', hruns'⟩ := (run_sound ops' _ (hop'.accounted hacc)).result hrun
    obtain ⟨new', hj', hd'⟩ := hruns'.drawn hd
    refine ⟨new' ++ new, ?_, ?_⟩
    · have hj' : c''.session.journal = new' ++ c'.session.journal := hj'
      rw [hj', hj, List.append_assoc]
    · rw [← hlen]
      exact hd'.madeFrom

/-- The client gets the one picture that there is, with both views. -/
theorem stereoOperations_match : ∃ as, ∃ c : Client SimulatedEngine,
    (start {} { asyncDepth := 0 } none).answers stereoOperations = .ok (as, c) ∧
      as.flatMap Answer.taken = [0] ∧ InOrder [0] c.session ∧
      ∃ p ∈ c.session.pools.pictures, Fits p.base p.extra := by
  have hrun : ((start {} { asyncDepth := 0 } none).answers stereoOperations).toOption.map
      (fun x => (x.1.flatMap Answer.taken, x.2.session.pools.pictures.length)) =
        some ([0], 1) := by decide +kernel
  cases has : (start {} { asyncDepth := 0 } none).answers stereoOperations with
  | error fault =>
    rw [has] at hrun
    cases hrun
  | ok x =>
    obtain ⟨as, c⟩ := x
    rw [has] at hrun
    obtain ⟨htaken, hlen⟩ := Prod.mk.inj (Option.some.inj hrun)
    obtain ⟨hfits, horder, _⟩ :=
      (pictures_match {} { asyncDepth := 0 } none .ample stereoOperations).2 as c has
    dsimp only at htaken hlen
    rw [htaken] at horder
    have hpos : 0 < c.session.pools.pictures.length := by
      rw [hlen]
      exact Nat.one_pos
    exact ⟨as, c, rfl, htaken, horder, _, List.getElem_mem hpos, (hfits _ (List.getElem_mem hpos)).1⟩

end Client

end Multiview
