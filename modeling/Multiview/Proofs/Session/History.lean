import Multiview.Proofs.Session.Runs

/-!
Where pictures come from. The journal only grows, and a picture is made of surfaces that the engine has
returned since the queues were last empty: since the last flush, and since the engine was last started.
-/

namespace Multiview

open Relation

/-- The engine returned the surface in one of these events. -/
def Returned (events : List Event) (x : SurfaceInfo) : Prop :=
  ∃ e ∈ events, ∃ d, e.output? = some d ∧ d.mid = x.mid ∧ d.info = x.info ∧
    d.frameMeta = x.frameMeta

theorem Returned.more {events : List Event} {x : SurfaceInfo} (h : Returned events x)
    (new : List Event) : Returned (new ++ events) x := by
  obtain ⟨e, he, hd⟩ := h
  exact ⟨e, List.mem_append_right new he, hd⟩

theorem Returned.new {new : List Event} {x : SurfaceInfo} (h : Returned new x)
    (events : List Event) : Returned (new ++ events) x := by
  obtain ⟨e, he, hd⟩ := h
  exact ⟨e, List.mem_append_left events he, hd⟩

namespace Pools

/-- All pictures ever made, whatever became of their references. -/
def made (s : Pools) : List Picture := s.pictures.map fun p => { p with references := 0 }

theorem made_set {id : PictureId} {x : Picture} {s : Pools} (h : s.pictures[id]? = some x)
    (n : Nat) :
    ({ s with pictures := s.pictures.set id { x with references := n } } : Pools).made = s.made := by
  unfold made
  apply List.ext_getElem?
  intro j
  rw [List.getElem?_map, List.getElem?_map, List.getElem?_set]
  by_cases hj : id = j
  · subst hj
    have hlt := (List.getElem?_eq_some_iff.mp h).1
    simp only [hlt, h, ↓reduceIte]
    rfl
  · simp only [hj, ↓reduceIte]

/-- A picture stays what it is when a reference is dropped. -/
theorem made_drop (id : PictureId) (s : Pools) : (s.drop id).made = s.made := by
  rcases drop_cases id s with ⟨hd, _⟩ | ⟨x, n, hx, hn, _⟩
  · rw [hd]
  · rw [← made_set hx n, made, (drop_spec hx hn).1]
    rfl

theorem made_share (id : PictureId) (s : Pools) : (s.share id).made = s.made := by
  unfold made share
  exact map_modify_of_eq (f := fun p : Picture => { p with references := p.references + 1 })
    (fun _ => rfl) s.pictures id

end Pools

namespace Session

/-- The journal went on with `new`. No picture was made, and what was queued has just been returned. -/
structure Continued (new : List Event) (s t : Session SimulatedEngine) : Prop where
  journal : t.journal = new ++ s.journal
  queued : ∀ x ∈ t.queues.toList, x ∈ s.queues.toList ∨ Returned new x
  made : t.pools.made = s.pools.made

/-- Queued surfaces, and the pictures made after the first `n` ones, come from the engine in these
events. -/
structure Drawn (n : Nat) (events : List Event) (s : Session SimulatedEngine) : Prop where
  queued : ∀ x ∈ s.queues.toList, Returned events x
  made : ∀ p ∈ s.pools.made.drop n, Returned events p.base ∧ Returned events p.extra

/-- What the engine did since it was last started. -/
def recent (s : Session SimulatedEngine) : List Event := s.journal.takeWhile (!·.starts)

section Keeps

variable {s t : Session SimulatedEngine} {n : Nat} {events : List Event}

/-- Calls to the device alone. -/
theorem Continued.of_grew (h : Platform.Grew s.pools.platform t.pools.platform)
    (hq : ∀ x ∈ t.queues.toList, x ∈ s.queues.toList) (hm : t.pools.made = s.pools.made) :
    ∃ new, Continued new s t ∧ ∀ e ∈ new, e.starts = false := by
  obtain ⟨calls, hc⟩ := h
  refine ⟨calls.map Event.device, ⟨hc, fun x hx => Or.inl (hq x hx), hm⟩, fun e he => ?_⟩
  obtain ⟨call, _, rfl⟩ := List.mem_map.mp he
  rfl

theorem Continued.of_call {call : EngineCall} (hj : t.journal = .engine call :: s.journal)
    (hq : t.queues = s.queues) (hm : t.pools.made = s.pools.made)
    (hs : (Event.engine call).starts = false) :
    ∃ new, Continued new s t ∧ ∀ e ∈ new, e.starts = false :=
  ⟨[.engine call], ⟨hj, fun _ hx => Or.inl (hq ▸ hx), hm⟩, by simp [hs]⟩

theorem Move.continued (h : Move s t) :
    ∃ new, Continued new s t ∧ ∀ e ∈ new, e.starts = false := by
  cases h with
  | aside h =>
    obtain ⟨new, hj, hnew⟩ := h.journal
    refine ⟨new, ⟨hj, fun x hx => Or.inl (h.queues ▸ hx), ?_⟩, fun e he => (hnew e he).2⟩
    unfold Pools.made
    rw [h.table]
  | submit input he hc hf ha => exact Continued.of_call rfl rfl rfl rfl
  | @receive pool index found work a d input he hc hf ha hm =>
    refine ⟨[_], ⟨rfl, fun x hx => ?_, rfl⟩, by simp [Event.starts]⟩
    rcases mem_toList_push hx with hx | rfl
    · exact Or.inl hx
    · exact Or.inr ⟨_, List.mem_singleton_self _, d, ha.output, rfl, rfl, rfl⟩
  | wait point => exact Continued.of_call rfl rfl rfl rfl
  | reset he => exact Continued.of_call rfl rfl rfl rfl
  | closeDecoder hp => exact Continued.of_call rfl rfl rfl rfl
  | @dropBase pool x base hc hq =>
    refine Continued.of_grew (.refl _) (fun y hy => ?_) rfl
    have hy : y ∈ base ++ s.queues.extra := hy
    rw [ViewQueues.toList, hq]
    exact List.mem_cons_of_mem x hy
  | @dropExtra pool x extra hc hq =>
    refine Continued.of_grew (.refl _) (fun y hy => ?_) rfl
    have hy : y ∈ s.queues.base ++ extra := hy
    rw [ViewQueues.toList, hq]
    exact List.perm_middle.symm.subset (List.mem_cons_of_mem x hy)
  | @dropPicture id rest hp =>
    exact Continued.of_grew (Pools.grew_drop id s.pools) (fun _ hx => hx) (Pools.made_drop id s.pools)
  | startPool hc he => exact Continued.of_grew (.refl _) (fun _ hx => hx) rfl
  | @leavePool pool hc hq he =>
    refine Continued.of_grew (Pools.grew_settle pool _) (fun _ hx => hx) ?_
    exact congrArg (List.map _) (Pools.pictures_settle pool _)
  | equip info a he hc hf hn hm hg =>
    obtain ⟨calls, hcalls⟩ := hg
    refine ⟨.engine (.useAllocator .ok) :: calls.map Event.device,
      ⟨?_, fun _ hx => Or.inl hx, rfl⟩, fun e hmem => ?_⟩
    · exact congrArg (Event.engine (.useAllocator .ok) :: ·) hcalls
    · rcases List.mem_cons.mp hmem with rfl | hmem
      · rfl
      · obtain ⟨call, _, rfl⟩ := List.mem_map.mp hmem
        rfl

theorem Continued.drawn {new : List Event} (h : Continued new s t) (hs : Drawn n events s) :
    Drawn n (new ++ events) t where
  queued := fun x hx => by
    rcases h.queued x hx with hx | hx
    · exact (hs.queued x hx).more new
    · exact hx.new events
  made := fun p hp => by
    rw [h.made] at hp
    exact ⟨(hs.made p hp).1.more new, (hs.made p hp).2.more new⟩

/-- A start finds the queues empty. -/
theorem Starts.continued (h : Starts s t) : ∃ new, Continued new s t ∧ t.queues = {} := by
  cases h with
  | start hc hf ha hq hi => exact ⟨[_], ⟨rfl, fun _ hx => Or.inl hx, rfl⟩, hq⟩

theorem Pairs.made (h : Pairs s t) : ∃ p, t.pools.made = s.pools.made ++ [p] ∧
    p.base ∈ s.queues.toList ∧ p.extra ∈ s.queues.toList ∧ Fits p.base p.extra ∧
    t.journal = s.journal ∧ ∀ x ∈ t.queues.toList, x ∈ s.queues.toList := by
  cases h with
  | @pair pool b e base extra hc hq hf =>
    have hperm : s.queues.toList.Perm ([b, e] ++ (base ++ extra)) := by
      rw [hq]
      exact toList_perm_pair b e base extra
    refine ⟨⟨b, e, pool, 0⟩, List.map_append, ?_, ?_, hf, rfl, fun x hx => ?_⟩
    · exact hperm.symm.subset (by simp)
    · exact hperm.symm.subset (by simp)
    · exact hperm.symm.subset (List.mem_append_right _ hx)

theorem Pairs.drawn (h : Pairs s t) (hs : Drawn n events s) : Drawn n events t := by
  obtain ⟨p, hmade, hb, he, _, _, hq⟩ := h.made
  refine ⟨fun x hx => hs.queued x (hq x hx), fun p' hp' => ?_⟩
  rw [hmade, List.drop_append] at hp'
  rcases List.mem_append.mp hp' with hp' | hp'
  · exact hs.made p' hp'
  · cases List.mem_singleton.mp (List.mem_of_mem_drop hp')
    exact ⟨hs.queued _ hb, hs.queued _ he⟩

/-- While the engine is fed it is not started again. -/
theorem Feeding.drawn (h : Feeding s t) (hs : Drawn n events s) :
    ∃ new, t.journal = new ++ s.journal ∧ (∀ e ∈ new, e.starts = false) ∧
      Drawn n (new ++ events) t := by
  induction h with
  | refl => exact ⟨[], rfl, fun _ he => absurd he List.not_mem_nil, hs⟩
  | tail _ hstep ih =>
    obtain ⟨new, hj, hnew, hd⟩ := ih
    rcases hstep with hmove | hpair
    · obtain ⟨new', hc, hnew'⟩ := hmove.continued
      refine ⟨new' ++ new, by rw [hc.journal, hj, List.append_assoc], fun e he => ?_, ?_⟩
      · rcases List.mem_append.mp he with he | he
        · exact hnew' e he
        · exact hnew e he
      · rw [List.append_assoc]
        exact hc.drawn hd
    · obtain ⟨_, _, _, _, _, hsame, _⟩ := hpair.made
      exact ⟨new, hsame.trans hj, hnew, hpair.drawn hd⟩

/-- No picture is made before the engine is fed. -/
theorem Preparing.drawn (h : Preparing s t) (hs : Drawn n events s) :
    t.pools.made = s.pools.made ∧ ∃ new, t.journal = new ++ s.journal ∧
      Drawn n (new ++ events) t := by
  induction h with
  | refl => exact ⟨rfl, [], rfl, hs⟩
  | @tail u v _ hstep ih =>
    obtain ⟨hmade, new, hj, hd⟩ := ih
    have hc : ∃ new, Continued new u v := by
      rcases hstep with hmove | hstart
      · obtain ⟨new', hc, _⟩ := hmove.continued
        exact ⟨new', hc⟩
      · obtain ⟨new', hc, _⟩ := hstart.continued
        exact ⟨new', hc⟩
    obtain ⟨new', hc⟩ := hc
    refine ⟨hc.made.trans hmade, new' ++ new, by rw [hc.journal, hj, List.append_assoc], ?_⟩
    rw [List.append_assoc]
    exact hc.drawn hd

/-- Everything queued has been returned since the engine was last started. -/
def Fresh (s : Session SimulatedEngine) : Prop := Drawn s.pools.made.length s.recent s

theorem fresh_of_queued (h : ∀ x ∈ s.queues.toList, Returned s.recent x) : Fresh s :=
  ⟨h, fun p hp => by
    rw [List.drop_length] at hp
    cases hp⟩

theorem recent_append {new : List Event} (hj : t.journal = new ++ s.journal)
    (hnew : ∀ e ∈ new, e.starts = false) : t.recent = new ++ s.recent := by
  have hall : ∀ e ∈ new, (!e.starts) = true := fun e he => by rw [hnew e he]; rfl
  unfold recent
  rw [hj, List.takeWhile_append_of_pos hall]

theorem Preparing.fresh (h : Preparing s t) (hs : Fresh s) : Fresh t := by
  refine h.keeps ?_ ?_ hs
  · intro u v hmove hu
    obtain ⟨new, hc, hnew⟩ := hmove.continued
    refine fresh_of_queued ?_
    rw [recent_append hc.journal hnew]
    exact (hc.drawn hu).queued
  · intro u v hstart hu
    obtain ⟨new, _, hq⟩ := hstart.continued
    refine fresh_of_queued fun x hx => ?_
    rw [hq] at hx
    cases hx

/-- The pictures that an operation makes are drawn from what the engine did since its last start. -/
theorem Course.drawn (h : Course s t) (hs : Fresh s) : Drawn s.pools.made.length t.recent t := by
  obtain ⟨u, hprep, hfeed⟩ := h
  have hmade := (hprep.drawn hs).1
  have hu : Drawn s.pools.made.length u.recent u := by
    rw [← hmade]
    exact hprep.fresh hs
  obtain ⟨new, hj, hnew, ht⟩ := hfeed.drawn hu
  rw [recent_append hj hnew]
  exact ht

theorem Course.fresh (h : Course s t) (hs : Fresh s) : Fresh t :=
  fresh_of_queued (h.drawn hs).queued

/-- Whatever happens, pictures are drawn from the events since. -/
theorem Course.drawn_since (h : Course s t) (hs : Drawn n events s) :
    ∃ new, t.journal = new ++ s.journal ∧ Drawn n (new ++ events) t := by
  obtain ⟨u, hprep, hfeed⟩ := h
  obtain ⟨_, new, hj, hu⟩ := hprep.drawn hs
  obtain ⟨new', hj', _, ht⟩ := hfeed.drawn hu
  refine ⟨new' ++ new, by rw [hj', hj, List.append_assoc], ?_⟩
  rw [List.append_assoc]
  exact ht

end Keeps

end Session

end Multiview
