import Multiview.Proofs.Session.History

/-!
Frame orders. Pictures taken, pictures waiting for the client, surfaces in the base queue and slices to
come make up one rising sequence; nothing that is dropped or started over disturbs it.
-/

namespace Multiview

open Relation

/-- Frame order of a picture, by its number. -/
def rank (made : List Picture) (id : PictureId) : Nat :=
  ((made[id]?).map (·.frameOrder.toNat)).getD 0

theorem rank_append {made : List Picture} {id : PictureId} (h : id < made.length) (p : Picture) :
    rank (made ++ [p]) id = rank made id := by
  unfold rank
  rw [List.getElem?_append_left h]

theorem rank_new (made : List Picture) (p : Picture) :
    rank (made ++ [p]) made.length = p.frameOrder.toNat := by
  simp [rank]

theorem sync_nextOrder (point : SyncPoint) (e : SimulatedEngine) (r : Resources) :
    (e.sync point r).2.1.nextOrder = e.nextOrder := by
  unfold SimulatedEngine.sync
  dsimp only
  split
  · rfl
  · split <;> rfl

namespace Session

/-- The frame orders of all pictures taken, of those that wait, and of the base queue. -/
def orders (taken : List PictureId) (s : Session SimulatedEngine) : List Nat :=
  (taken ++ s.pictures).map (rank s.pools.made) ++ s.queues.base.map (·.order.toNat)

/-- Frame orders rise, and the next slice goes on from there. -/
structure Rising (taken : List PictureId) (s : Session SimulatedEngine) : Prop where
  present : ∀ id ∈ taken ++ s.pictures, id < s.pools.made.length
  rising : (s.orders taken).Pairwise (· < ·)
  below : ∀ o ∈ s.orders taken, o < s.engine.nextOrder.toNat

section Keeps

variable {taken taken' : List PictureId} {s t : Session SimulatedEngine}

/-- What is given up leaves no trace in the order of the rest. -/
theorem Rising.sublist (h : Rising taken s) (hm : t.pools.made = s.pools.made)
    (hp : (taken' ++ t.pictures).Sublist (taken ++ s.pictures))
    (hq : t.queues.base.Sublist s.queues.base) (hn : t.engine.nextOrder = s.engine.nextOrder) :
    Rising taken' t := by
  have hsub : (t.orders taken').Sublist (s.orders taken) := by
    unfold orders
    rw [hm]
    exact (hp.map _).append (hq.map _)
  refine ⟨fun id hid => ?_, h.rising.sublist hsub, fun o ho => ?_⟩
  · rw [hm]
    exact h.present id (hp.subset hid)
  · rw [hn]
    exact h.below o (hsub.subset ho)

theorem Rising.same (h : Rising taken s) (hm : t.pools.made = s.pools.made)
    (hp : t.pictures = s.pictures) (hq : t.queues = s.queues)
    (hn : t.engine.nextOrder = s.engine.nextOrder) : Rising taken t := by
  refine h.sublist hm ?_ ?_ hn
  · rw [hp]
  · rw [hq]

/-- The slices of the base view are counted, so that a new one comes last. -/
theorem Rising.receive (h : Rising taken s) {pool : PoolId} {found : Nat} {work : WorkSurface}
    {a : DecodeAnswer SimulatedEngine} {d : DecodedSurface} (input : Option Bitstream)
    (ha : SimulatedEngine.Sliced work s.engine s.pools.resources a d) :
    Rising taken ((s.submitted input work a).received pool found d) := by
  generalize hx : (⟨found, d.mid, d.info, d.frameMeta⟩ : SurfaceInfo) = x
  generalize ht : (s.submitted input work a).received pool found d = t
  have hmade : t.pools.made = s.pools.made := by
    rw [← ht]
    rfl
  have hpics : t.pictures = s.pictures := by
    rw [← ht]
    rfl
  have hengine : t.engine = a.engine := by
    rw [← ht]
    rfl
  have hqueues : t.queues = s.queues.push x := by
    rw [← ht, ← hx]
    rfl
  rcases ha.order with ⟨hview, horder, hnext, _⟩ | ⟨hview, _, hnext, _⟩
  · have hbase : t.queues.base = s.queues.base ++ [x] := by
      rw [hqueues, ViewQueues.push, if_pos (by rw [← hx]; exact hview)]
    have hlast : x.order.toNat = s.engine.nextOrder.toNat := by
      rw [← hx]
      exact congrArg UInt32.toNat horder
    have horders : t.orders taken = s.orders taken ++ [s.engine.nextOrder.toNat] := by
      have hmap : (s.queues.base ++ [x]).map (·.order.toNat) =
          s.queues.base.map (·.order.toNat) ++ [s.engine.nextOrder.toNat] := by
        rw [List.map_append, List.map_singleton, hlast]
      unfold orders
      rw [hmade, hpics, hbase, hmap, List.append_assoc]
    refine ⟨?_, ?_, fun o ho => ?_⟩
    · rw [hmade, hpics]
      exact h.present
    · rw [horders, List.pairwise_append]
      refine ⟨h.rising, List.pairwise_singleton _ _, fun o ho o' ho' => ?_⟩
      rw [List.mem_singleton.mp ho']
      exact h.below o ho
    · rw [hengine, hnext]
      rw [horders] at ho
      rcases List.mem_append.mp ho with ho | ho
      · exact Nat.lt_succ_of_lt (h.below o ho)
      · rw [List.mem_singleton.mp ho]
        exact Nat.lt_succ_self _
  · refine h.sublist hmade (by rw [hpics]) ?_ (by rw [hengine, hnext])
    have hne : x.info.viewId ≠ 0 := by
      rw [← hx]
      dsimp only
      rw [hview]
      exact by decide
    rw [hqueues, ViewQueues.push, if_neg hne]

theorem Move.rising (h : Move s t) (hs : Rising taken s) : Rising taken t := by
  cases h with
  | aside h =>
    refine hs.same ?_ h.pictures h.queues h.engine.nextOrder
    unfold Pools.made
    rw [h.table]
  | submit input he hc hf ha => exact hs.same rfl rfl rfl ha.nextOrder
  | receive input he hc hf ha hm => exact hs.receive input ha
  | wait point => exact hs.same rfl rfl rfl (sync_nextOrder point _ _)
  | reset he => exact hs.same rfl rfl rfl rfl
  | closeDecoder hp => exact hs.same rfl rfl rfl rfl
  | @dropBase pool x base hc hq =>
    refine hs.sublist rfl (.refl _) ?_ rfl
    rw [hq]
    exact List.sublist_cons_self x base
  | dropExtra hc hq => exact hs.sublist rfl (.refl _) (.refl _) rfl
  | @dropPicture id rest hp =>
    refine hs.sublist (Pools.made_drop id s.pools) (List.Sublist.append_left ?_ taken) (.refl _) rfl
    rw [hp]
    exact List.sublist_cons_self id rest
  | startPool hc he => exact hs.same rfl rfl rfl rfl
  | @leavePool pool hc hq he =>
    exact hs.same (congrArg (List.map _) (Pools.pictures_settle pool _)) rfl rfl rfl
  | equip info a he hc hf hn hm hg => exact hs.same rfl rfl rfl rfl

theorem Starts.rising (h : Starts s t) (hs : Rising taken s) : Rising taken t := by
  cases h with
  | start hc hf ha hq hi =>
    exact hs.same rfl rfl rfl (SimulatedEngine.init_alike s.params s.engine).nextOrder

/-- A new picture takes the place of its base surface. -/
theorem Pairs.rising (h : Pairs s t) (hs : Rising taken s) : Rising taken t := by
  cases h with
  | @pair pool b e base extra hc hq hf =>
    generalize ht : (s.withQueues ⟨base, extra⟩).joined pool b e = t
    have hmade : t.pools.made = s.pools.made ++ [⟨b, e, pool, 0⟩] := by
      rw [← ht]
      exact List.map_append
    have hlen : s.pools.made.length = s.pools.pictures.length := List.length_map _
    have hpics : t.pictures = s.pictures ++ [s.pools.made.length] := by
      rw [← ht, hlen]
      rfl
    have hqueues : t.queues.base = base := by
      rw [← ht]
      rfl
    have hengine : t.engine = s.engine := by
      rw [← ht]
      rfl
    have hbase : s.queues.base = b :: base := by rw [hq]
    have horders : t.orders taken = s.orders taken := by
      have hold : (taken ++ s.pictures).map (rank (s.pools.made ++ [⟨b, e, pool, 0⟩])) =
          (taken ++ s.pictures).map (rank s.pools.made) :=
        List.map_congr_left fun id hid => rank_append (hs.present id hid) _
      have hnew : rank (s.pools.made ++ [⟨b, e, pool, 0⟩]) s.pools.made.length = b.order.toNat :=
        rank_new _ _
      unfold orders
      rw [hmade, hpics, hqueues, hbase, ← List.append_assoc, List.map_append, hold,
        List.map_singleton, hnew, List.append_assoc]
      rfl
    refine ⟨fun id hid => ?_, horders ▸ hs.rising, fun o ho => ?_⟩
    · rw [hmade, List.length_append]
      rw [hpics, ← List.append_assoc] at hid
      rcases List.mem_append.mp hid with hid | hid
      · exact Nat.lt_succ_of_lt (hs.present id hid)
      · rw [List.mem_singleton.mp hid]
        exact Nat.lt_succ_self _
    · rw [hengine]
      exact hs.below o (horders ▸ ho)

theorem Course.rising (h : Course s t) (hs : Rising taken s) : Rising taken t :=
  h.keeps (fun _ _ => Move.rising) (fun _ _ => Starts.rising) (fun _ _ => Pairs.rising) hs

end Keeps

/-! ## Counting -/

/-- Frame orders count the slices of the base view that were ever returned. -/
def Numbered (s : Session SimulatedEngine) : Prop :=
  s.engine.nextOrder.toNat = s.journal.countP Event.returnsBase

section Counting

variable {s t : Session SimulatedEngine}

theorem Numbered.quiet (h : Numbered s) (hn : t.engine.nextOrder = s.engine.nextOrder)
    (new : List Event) (hj : t.journal = new ++ s.journal) (hnew : ∀ e ∈ new, e.output? = none) :
    Numbered t := by
  have hzero : new.countP Event.returnsBase = 0 := by
    refine List.countP_eq_zero.mpr fun e he => ?_
    rw [Event.returnsBase, hnew e he]
    exact Bool.false_ne_true
  unfold Numbered
  rw [hn, hj, List.countP_append, hzero, Nat.zero_add]
  exact h

theorem Numbered.of_grew (h : Numbered s) (hn : t.engine.nextOrder = s.engine.nextOrder)
    (hg : Platform.Grew s.pools.platform t.pools.platform) : Numbered t := by
  obtain ⟨calls, hj⟩ := hg
  refine h.quiet hn _ hj fun e he => ?_
  obtain ⟨call, _, rfl⟩ := List.mem_map.mp he
  rfl

theorem Numbered.receive (h : Numbered s) {pool : PoolId} {found : Nat} {work : WorkSurface}
    {a : DecodeAnswer SimulatedEngine} {d : DecodedSurface} (input : Option Bitstream)
    (ha : SimulatedEngine.Sliced work s.engine s.pools.resources a d) :
    Numbered ((s.submitted input work a).received pool found d) := by
  have hj : ((s.submitted input work a).received pool found d).journal =
      .engine (.decode input work.mid a.status (a.stream.map (·.offset)) (some d)) :: s.journal := by
    rw [← ha.output]
    rfl
  have hn : ((s.submitted input work a).received pool found d).engine.nextOrder =
      a.engine.nextOrder := rfl
  unfold Numbered
  rw [hj, hn, List.countP_cons, ← h]
  rcases ha.order with ⟨hview, _, hnext, _⟩ | ⟨hview, _, hnext, _⟩
  · simp [Event.returnsBase, Event.output?, hview, hnext]
  · simp [Event.returnsBase, Event.output?, hview, hnext]

theorem Move.numbered (h : Move s t) (hs : Numbered s) : Numbered t := by
  have hcall : ∀ (call : EngineCall) {u : Session SimulatedEngine},
      (Event.engine call).output? = none → u.engine.nextOrder = s.engine.nextOrder →
        u.journal = .engine call :: s.journal → Numbered u :=
    fun _ _ ho hn hj => hs.quiet hn [_] hj fun e he => by rw [List.mem_singleton.mp he, ho]
  cases h with
  | aside h =>
    obtain ⟨new, hj, hnew⟩ := h.journal
    exact hs.quiet h.engine.nextOrder _ hj fun e he => (hnew e he).1
  | submit input he hc hf ha => exact hcall (.decode _ _ _ _ _) ha.output ha.nextOrder rfl
  | receive input he hc hf ha hm => exact hs.receive input ha
  | wait point => exact hcall _ rfl (sync_nextOrder point _ _) rfl
  | reset he => exact hcall _ rfl rfl rfl
  | closeDecoder hp => exact hcall _ rfl rfl rfl
  | dropBase hc hq => exact hs
  | dropExtra hc hq => exact hs
  | @dropPicture id rest hp => exact hs.of_grew rfl (Pools.grew_drop id s.pools)
  | startPool hc he => exact hs
  | @leavePool pool hc hq he => exact hs.of_grew rfl (Pools.grew_settle pool _)
  | @equip pool response memory platform info a he hc hf hn hm hg =>
    have hsupplied : Numbered { s with
        pools := s.pools.supplied pool info memory response a platform
        memory := memory } := hs.of_grew rfl hg
    exact hsupplied.quiet rfl [_] rfl fun e he => by rw [List.mem_singleton.mp he]; rfl

theorem Course.numbered (h : Course s t) (hs : Numbered s) : Numbered t := by
  refine h.keeps (fun _ _ => Move.numbered) ?_ ?_ hs
  · rintro u v ⟨hc, hf, ha, hq, hi⟩ hu
    refine hu.quiet (SimulatedEngine.init_alike u.params u.engine).nextOrder [_] rfl ?_
    exact fun e he => by rw [List.mem_singleton.mp he]; rfl
  · rintro u v ⟨hc, hq, hf⟩ hu
    exact hu

end Counting

end Session

namespace Custody

theorem made_of_step {c c' : Custody} (h : Step c c') :
    c'.session.pools.made = c.session.pools.made := by
  cases h with
  | take hp => rfl
  | @share refs taken s id hid => exact Pools.made_share id s.pools
  | @drop refs taken s id => exact Pools.made_drop id s.pools
  | mark hid hp => rfl
  | reorder hr => rfl

theorem Step.rising {c c' : Custody} (h : Step c c') (hc : c.session.Rising c.taken) :
    c'.session.Rising c'.taken := by
  have hmade := made_of_step h
  cases h with
  | take hp =>
    refine hc.sublist hmade ?_ (.refl _) rfl
    dsimp only
    rw [hp, List.append_assoc]
    exact .refl _
  | share hid => exact hc.same hmade rfl rfl rfl
  | drop => exact hc.same hmade rfl rfl rfl
  | mark hid hp => exact hc.same hmade rfl rfl rfl
  | reorder hr => exact hc

theorem Runs.rising {c c' : Custody} (h : Runs c c') (hc : c.session.Rising c.taken) :
    c'.session.Rising c'.taken :=
  Runs.keeps (q := fun c => c.session.Rising c.taken) (fun _ _ _ _ => Session.Course.rising)
    (fun _ _ => Step.rising) h hc

theorem Step.numbered {c c' : Custody} (h : Step c c') (hc : c.session.Numbered) :
    c'.session.Numbered := by
  cases h with
  | take hp => exact hc
  | share hid => exact hc
  | @drop refs taken s id => exact hc.of_grew rfl (Pools.grew_drop id s.pools)
  | mark hid hp => exact hc
  | reorder hr => exact hc

end Custody

namespace Client

theorem Reachable.numbered {c : Client SimulatedEngine} (h : c.Reachable) :
    c.session.Numbered := by
  obtain ⟨traits, config, device, memory, ops, hrun⟩ := h
  obtain ⟨taken, hruns⟩ := (run_sound ops [] (start_accounted traits config device memory)).result hrun
  exact Custody.Runs.keeps (q := fun c => c.session.Numbered)
    (fun _ _ _ _ => Session.Course.numbered) (fun _ _ => Custody.Step.numbered) hruns rfl

end Client

end Multiview
