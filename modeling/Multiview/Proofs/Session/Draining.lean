import Multiview.Proofs.Pairing.Schedule
import Multiview.Proofs.Session.Lockstep
import Multiview.Proofs.Session.Playing
import Multiview.Proofs.Session.Provenance

/-!
What a drain does to the view queues. The engine is asked for surfaces that it does not have, and once
it wants more data, every surface that waits is paired or given up. That takes a session that is ready
from start to end: one that waits for another header keeps its queues and lets nothing out.
-/

namespace Multiview

open Outcome Session

theorem sync_lastBaseOrder (point : SyncPoint) (e : SimulatedEngine) (r : Resources) :
    (e.sync point r).2.1.lastBaseOrder = e.lastBaseOrder := by
  unfold SimulatedEngine.sync
  dsimp only
  split
  · rfl
  · split <;> rfl

/-! ## Frame orders of the extra view -/

namespace Session

variable {s t : Session SimulatedEngine}

/-- Frame orders of the extra queue do not fall and never run ahead of the base view. -/
structure Following (s : Session SimulatedEngine) : Prop where
  steady : s.queues.extra.Pairwise (·.order ≤ ·.order)
  upto : ∀ x ∈ s.queues.extra, x.order ≤ s.engine.lastBaseOrder
  last : s.engine.lastBaseOrder ≤ s.engine.nextOrder

theorem Following.sublist (h : Following s) (hq : t.queues.extra.Sublist s.queues.extra)
    (hl : t.engine.lastBaseOrder = s.engine.lastBaseOrder)
    (hn : t.engine.nextOrder = s.engine.nextOrder) : Following t where
  steady := h.steady.sublist hq
  upto := fun x hx => hl ▸ h.upto x (hq.subset hx)
  last := by
    rw [hl, hn]
    exact h.last

theorem Following.same (h : Following s) (hq : t.queues = s.queues)
    (hl : t.engine.lastBaseOrder = s.engine.lastBaseOrder)
    (hn : t.engine.nextOrder = s.engine.nextOrder) : Following t :=
  h.sublist (hq ▸ .refl _) hl hn

/-- A slice of the base view goes ahead, and one of the extra view belongs to the last of them. -/
theorem Following.receive (h : Following s) {pool : PoolId} {found : Nat} {work : WorkSurface}
    {a : DecodeAnswer SimulatedEngine} {d : DecodedSurface} (input : Option Bitstream)
    (ha : SimulatedEngine.Sliced work s.engine s.pools.resources a d) :
    Following ((s.submitted input work a).received pool found d) := by
  generalize hx : (⟨found, d.mid, d.info, d.frameMeta⟩ : SurfaceInfo) = x
  generalize ht : (s.submitted input work a).received pool found d = t
  have hengine : t.engine = a.engine := by
    rw [← ht]
    rfl
  have hqueues : t.queues = s.queues.push x := by
    rw [← ht, ← hx]
    rfl
  rcases ha.order with ⟨hview, -, hnext, hlast⟩ | ⟨hview, horder, hnext, hlast⟩
  · have hextra : t.queues.extra = s.queues.extra := by
      rw [hqueues, ViewQueues.push, if_pos (by rw [← hx]; exact hview)]
    refine ⟨hextra ▸ h.steady, fun y hy => ?_, ?_⟩
    · rw [hextra] at hy
      rw [hengine, hlast]
      exact UInt32.le_trans (h.upto y hy) h.last
    · rw [hengine, hlast, UInt32.le_iff_toNat_le, hnext]
      exact Nat.le_succ _
  · have hne : x.info.viewId ≠ 0 := by
      rw [← hx]
      dsimp only
      rw [hview]
      exact by decide
    have hextra : t.queues.extra = s.queues.extra ++ [x] := by
      rw [hqueues, ViewQueues.push, if_neg hne]
    have hlevel : x.order = s.engine.lastBaseOrder := by
      rw [← hx]
      exact horder
    refine ⟨?_, fun y hy => ?_, ?_⟩
    · rw [hextra, List.pairwise_append]
      refine ⟨h.steady, List.pairwise_singleton _ _, fun y hy z hz => ?_⟩
      rw [List.mem_singleton.mp hz, hlevel]
      exact h.upto y hy
    · rw [hengine, hlast]
      rw [hextra] at hy
      rcases List.mem_append.mp hy with hy | hy
      · exact h.upto y hy
      · rw [List.mem_singleton.mp hy, hlevel]
        exact UInt32.le_refl _
    · rw [hengine, hlast, hnext]
      exact h.last

theorem Move.following (h : Move s t) (hs : Following s) : Following t := by
  cases h with
  | aside h => exact hs.same h.queues h.engine.lastBaseOrder h.engine.nextOrder
  | submit input he hc hf ha => exact hs.same rfl ha.lastBaseOrder ha.nextOrder
  | receive input he hc hf ha hm => exact hs.receive input ha
  | wait point => exact hs.same rfl (sync_lastBaseOrder point _ _) (sync_nextOrder point _ _)
  | reset he => exact hs.same rfl rfl rfl
  | closeDecoder hp => exact hs.same rfl rfl rfl
  | dropBase hc hq => exact hs.sublist (.refl _) rfl rfl
  | @dropExtra pool x extra hc hq =>
    refine hs.sublist ?_ rfl rfl
    rw [hq]
    exact List.sublist_cons_self x extra
  | dropPicture hp => exact hs.same rfl rfl rfl
  | startPool hc he => exact hs.same rfl rfl rfl
  | leavePool hc hq he => exact hs.same rfl rfl rfl
  | equip info a he hc hf hn hm hg => exact hs.same rfl rfl rfl

theorem Course.following (h : Course s t) (hs : Following s) : Following t := by
  refine h.keeps (fun _ _ => Move.following) ?_ ?_ hs
  · rintro u v ⟨hc, hf, ha, hq, hi⟩ hu
    have halike := SimulatedEngine.init_alike u.params u.engine
    exact hu.same rfl halike.lastBaseOrder halike.nextOrder
  · rintro u v ⟨hc, hq, hf⟩ hu
    refine hu.sublist ?_ rfl rfl
    rw [hq]
    exact List.sublist_cons_self _ _

end Session

namespace Custody

theorem Step.following {c c' : Custody} (h : Step c c') (hc : Following c.session) :
    Following c'.session := by
  cases h with
  | take hp => exact hc.same rfl rfl rfl
  | share hid => exact hc.same rfl rfl rfl
  | drop => exact hc.same rfl rfl rfl
  | mark hid hp => exact hc.same rfl rfl rfl
  | reorder hr => exact hc

end Custody

namespace Client

variable {c : Client SimulatedEngine}

theorem Reachable.following (h : c.Reachable) : Following c.session := by
  obtain ⟨traits, config, device, memory, ops, hrun⟩ := h
  obtain ⟨taken, hruns⟩ := (run_sound ops [] (start_accounted traits config device memory)).result hrun
  exact Custody.Runs.keeps (q := fun c => Following c.session)
    (fun _ _ _ _ => Session.Course.following) (fun _ _ => Custody.Step.following) hruns
    ⟨.nil, nofun, UInt32.le_refl _⟩

theorem Reachable.rising (h : c.Reachable) : ∃ taken, Rising taken c.session := by
  obtain ⟨traits, config, device, memory, ops, hrun⟩ := h
  obtain ⟨taken, hruns⟩ := (run_sound ops [] (start_accounted traits config device memory)).result hrun
  exact ⟨taken, hruns.rising (start_custody traits config device memory).2.2⟩

end Client

/-! ## Turns without data -/

theorem isLocked_of_unlock {r : Resources} {id id' : LockId}
    (h : (r.unlock id).isLocked id' = true) : r.isLocked id' = true := by
  unfold Resources.isLocked at h ⊢
  rw [getD_unlock] at h
  split at h
  · generalize r.locks.getD id' {} = l at h ⊢
    unfold SurfaceLock.unlock at h
    split at h
    · exact h
    · rename_i hc
      simpa [SurfaceLock.isLocked] using hc
  · exact h

theorem isLocked_of_unlockAll {ids : List LockId} {r : Resources} {id : LockId}
    (h : (r.unlockAll ids).isLocked id = true) : r.isLocked id = true := by
  unfold Resources.unlockAll at h
  induction ids generalizing r with
  | nil => exact h
  | cons id' ids ih => exact isLocked_of_unlock (ih h)

namespace Submission

/-- How a drain ends: the device was given up, the engine wants more data, or it failed. -/
def Ended (p : Submission) : Prop :=
  p.stuck = true ∨ p.status = .moreData ∨
    p.status ≠ .moreData ∧ p.status ≠ .moreSurface ∧ p.status.isError = true

end Submission

namespace Session

variable {s t u : Session SimulatedEngine} {pool : PoolId}

/-- The engine was drained. Queues, pictures and surfaces are as they were, and no surface was locked.
The session may have learned that the stream changed. -/
structure Emptied (s t : Session SimulatedEngine) : Prop where
  rest : ∃ engine phase buffer busyAnswers resources platform, t = { s with
    engine := engine
    phase := phase
    buffer := buffer
    busyAnswers := busyAnswers
    pools := { s.pools with resources := resources, platform := platform } }
  phase : t.phase = s.phase ∨ t.phase = .opened
  unlocked : ∀ id, t.pools.resources.isLocked id = true → s.pools.resources.isLocked id = true

namespace Emptied

theorem refl (s : Session SimulatedEngine) : Emptied s s :=
  ⟨⟨_, _, _, _, _, _, rfl⟩, Or.inl rfl, fun _ h => h⟩

theorem trans (h : Emptied s t) (h' : Emptied t u) : Emptied s u where
  rest := by
    obtain ⟨_, _, _, _, _, _, rfl⟩ := h.rest
    obtain ⟨_, _, _, _, _, _, rfl⟩ := h'.rest
    exact ⟨_, _, _, _, _, _, rfl⟩
  phase := by
    rcases h'.phase with hp | hp
    · rw [hp]
      exact h.phase
    · exact Or.inr hp
  unlocked := fun id hid => h.unlocked id (h'.unlocked id hid)

theorem edit (s : Session SimulatedEngine) (buffer : Bytes) (busyAnswers : Nat) :
    Emptied s { s with buffer := buffer, busyAnswers := busyAnswers } :=
  ⟨⟨_, _, _, _, _, _, rfl⟩, Or.inl rfl, fun _ h => h⟩

/-- The engine completed its operations, or did nothing. -/
theorem idled {a : DecodeAnswer SimulatedEngine} (input : Option Bitstream) (work : WorkSurface)
    (h : s.engine.Idled s.pools.resources a) : Emptied s (s.submitted input work a) := by
  refine ⟨⟨_, _, _, _, _, _, rfl⟩, Or.inl rfl, fun id hid => ?_⟩
  have hid : a.resources.isLocked id = true := hid
  rcases h.locks with ⟨-, hr⟩ | ⟨-, hr⟩
  · exact hr ▸ hid
  · rw [hr] at hid
    exact isLocked_of_unlockAll hid

theorem reset (s : Session SimulatedEngine) : Emptied s s.resetEngine :=
  ⟨⟨_, _, _, _, _, _, rfl⟩, Or.inl rfl, fun _ hid => isLocked_of_unlockAll hid⟩

/-- A surface that is free stays so. -/
theorem freeSurface (h : Emptied s t) {index : Nat} {work : WorkSurface}
    (hf : s.pools.freeSurface? pool = some (index, work)) :
    (t.pools.freeSurface? pool).isSome = true := by
  obtain ⟨x, hx, hfree, -⟩ := Pools.freeSurface?_eq_some hf
  have hmem : x ∈ (t.pools.pool pool).surfaces := by
    obtain ⟨_, _, _, _, _, _, rfl⟩ := h.rest
    exact List.mem_of_getElem? hx
  have hstill : x.isFree t.pools.resources = true := by
    have hunlocked := h.unlocked x.lock
    unfold Surface.isFree at hfree ⊢
    cases hl : t.pools.resources.isLocked x.lock with
    | false => simp_all
    | true => simp [hunlocked hl] at hfree
  have hpos : 0 < t.pools.freeCount pool := List.countP_pos_iff.mpr ⟨x, hmem, hstill⟩
  obtain ⟨index', work', hf'⟩ := Pools.exists_freeSurface hpos
  rw [hf']
  rfl

end Emptied

/-- The engine has nothing to answer without data but a status. -/
theorem askDecode_flushing (work : WorkSurface) (s : Session SimulatedEngine) :
    Yields (s.askDecode none work) fun x => x.2.1 = none ∧ Emptied s x.2.2.2 := by
  have hidle : Yields (SimulatedEngine.decode none work s.engine s.pools.resources)
      fun a => s.engine.Idled s.pools.resources a := fun a ha => by
    rcases (SimulatedEngine.decode_sound none work _ _).result ha with hi | ⟨hsome, -⟩
    · exact hi
    · cases hsome
  exact hidle.bind fun a ha => .pure ⟨ha.output, .idled none work ha⟩

theorem handleBusy_flushing {p : Submission} (hp : p.flushing = true)
    (s : Session SimulatedEngine) :
    Emptied s (s.handleBusy p).2.1 ∧ (s.handleBusy p).2.2.flushing = true ∧
      ((s.handleBusy p).1 = false → (s.handleBusy p).2.2.stuck = true) := by
  have hcount := Emptied.edit s s.buffer (s.busyAnswers + 1)
  unfold handleBusy
  dsimp only
  split
  · exact ⟨hcount, hp, nofun⟩
  · split
    · exact ⟨hcount, hp, fun _ => rfl⟩
    · exact ⟨hcount.trans (.reset _), hp, nofun⟩

/-- One turn of a drain. It ends the drain unless a surface was free and the engine can go on. -/
theorem turn_flushing {p : Submission} (hp : p.flushing = true)
    (hf : p.status = .moreData ∨ (s.pools.freeSurface? pool).isSome = true) :
    Yields (turn pool s p) fun x => Emptied s x.2.1 ∧ x.2.2.flushing = true ∧
      (x.1 = true → (x.2.1.pools.freeSurface? pool).isSome = true) ∧
      (x.1 = false → x.2.2.Ended) := by
  unfold turn
  cases hfree : s.pools.freeSurface? pool with
  | none =>
    rw [hfree] at hf
    exact .ok ⟨.refl s, hp, nofun, fun _ => Or.inr (Or.inl (hf.resolve_right nofun))⟩
  | some free =>
    obtain ⟨index, work⟩ := free
    dsimp only
    rw [if_pos hp]
    refine (askDecode_flushing work s).bind ?_
    rintro ⟨status, output, stream, t⟩ ⟨hout, ht⟩
    dsimp only at hout ht ⊢
    generalize hq : ({ p with stream := stream.getD p.stream } : Submission) = q
    have hq : q.flushing = true := by
      rw [← hq]
      exact hp
    split
    · obtain ⟨hbusy, hflush, hstuck⟩ := handleBusy_flushing hq t
      exact .pure ⟨ht.trans hbusy, hflush, fun _ => (ht.trans hbusy).freeSurface hfree,
        fun hstop => Or.inl (hstuck hstop)⟩
    · rw [hout]
      unfold handleAnswer
      dsimp only
      split
      · have hopened : Emptied t { t with phase := .opened } :=
          ⟨⟨_, _, _, _, _, _, rfl⟩, Or.inr rfl, fun _ hid => hid⟩
        exact .ok ⟨ht.trans hopened, rfl, fun _ => (ht.trans hopened).freeSurface hfree, nofun⟩
      · refine .ok ⟨ht, hq, fun _ => ht.freeSurface hfree, fun hstop => ?_⟩
        obtain ⟨hmore, herror⟩ : status ≠ .moreSurface ∧ status.isError = true := by
          simpa using hstop
        by_cases hdata : status = .moreData
        · exact Or.inr (Or.inl hdata)
        · exact Or.inr (Or.inr ⟨hdata, hmore, herror⟩)

/-- A drain goes on until the engine wants more data, fails, or is given up. -/
theorem submitWithin_flushing (fuel : Nat) {p : Submission} (hp : p.flushing = true)
    (hf : p.status = .moreData ∨ (s.pools.freeSurface? pool).isSome = true) :
    Yields (submitWithin pool fuel s p) fun x =>
      Emptied s x.1 ∧ x.2.flushing = true ∧ x.2.Ended := by
  induction fuel generalizing s p with
  | zero => exact .error _
  | succ fuel ih =>
    unfold submitWithin
    refine (turn_flushing hp hf).bind ?_
    rintro ⟨goOn, t, q⟩ ⟨ht, hflush, hon, hstop⟩
    cases goOn with
    | true =>
      exact (ih hflush (Or.inr (hon rfl))).mono fun x hx => ⟨ht.trans hx.1, hx.2⟩
    | false => exact .pure ⟨ht, hflush, hstop rfl⟩

/-- Unless the drain failed or the device was given up, the queues are flushed at its end. -/
theorem conclude_flushing {p : Submission} (hp : p.flushing = true) (he : p.Ended)
    (hc : s.control.isDraining = true) (buffer : Bytes) :
    Yields (s.conclude buffer p) fun x => ∀ status, x.1 = .ok status → status.flushed = false →
      ∃ rest, flushQueues true { s with buffer := rest } = .ok x.2 := by
  cases hstuck : p.stuck with
  | true =>
    unfold conclude
    rw [if_pos hstuck]
    exact .pure fun status hs hf => by cases hs; cases hf
  | false =>
    cases hleft : leftover buffer p with
    | error fault =>
      unfold conclude
      rw [hstuck, hleft]
      exact .error fault
    | ok rest =>
      rcases he with hgiven | hdata | ⟨hdata, hmore, herror⟩
      · cases hgiven.symm.trans hstuck
      · have hflushed : (p.flushing && p.status == .moreData) = true := by
          rw [hp, hdata]
          rfl
        rw [conclude_eq s hstuck hleft (hdata ▸ verdict_moreData), if_pos hc, hflushed]
        exact Yields.bind (fun t ht => ht) fun t ht => .pure fun _ _ _ => ⟨rest, ht⟩
      · unfold conclude
        rw [hstuck, hleft]
        simp only [bind, Except.bind, verdict_of_isError hdata hmore herror]
        exact .pure fun status hs => by cases hs

theorem decodeBuffer_flushing (hc : s.current = some pool) (hd : s.control.isDraining = true)
    (dts pts : Option UInt64) :
    Yields (s.decodeBuffer true dts pts) fun x => ∀ status, x.1 = .ok status →
      status.flushed = false → ∃ t, Emptied s t ∧ t.flushQueues true = .ok x.2 := by
  rw [decodeBuffer_eq hc]
  refine (submitWithin_flushing _ rfl (Or.inl rfl)).bind ?_
  rintro ⟨t, p⟩ ⟨ht, hp, hended⟩
  have hst : Emptied s t := (Emptied.edit s [] s.busyAnswers).trans ht
  have hcontrol : t.control.isDraining = true := by
    obtain ⟨_, _, _, _, _, _, rfl⟩ := hst.rest
    exact hd
  refine (conclude_flushing hp hended hcontrol s.buffer).mono fun x hx status hstatus hflushed => ?_
  obtain ⟨rest, hrest⟩ := hx status hstatus hflushed
  exact ⟨_, hst.trans (.edit t rest t.busyAnswers), hrest⟩

/-! ## What becomes of the queues -/

theorem ByView.views {q : ViewQueues} (h : ByView q) :
    baseViews q.toList = q.base ∧ extraViews q.toList = q.extra := by
  obtain ⟨hb, he⟩ := h
  unfold baseViews extraViews ViewQueues.toList
  rw [List.filter_append, List.filter_append]
  constructor
  · rw [List.filter_eq_self.mpr fun x hx => decide_eq_true (hb x hx),
      List.filter_eq_nil_iff.mpr fun x hx => by simpa using he x hx, List.append_nil]
  · rw [List.filter_eq_nil_iff.mpr fun x hx => by simpa using hb x hx,
      List.filter_eq_self.mpr fun x hx => decide_eq_true (he x hx), List.nil_append]

/-- All surfaces with a partner are pictures that wait for the client, and all others went back. -/
structure Cleared (pool : PoolId) (s t : Session SimulatedEngine) : Prop where
  queues : t.queues = {}
  paired : ∃ dropped,
    (bothViews (offlineJoin s.queues.base s.queues.extra) ++ dropped).Perm s.queues.toList ∧
      Paired pool (offlineJoin s.queues.base s.queues.extra) dropped s t

/-- Nothing that waits was touched. -/
structure Untouched (s t : Session SimulatedEngine) : Prop where
  queues : t.queues = s.queues
  pictures : t.pictures = s.pictures
  pools : t.pools.pools = s.pools.pools
  table : t.pools.pictures = s.pools.pictures

theorem Emptied.untouched (h : Emptied s t) : Untouched s t := by
  obtain ⟨_, _, _, _, _, _, rfl⟩ := h.rest
  exact ⟨rfl, rfl, rfl, rfl⟩

/-- Frame orders of the base queue rise. -/
theorem Rising.base {taken : List PictureId} (h : Rising taken s) :
    s.queues.base.Pairwise (·.order < ·.order) := by
  have hsub : (s.queues.base.map (·.order.toNat)).Sublist (s.orders taken) :=
    List.sublist_append_right _ _
  exact (List.pairwise_map.mp (h.rising.sublist hsub)).imp fun hlt =>
    UInt32.lt_iff_toNat_lt.mpr hlt

theorem flushQueues_clears (hp : s.phase = .ready) (hc : s.current = some pool)
    (hv : ByView s.queues) (hb : s.queues.base.Pairwise (·.order < ·.order))
    (he : s.queues.extra.Pairwise (·.order ≤ ·.order)) :
    Yields (s.flushQueues true) fun t => Cleared pool s t ∧ t.phase = .ready := by
  obtain ⟨hbase, hextra⟩ := hv.views
  have hpending : Pending pool s.queues.toList [] s s := by
    refine ⟨[], [], [], .of_eq rfl rfl rfl rfl rfl rfl, ?_⟩
    rw [hbase, hextra]
    have hstart := Progress.start hb he
    simpa [baseViews, extraViews] using hstart
  obtain ⟨t, dropped, ht, hqueues, hperm, hpaired⟩ := hpending.finish hp hc
  rw [hbase, hextra] at hperm hpaired
  rw [ht]
  exact .ok ⟨⟨hqueues, dropped, hperm, hpaired⟩, hpaired.phase.trans hp⟩

/-- The queues of a session that was emptied are those it had before. -/
theorem Cleared.emptied (h : Emptied s t) (hp : t.phase = s.phase) (hu : Cleared pool t u) :
    Cleared pool s u := by
  have hsame := h.untouched
  obtain ⟨hqueues, dropped, hperm, hpaired⟩ := hu
  rw [hsame.queues] at hperm hpaired
  have hst : Paired pool [] [] s t := by
    obtain ⟨_, _, _, _, _, _, ht⟩ := h.rest
    exact .of_eq hsame.pools hsame.table hsame.pictures hp (by rw [ht]) (by rw [ht])
  exact ⟨hqueues, dropped, hperm, hst.trans hpaired⟩

/-- What a drain that went well leaves of a session. -/
structure Drains (s t : Session SimulatedEngine) : Prop where
  phase : t.phase = s.phase ∨ t.phase = .opened
  cleared : t.phase = .ready → ∃ pool, s.current = some pool ∧ Cleared pool s t
  untouched : t.phase ≠ .ready → Untouched s t

theorem decode_drains (hs : Settled s) (ha : Active s) (hd : s.control.isDraining = true)
    (hv : ByView s.queues) (hb : s.queues.base.Pairwise (·.order < ·.order))
    (he : s.queues.extra.Pairwise (·.order ≤ ·.order)) :
    Yields (s.decode none none none) fun x =>
      x.1.error = false → x.1.flushed = false → Drains s x.2 := by
  obtain ⟨pool, hc⟩ := Option.isSome_iff_exists.mp (hs.active ha)
  have hadvance : Yields (s.advance true none none) fun x => ∀ status, x.1 = .ok status →
      status.flushed = false → Drains s x.2 := by
    rcases ha with hp | hp
    · -- Without an engine that is set up nothing happens at all.
      have hopened : s.phase ≠ .ready := by
        rw [hp]
        nofun
      have hidle : s.advance true none none = .ok (.ok { needInput := true }, s) := by
        unfold advance arrange
        rw [if_neg hopened, if_pos rfl]
        rfl
      rw [hidle]
      exact .ok fun _ _ _ => ⟨Or.inl rfl, fun hr => absurd hr hopened, fun _ => ⟨rfl, rfl, rfl, rfl⟩⟩
    · rw [advance_of_ready hp]
      refine (decodeBuffer_flushing hc hd none none).mono fun x hx status hstatus hflushed => ?_
      obtain ⟨t, ht, hflush⟩ := hx status hstatus hflushed
      have hcur : t.current = some pool := by
        obtain ⟨_, _, _, _, _, _, hrest⟩ := ht.rest
        rw [hrest]
        exact hc
      by_cases hready : t.phase = .ready
      · have hqueues := ht.untouched.queues
        have hall := flushQueues_clears hready hcur (hqueues ▸ hv) (hqueues ▸ hb) (hqueues ▸ he)
        obtain ⟨hcleared, hphase⟩ := hall x.2 hflush
        exact ⟨Or.inl (hphase.trans hp.symm),
          fun _ => ⟨pool, hc, hcleared.emptied ht (hready.trans hp.symm)⟩,
          fun hn => absurd hphase hn⟩
      · -- The stream changed during the drain, so that the queues are left as they are.
        have hsame : t = x.2 := by
          unfold flushQueues at hflush
          rw [if_pos hready] at hflush
          exact Except.ok.inj hflush
        rw [← hsame]
        exact ⟨ht.phase, fun hr => absurd hr hready, fun _ => ht.untouched⟩
  unfold Session.decode
  rw [tryDecode_of_accept (accept_active ha none), Option.isNone_none]
  refine hadvance.bind ?_
  rintro ⟨answer, t⟩ ht
  cases answer with
  | ok status => exact .pure fun _ hf => ht status rfl hf
  | error e => exact .pure nofun

end Session

namespace Client

variable {c : Client SimulatedEngine}

theorem perform_drain_eq {c' : Client SimulatedEngine} {a : Answer}
    (h : c.perform .drain = .ok (a, c')) :
    ∃ status t, c.session.drain = .ok (status, t) ∧ a = .status status ∧
      c' = { c with session := t } := by
  unfold Client.perform at h
  dsimp only at h
  cases hdrain : c.session.drain with
  | error fault =>
    rw [hdrain] at h
    cases h
  | ok x =>
    obtain ⟨status, t⟩ := x
    rw [hdrain] at h
    cases h
    exact ⟨status, t, rfl, rfl, rfl⟩

/-- A drain that neither fails nor gives the device up clears the queues, if the session is ready from
start to end: every base surface whose frame order an extra surface has is a picture that waits for the
client, and all others are back in the pool. A session that waits for another header, or learns during
the drain that it has to, keeps its queues and pictures. -/
theorem Reachable.drain_clears (h : c.Reachable) (ha : Active c.session) {status : DecodeStatus}
    {c' : Client SimulatedEngine} (hop : c.perform .drain = .ok (.status status, c'))
    (he : status.error = false) (hf : status.flushed = false) : Drains c.session c'.session := by
  obtain ⟨_, t, hdrain, hanswer, rfl⟩ := perform_drain_eq hop
  cases hanswer
  obtain ⟨taken, hrising⟩ := h.rising
  obtain ⟨hphase, hcleared, huntouched⟩ := decode_drains
    (s := { c.session with control := c.session.control.union .drain })
    (h.settled.control _) ha (isDraining_union_drain _) h.accounted.inStep.views hrising.base
    h.following.steady _ hdrain he hf
  refine ⟨hphase, fun hr => ?_, fun hn => ?_⟩
  · obtain ⟨pool, hc, hq, dropped, hperm, hpaired⟩ := hcleared hr
    exact ⟨pool, hc, hq, dropped, hperm, ⟨hpaired.created, hpaired.ready, hpaired.surfaces,
      hpaired.phase, hpaired.current, hpaired.config⟩⟩
  · obtain ⟨hq, hpictures, hpools, htable⟩ := huntouched hn
    exact ⟨hq, hpictures, hpools, htable⟩

/-- Parameter sets and two pictures of both views. -/
def twoPictures : Bytes :=
  [0, 0, 1, 0x67, 1, 0, 0, 1, 0x6f, 1, 0, 0, 1, 0x68, 1, 0, 0, 1, 0x65, 1, 0, 0, 1, 0x74, 1,
    0, 0, 1, 0x41, 1, 0, 0, 1, 0x74, 1]

/-- Decoding two pictures, which stay in the queues, and more. -/
def twoPicturesRun (more : List Operation) : Outcome (Client SimulatedEngine) :=
  (start {} {} none).run ([.open {} {}, .decode (some twoPictures) none none] ++ more)

/-- What can be seen of a drain. -/
structure DrainReport where
  status : DecodeStatus
  phase : Phase
  /-- Surfaces in the queues, before and after. -/
  before : Nat
  after : Nat
  pictures : List PictureId
  deriving DecidableEq

def drainReport (c : Client SimulatedEngine) : Option DrainReport :=
  c.session.drain.toOption.map fun x =>
    ⟨x.1, c.session.phase, c.session.queues.length, x.2.queues.length, x.2.pictures⟩

theorem perform_of_drainReport {r : DrainReport} (h : drainReport c = some r) :
    ∃ c', c.perform .drain = .ok (.status r.status, c') ∧ c.session.phase = r.phase ∧
      c.session.queues.length = r.before ∧ c'.session.queues.length = r.after ∧
      c'.session.pictures = r.pictures := by
  unfold drainReport at h
  cases hdrain : c.session.drain with
  | error fault =>
    rw [hdrain] at h
    cases h
  | ok x =>
    rw [hdrain] at h
    cases h
    refine ⟨{ c with session := x.2 }, ?_, rfl, rfl, rfl, rfl⟩
    unfold Client.perform
    dsimp only
    rw [hdrain]
    rfl

/-- Both pictures come out. -/
theorem twoPicturesRun_drained : ∃ c c' : Client SimulatedEngine, ∃ status, c.Reachable ∧
    c.perform .drain = .ok (.status status, c') ∧ c.session.queues.length = 4 ∧
    c'.session.pictures = [0, 1] ∧ Drains c.session c'.session := by
  have hcheck : (twoPicturesRun []).toOption.map drainReport =
      some (some ⟨{ pictureReady := true }, .ready, 4, 0, [0, 1]⟩) := by decide +kernel
  cases hrun : twoPicturesRun [] with
  | error fault =>
    rw [hrun] at hcheck
    cases hcheck
  | ok c =>
    rw [hrun] at hcheck
    obtain ⟨c', hop, hp, hbefore, -, hpictures⟩ := perform_of_drainReport (Option.some.inj hcheck)
    have hreach : c.Reachable := ⟨_, _, _, _, _, hrun⟩
    exact ⟨c, c', _, hreach, hop, hbefore, hpictures,
      Reachable.drain_clears hreach (Or.inr hp) hop rfl rfl⟩

/-- After a change of the stream a drain reports neither an error nor that the device was given up,
but two pictures stay in the queues. -/
theorem twoPicturesRun_stranded : ∃ c c' : Client SimulatedEngine, ∃ status, c.Reachable ∧
    Active c.session ∧ c.perform .drain = .ok (.status status, c') ∧ status.error = false ∧
    status.flushed = false ∧ c'.session.queues.length = 4 ∧ c'.session.pictures = [] := by
  generalize hmore : [Operation.prepare (.inject .incompatibleParams),
    .decode (some [0, 0, 1, 0x65, 1]) none none] = more
  have hcheck : (twoPicturesRun more).toOption.map drainReport =
      some (some ⟨{ needInput := true }, .opened, 4, 4, []⟩) := by
    rw [← hmore]
    decide +kernel
  cases hrun : twoPicturesRun more with
  | error fault =>
    rw [hrun] at hcheck
    cases hcheck
  | ok c =>
    rw [hrun] at hcheck
    obtain ⟨c', hop, hp, -, hafter, hpictures⟩ := perform_of_drainReport (Option.some.inj hcheck)
    exact ⟨c, c', _, ⟨_, _, _, _, _, hrun⟩, Or.inl hp, hop, rfl, rfl, hafter, hpictures⟩

end Client

end Multiview
