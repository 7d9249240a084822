import Mathlib.Data.List.Perm.Subperm
import Multiview.Proofs.Session.Runs

/-!
No surface is used twice, and none is lost. In every reachable state the surfaces of the current pool
that are queued or part of a live picture are all different, and their marks say so; the rest is free
but for one surface at most, which the engine still holds. So the engine is never handed a surface that
is in use.
-/

namespace Multiview

open Outcome

/-! ## Counting surfaces -/

theorem map_getElem?_range {α : Type} (l : List α) :
    (List.range l.length).map (fun i => l[i]?) = l.map some := by
  apply List.ext_getElem
  · simp
  · intro i h₁ h₂
    have hlt : i < l.length := by simpa using h₂
    simp [hlt]

/-- A list of all places at which a property holds, each once, counts them. -/
theorem length_eq_countP {α : Type} {l : List α} {p : α → Bool} {is : List Nat} (hn : is.Nodup)
    (h : ∀ i, i ∈ is ↔ (l[i]?).any p = true) : is.length = l.countP p := by
  have hperm : is.Perm ((List.range l.length).filter fun i => (l[i]?).any p) := by
    refine (List.perm_ext_iff_of_nodup hn (List.nodup_range.filter _)).mpr fun i => ?_
    rw [h, List.mem_filter, List.mem_range]
    refine ⟨fun hi => ⟨?_, hi⟩, And.right⟩
    by_contra hge
    rw [List.getElem?_eq_none (Nat.le_of_not_lt hge)] at hi
    cases hi
  calc is.length
    _ = (List.range l.length).countP (fun i => (l[i]?).any p) := by
      rw [hperm.length_eq, List.countP_eq_length_filter]
    _ = ((List.range l.length).map (fun i => l[i]?)).countP (Option.any p) := by
      rw [List.countP_map]
      rfl
    _ = l.countP p := by
      rw [map_getElem?_range, List.countP_map]
      rfl

/-- The engine holds one surface of a pool at most. -/
theorem countP_isLocked_le_one {inFlight : List (SyncPoint × LockId)} {r : Resources}
    (h : LocksFit inFlight r) {surfaces : List Surface} (hn : (surfaces.map (·.lock)).Nodup) :
    surfaces.countP (fun x => r.isLocked x.lock) ≤ 1 := by
  generalize hid : ((inFlight.head?).map (·.2)).getD 0 = id
  have honly : ∀ id', r.isLocked id' = true → (id' == id) = true := by
    intro id' hl
    obtain ⟨point, hp⟩ := h.locked id' hl
    rw [hp] at hid
    exact beq_iff_eq.mpr hid
  calc surfaces.countP (fun x => r.isLocked x.lock)
    _ = (surfaces.map (·.lock)).countP r.isLocked := by
      rw [List.countP_map]
      rfl
    _ ≤ (surfaces.map (·.lock)).count id := List.countP_mono_left fun id' _ => honly id'
    _ ≤ 1 := List.nodup_iff_count_le_one.mp hn id

/-- Live pictures of a pool. -/
def Pools.liveCount (pool : PoolId) (s : Pools) : Nat :=
  s.pictures.countP fun p => p.isAlive && p.pool == pool

theorem Pools.length_shown (pool : PoolId) (s : Pools) :
    (s.shown pool).length = 2 * s.liveCount pool := by
  unfold shown liveCount
  induction s.pictures with
  | nil => rfl
  | cons p pictures ih =>
    rw [List.flatMap_cons, List.length_append, ih, List.countP_cons]
    by_cases hp : p.isAlive = true ∧ p.pool = pool
    · simp [Picture.shows, hp]
      omega
    · simp [Picture.shows, hp]

theorem Pools.exists_freeSurface {pools : Pools} {pool : PoolId}
    (hpos : 0 < pools.freeCount pool) :
    ∃ index work, pools.freeSurface? pool = some (index, work) := by
  obtain ⟨x, hx, hfree⟩ := List.countP_pos_iff.mp hpos
  have hfind : ((pools.pool pool).surfaces.findIdx? (·.isFree pools.resources)).isSome = true := by
    rw [List.findIdx?_isSome]
    exact List.any_eq_true.mpr ⟨x, hx, hfree⟩
  obtain ⟨index, hindex⟩ := Option.isSome_iff_exists.mp hfind
  obtain ⟨hlt, _⟩ := List.findIdx?_eq_some_iff_getElem.mp hindex
  generalize hy : (pools.pool pool).surfaces[index] = y
  refine ⟨index, ⟨y.mid, y.info, y.lock⟩, ?_⟩
  unfold Pools.freeSurface? Pool.freeSurface?
  rw [hindex]
  simp only [Option.bind_eq_bind, Option.bind_some, List.getElem?_eq_getElem hlt, hy]
  rfl

/-- A surface is found if and only if there is one that is free. -/
theorem Pools.exists_freeSurface_iff {pools : Pools} {pool : PoolId} :
    (∃ index work, pools.freeSurface? pool = some (index, work)) ↔ 0 < pools.freeCount pool := by
  refine ⟨?_, exists_freeSurface⟩
  rintro ⟨index, work, hf⟩
  obtain ⟨x, hx, hfree, -⟩ := freeSurface?_eq_some hf
  exact List.countP_pos_iff.mpr ⟨x, List.mem_of_getElem? hx, hfree⟩

namespace Session

/-- The surfaces of the current pool in use, by their index: those of the base queue, those of the
extra queue and those of live pictures. -/
def inUse (pool : PoolId) (s : Session SimulatedEngine) : List Nat :=
  s.queues.base.map (·.index) ++ s.queues.extra.map (·.index) ++ s.pools.shown pool

/-- Surfaces of the current pool that only the engine holds. -/
def onlyLocked (pool : PoolId) (s : Session SimulatedEngine) : Nat :=
  (s.pools.pool pool).surfaces.countP fun x =>
    s.pools.resources.isLocked x.lock && !(x.queued || x.render)

/-- Each surface of the current pool has one use at most, its marks tell which, and all surfaces are
accounted for. -/
structure Exclusive (pool : PoolId) (s : Session SimulatedEngine) : Prop where
  distinct : (s.inUse pool).Nodup
  marked : ∀ i, i ∈ s.inUse pool ↔
    ∃ x, (s.pools.pool pool).surfaces[i]? = some x ∧ (x.queued = true ∨ x.render = true)
  apart : ∀ x ∈ (s.pools.pool pool).surfaces, ¬ (x.queued = true ∧ x.render = true)
  pending : ∀ i, i ∈ s.queues.base.map (·.index) ++ s.queues.extra.map (·.index) ↔
    ∃ x, (s.pools.pool pool).surfaces[i]? = some x ∧ x.sync.isSome = true
  locked : (s.pools.pool pool).surfaces.countP (fun x => s.pools.resources.isLocked x.lock) ≤ 1
  conserved : s.pools.freeCount pool + s.queues.base.length + s.queues.extra.length +
    2 * s.pools.liveCount pool + s.onlyLocked pool = (s.pools.pool pool).surfaces.length
  onlyLocked_le : s.onlyLocked pool ≤ 1

section Accounts

variable {refs : List PictureId} {s : Session SimulatedEngine} {pool : PoolId}

theorem inUse_eq (hc : s.current = some pool) :
    s.inUse pool = s.waiting pool ++ s.pools.shown pool := by
  rw [waiting_of_current hc, inUse, ViewQueues.toList, List.map_append]

theorem toNat_pos_iff (b : Bool) : 0 < b.toNat ↔ b = true := by
  cases b <;> simp

theorem any_eq_true_iff {α : Type} {x : Option α} {p : α → Bool} :
    x.any p = true ↔ ∃ y, x = some y ∧ p y = true := by
  cases x with
  | none => simp
  | some y => simp

theorem Accounted.mem_inUse (h : Accounted refs s) (hc : s.current = some pool) (i : Nat) :
    i ∈ s.inUse pool ↔
      ((s.pools.pool pool).surfaces[i]?).any (fun x => x.queued || x.render) = true := by
  have hmark := (h.tracks pool i).marked
  rw [inUse_eq hc, ← List.count_pos_iff, List.count_append, hmark]
  exact toNat_pos_iff _

theorem Accounted.exclusive (h : Accounted refs s) (hc : s.current = some pool) :
    Exclusive pool s := by
  have hnodup : (s.inUse pool).Nodup := by
    rw [List.nodup_iff_count_le_one]
    intro i
    rw [inUse_eq hc, List.count_append]
    exact (h.tracks pool i).le_one
  have hlocked := countP_isLocked_le_one h.locksFit (h.locks pool)
  have honly : s.onlyLocked pool ≤ 1 := by
    refine Nat.le_trans (List.countP_mono_left fun x _ hx => ?_) hlocked
    exact (Bool.and_eq_true_iff.mp hx).1
  have hcount : (s.inUse pool).length =
      (s.pools.pool pool).surfaces.countP (fun x => x.queued || x.render) :=
    length_eq_countP hnodup (h.mem_inUse hc)
  refine ⟨hnodup, fun i => ?_, fun x hx => ?_, fun i => ?_, hlocked, ?_, honly⟩
  · rw [h.mem_inUse hc, any_eq_true_iff]
    simp only [Bool.or_eq_true]
  · obtain ⟨i, hi⟩ := List.mem_iff_getElem?.mp hx
    exact (h.tracks pool i).apart x hi
  · have hpend := (h.tracks pool i).pending
    have hwait : s.queues.base.map (·.index) ++ s.queues.extra.map (·.index) = s.waiting pool := by
      rw [waiting_of_current hc, ViewQueues.toList, List.map_append]
    rw [hwait, ← List.count_pos_iff, hpend, toNat_pos_iff, any_eq_true_iff]
    rfl
  · have hsplit : ∀ l : List Surface,
        l.countP (·.isFree s.pools.resources) + l.countP (fun x => x.queued || x.render) +
          l.countP (fun x => s.pools.resources.isLocked x.lock && !(x.queued || x.render)) =
            l.length := by
      intro l
      induction l with
      | nil => rfl
      | cons x l ih =>
        simp only [List.countP_cons, Surface.isFree, List.length_cons] at ih ⊢
        cases s.pools.resources.isLocked x.lock <;> cases x.queued <;> cases x.render <;>
          simp only [Bool.and_true, Bool.and_false, Bool.not_true, Bool.not_false, Bool.or_true,
            Bool.or_false, ↓reduceIte, Bool.false_eq_true] <;>
          omega
    have hall := hsplit (s.pools.pool pool).surfaces
    rw [← hcount] at hall
    have hlen : (s.inUse pool).length =
        s.queues.base.length + s.queues.extra.length + 2 * s.pools.liveCount pool := by
      rw [inUse, List.length_append, List.length_append, List.length_map, List.length_map,
        Pools.length_shown]
    unfold onlyLocked Pools.freeCount Pool.freeCount
    omega

/-- A free surface is in no use. -/
theorem Accounted.freeSurface?_not_inUse (h : Accounted refs s) (hc : s.current = some pool)
    {index : Nat} {work : WorkSurface} (hf : s.pools.freeSurface? pool = some (index, work)) :
    index ∉ s.inUse pool := by
  obtain ⟨x, hx, hfree, _⟩ := Pools.freeSurface?_eq_some hf
  obtain ⟨_, hq, hr⟩ := isFree_eq_true hfree
  have hx : (s.pools.pool pool).surfaces[index]? = some x := hx
  rw [h.mem_inUse hc, hx, Option.any_some, hq, hr]
  exact nofun

/-- Every live picture has a reference somewhere. -/
theorem Accounted.liveCount_le (h : Accounted refs s) (pool : PoolId) :
    s.pools.liveCount pool ≤ (s.pictures ++ refs).length := by
  generalize hn : s.pools.pictures.length = n
  generalize hids : (List.range n).filter (fun id => (s.pools.pictures[id]?).any (·.isAlive)) = ids
  have hnodup : ids.Nodup := hids ▸ List.nodup_range.filter _
  have halive : ids.length = s.pools.pictures.countP (·.isAlive) := by
    refine length_eq_countP hnodup fun id => ?_
    rw [← hids, List.mem_filter, List.mem_range, ← hn]
    refine ⟨And.right, fun ha => ⟨?_, ha⟩⟩
    obtain ⟨p, hp, _⟩ := any_eq_true_iff.mp ha
    exact (List.getElem?_eq_some_iff.mp hp).1
  have hsub : ids ⊆ s.pictures ++ refs := by
    intro id hid
    rw [← hids, List.mem_filter] at hid
    obtain ⟨p, hp, ha⟩ := any_eq_true_iff.mp hid.2
    have hcount := h.references id
    rw [Pools.references, hp, Option.map_some, Option.getD_some] at hcount
    rw [← List.count_pos_iff, ← hcount]
    exact of_decide_eq_true ha
  calc s.pools.liveCount pool
    _ ≤ s.pools.pictures.countP (·.isAlive) :=
      List.countP_mono_left fun p _ hp => (Bool.and_eq_true_iff.mp hp).1
    _ = ids.length := halive.symm
    _ ≤ (s.pictures ++ refs).length := (hnodup.subperm hsub).length_le

/-- A pool with one surface more than may be in use has a free one. -/
theorem Accounted.exists_free (h : Accounted refs s) (hc : s.current = some pool)
    (hroom : s.queues.length + 2 * (s.pictures ++ refs).length + 1 <
      (s.pools.pool pool).surfaces.length) :
    ∃ index work, s.pools.freeSurface? pool = some (index, work) := by
  have hex := h.exclusive hc
  have hlive := h.liveCount_le pool
  have hall := hex.conserved
  have honly := hex.onlyLocked_le
  unfold ViewQueues.length at hroom
  exact Pools.exists_freeSurface (by omega)

/-- With nothing queued, no picture left and no operation in flight all surfaces are free. -/
theorem Accounted.all_free (h : Accounted refs s) (hc : s.current = some pool)
    (hq : s.queues = {}) (hp : s.pictures ++ refs = []) (hfly : s.engine.inFlight = []) :
    ∀ x ∈ (s.pools.pool pool).surfaces, x.isFree s.pools.resources = true := by
  have hall := (h.exclusive hc).conserved
  have hlive := h.liveCount_le pool
  have honly : s.onlyLocked pool = 0 := by
    refine List.countP_eq_zero.mpr fun x _ hx => ?_
    obtain ⟨point, hpoint⟩ := h.locksFit.locked _ (Bool.and_eq_true_iff.mp hx).1
    rw [hfly] at hpoint
    cases hpoint
  rw [hp] at hlive
  rw [hq, Nat.le_zero.mp hlive, honly] at hall
  exact List.countP_eq_length.mp hall

end Accounts

end Session

namespace Client

open Session

/-- The input that an operation tries to decode, and the session that does so. -/
inductive Decodes (c : Client SimulatedEngine) :
    Operation → Session SimulatedEngine → Option Bytes → Prop
  | decode (data : Option Bytes) (dts pts : Option UInt64) :
      Decodes c (.decode data dts pts) c.session data
  | drain : Decodes c .drain (c.session.setControl (c.session.control.union .drain)) none
  | header {hints : StreamHints} (options : Options) {header : SequenceHeader}
      (h : headerOf hints = .ok (some header)) :
      Decodes c (.open hints options) { c.session.restart options with lengthSize := some .two }
        (some header.data)
  | extradata {hints : StreamHints} (options : Options) (h : headerOf hints = .ok none) :
      Decodes c (.open hints options) (c.session.restart options) (some hints.extradata)

/-- Session and submission before a turn of an operation, in which a surface of the pool is handed to
the engine if one is free. -/
inductive Turns (c : Client SimulatedEngine) (op : Operation) (pool : PoolId) :
    Session SimulatedEngine → Submission → Prop
  | first {s t u : Session SimulatedEngine} {data : Option Bytes} (dts pts : Option UInt64)
      (hd : c.Decodes op s data) (ht : s.accept data = .ok (.ok t))
      (hu : t.arrange data.isNone = .ok (.ok true, u)) (hc : u.current = some pool) :
      Turns c op pool { u with buffer := [] }
        { flushing := data.isNone, stream := ⟨u.buffer, 0, pts, dts⟩ }
  | next {s t : Session SimulatedEngine} {p q : Submission} (h : Turns c op pool s p)
      (ht : turn pool s p = .ok (true, t, q)) : Turns c op pool t q

section Turning

variable {c : Client SimulatedEngine} {op : Operation} {pool : PoolId} {s : Session SimulatedEngine}

theorem Decodes.accounted {data : Option Bytes} (h : c.Decodes op s data)
    (hc : Session.Accounted c.references c.session) : Session.Accounted c.references s := by
  have hrestart : ∀ options, Session.Accounted c.references (c.session.restart options) :=
    fun options => Feeding.accounted (moves_restart options hc.inStep).feeding hc
  cases h with
  | decode dts pts => exact hc
  | drain => exact (aside_setControl hc.inStep _).moves.feeding.accounted hc
  | header options h =>
    have hnew := hrestart options
    exact (aside_lengthSize hnew.inStep _).moves.feeding.accounted hnew
  | extradata options h => exact hrestart options

theorem Turns.accounted {p : Submission} (h : c.Turns op pool s p)
    (hc : Session.Accounted c.references c.session) :
    Session.Accounted c.references s ∧ Running pool s := by
  induction h with
  | @first s t u data dts pts hd ht hu hcur =>
    have hs := hd.accounted hc
    obtain ⟨b, rfl⟩ := (accept_sound data s).result ht t rfl
    have ht := (aside_edit hs.inStep.ready b).moves.feeding.accounted hs
    obtain ⟨hprep, hready⟩ := (arrange_sound data.isNone ht.inStep).result hu
    have hu := hprep.accounted ht
    have hfed := (aside_edit hu.inStep.ready []).moves.feeding.accounted hu
    exact ⟨hfed, hfed.inStep, hu.inStep.ready (hready rfl), hcur⟩
  | next h ht ih =>
    obtain ⟨hs, hrun⟩ := ih
    have hfed := (turn_sound hrun _).result ht
    exact ⟨hfed.feeding.accounted hs, hfed.running hrun⟩

end Turning

/-- Surfaces are used by one at a time: in every reachable state, and whenever a surface is handed to
the engine. -/
theorem Reachable.surfaces_exclusive {c : Client SimulatedEngine} (h : c.Reachable) :
    (∀ pool, c.session.current = some pool → Exclusive pool c.session) ∧
      ∀ op pool s p, c.Turns op pool s p → Exclusive pool s ∧
        ∀ index work, s.pools.freeSurface? pool = some (index, work) → index ∉ s.inUse pool := by
  have hc := h.accounted
  refine ⟨fun pool hcur => hc.exclusive hcur, fun op pool s p hturn => ?_⟩
  obtain ⟨hs, hrun⟩ := hturn.accounted hc
  exact ⟨hs.exclusive hrun.current, fun index work hf => hs.freeSurface?_not_inUse hrun.current hf⟩

/-- A base surface waits while the client has the picture before. -/
theorem stereoRun_exclusive : ∃ c : Client SimulatedEngine, c.Reachable ∧
    c.session.current = some 0 ∧ c.session.inUse 0 = [2, 0, 1] ∧ Exclusive 0 c.session := by
  have huse : stereoRun.toOption.map (fun c => (c.session.current, c.session.inUse 0)) =
      some (some 0, [2, 0, 1]) := by decide +kernel
  cases hrun : stereoRun with
  | error fault =>
    rw [hrun] at huse
    cases huse
  | ok c =>
    rw [hrun] at huse
    obtain ⟨hcur, hin⟩ := Prod.mk.inj (Option.some.inj huse)
    have hc := stereoRun_reachable hrun
    exact ⟨c, hc, hcur, hin, (Reachable.surfaces_exclusive hc).1 0 hcur⟩

end Client

end Multiview
