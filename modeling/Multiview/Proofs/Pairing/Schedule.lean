import Multiview.Engine.Simulated
import Multiview.Proofs.Pairing.Join
import Multiview.Proofs.Pairing.Perform

/-!
Pairing does not depend on its schedule. However many surfaces a session lets wait, and whenever its
queues are flushed in between, the pictures in the end are those of the offline join of all surfaces
that the engine returned, and every surface without partner is back in the pool.
-/

namespace Multiview

/-- Each pair that was made is a stereo picture. -/
theorem Progress.fits {all : List SurfaceInfo} {steps : List PairingStep}
    {doneB doneE restB restE : List SurfaceInfo}
    (h : Progress (baseViews all) (extraViews all) steps doneB doneE restB restE) :
    ∀ p ∈ pairsOf steps, Fits p.1 p.2 := by
  rintro ⟨b, e⟩ hp
  rw [h.pairs] at hp
  obtain ⟨b', hb', hfind⟩ := List.mem_filterMap.mp hp
  obtain ⟨e', he', heq⟩ := Option.map_eq_some_iff.mp hfind
  cases heq
  have hbase : b ∈ baseViews all := h.base_eq ▸ List.mem_append_left _ hb'
  have hextra : e ∈ extraViews all :=
    h.extra_eq ▸ List.mem_append_left _ (List.mem_of_find?_eq_some he')
  have horder := List.find?_some he'
  exact ⟨viewId_of_mem_baseViews hbase, viewId_of_mem_extraViews hextra,
    (of_decide_eq_true horder).symm⟩

namespace Surface

/-- What becomes of surface `index` of pool `id` when pairs are joined and surfaces dropped. -/
def afterwards (pool : PoolId) (pairs : List (SurfaceInfo × SurfaceInfo))
    (dropped : List SurfaceInfo) (id : PoolId) (index : Nat) (x : Surface) : Surface :=
  if id = pool ∧ index ∈ dropped.map (·.index) then x.release
  else if id = pool ∧ index ∈ (bothViews pairs).map (·.index) then x.settle
  else x

@[simp] theorem afterwards_nil (pool id : PoolId) (index : Nat) (x : Surface) :
    x.afterwards pool [] [] id index = x := by
  simp [afterwards, bothViews]

/-- Settling and releasing do not get in each other's way. -/
theorem afterwards_append (pool : PoolId) (pairs pairs' : List (SurfaceInfo × SurfaceInfo))
    (dropped dropped' : List SurfaceInfo) (id : PoolId) (index : Nat) (x : Surface) :
    (x.afterwards pool pairs dropped id index).afterwards pool pairs' dropped' id index =
      x.afterwards pool (pairs ++ pairs') (dropped ++ dropped') id index := by
  have h₁ : x.release.release = x.release := rfl
  have h₂ : x.settle.release = x.release := rfl
  have h₃ : x.release.settle = x.release := rfl
  have h₄ : x.settle.settle = x.settle := rfl
  simp only [afterwards, bothViews_append, List.map_append, List.mem_append]
  by_cases hid : id = pool
  · by_cases hd : index ∈ dropped.map (·.index) <;>
      by_cases hd' : index ∈ dropped'.map (·.index) <;>
      by_cases hp : index ∈ (bothViews pairs).map (·.index) <;>
      by_cases hp' : index ∈ (bothViews pairs').map (·.index) <;>
      simp only [hid, hd, hd', hp, hp', true_and, or_true, true_or, or_self, ↓reduceIte, h₁, h₂,
        h₃, h₄]
  · simp only [hid, false_and, ↓reduceIte]

end Surface

namespace Session

variable {σ : Type}

/-- From `s` to `s'` pairs were joined to pictures, surfaces dropped, and nothing else was done to
pools and pictures. -/
structure Paired (pool : PoolId) (pairs : List (SurfaceInfo × SurfaceInfo))
    (dropped : List SurfaceInfo) (s s' : Session σ) : Prop where
  created : s'.pools.pictures = s.pools.pictures ++ pairs.map fun p => ⟨p.1, p.2, pool, 1⟩
  ready : s'.pictures = s.pictures ++ List.range' s.pools.pictures.length pairs.length
  surfaces : ∀ id index, s'.pools.surface? id index =
    (s.pools.surface? id index).map (Surface.afterwards pool pairs dropped id index)
  phase : s'.phase = s.phase
  current : s'.current = s.current
  config : s'.config = s.config

namespace Paired

variable {pool : PoolId} {pairs pairs' : List (SurfaceInfo × SurfaceInfo)}
  {dropped dropped' : List SurfaceInfo} {s t u : Session σ}

theorem trans (h : Paired pool pairs dropped s t) (h' : Paired pool pairs' dropped' t u) :
    Paired pool (pairs ++ pairs') (dropped ++ dropped') s u where
  created := by
    rw [h'.created, h.created, List.map_append, List.append_assoc]
  ready := by
    have hlen : t.pools.pictures.length = s.pools.pictures.length + 1 * pairs.length := by
      rw [h.created, List.length_append, List.length_map, Nat.one_mul]
    rw [h'.ready, h.ready, hlen, List.append_assoc, List.range'_append, List.length_append]
  surfaces := by
    intro id index
    rw [h'.surfaces, h.surfaces, Option.map_map]
    congr 1
    funext x
    exact Surface.afterwards_append ..
  phase := h'.phase.trans h.phase
  current := h'.current.trans h.current
  config := h'.config.trans h.config

/-- Sessions of the same pools and pictures, whatever else has changed. -/
theorem of_eq (hp : t.pools.pools = s.pools.pools) (hc : t.pools.pictures = s.pools.pictures)
    (hr : t.pictures = s.pictures) (hph : t.phase = s.phase) (hcu : t.current = s.current)
    (hco : t.config = s.config) : Paired pool [] [] s t where
  created := by simp [hc]
  ready := by simp [hr]
  surfaces := by
    intro id index
    have hsame : t.pools.surface? id index = s.pools.surface? id index := by
      unfold Pools.surface? Pools.pool
      rw [hp]
    rw [hsame]
    cases s.pools.surface? id index with
    | none => rfl
    | some x => simp
  phase := hph
  current := hcu
  config := hco

theorem withQueues (s : Session σ) (queues : ViewQueues) :
    Paired pool [] [] s (s.withQueues queues) :=
  of_eq rfl rfl rfl rfl rfl rfl

theorem released (s : Session σ) (surface : SurfaceInfo) :
    Paired pool [] [surface] s (s.released pool surface) where
  created := by simp [Session.released, Pools.modifySurface, Pools.modifyPool]
  ready := by simp [Session.released]
  surfaces := by
    intro id index
    unfold Session.released
    rw [Pools.surface?_modifySurface]
    congr 1
    funext x
    simp [Surface.afterwards, bothViews, eq_comm]
  phase := rfl
  current := rfl
  config := rfl

theorem joined (s : Session σ) (base extra : SurfaceInfo) :
    Paired pool [(base, extra)] [] s (s.joined pool base extra) where
  created := rfl
  ready := rfl
  surfaces := by
    intro id index
    have hlook : (s.joined pool base extra).pools.surface? id index =
        ((s.pools.modifySurface pool base.index Surface.settle).modifySurface pool extra.index
          Surface.settle).surface? id index := rfl
    rw [hlook, Pools.surface?_modifySurface, Pools.surface?_modifySurface, Option.map_map]
    congr 1
    funext x
    have hviews : ∀ i, i ∈ (bothViews [(base, extra)]).map (·.index) ↔
        base.index = i ∨ extra.index = i := by
      intro i
      simp [bothViews, eq_comm]
    have hside : (id = pool) = (pool = id) := propext eq_comm
    have hsettle : x.settle.settle = x.settle := rfl
    simp only [Function.comp_apply, Surface.afterwards, hviews, List.map_nil, List.not_mem_nil,
      and_false, ↓reduceIte, hside]
    by_cases hid : pool = id <;> by_cases hb : base.index = index <;>
      by_cases he : extra.index = index <;>
      simp only [hid, hb, he, and_self, and_false, false_and, or_self, or_true, true_or,
        ↓reduceIte, hsettle]
  phase := rfl
  current := rfl
  config := rfl

end Paired

/-- Returning the queued surfaces is like dropping one after another. -/
theorem releaseQueued_eq {pool : PoolId} {s : Session σ} (hc : s.current = some pool) :
    s.releaseQueued =
      (s.queues.toList.foldl (fun s x => s.released pool x) s).withQueues {} := by
  have hfold : ∀ (surfaces : List SurfaceInfo) (s : Session σ),
      surfaces.foldl (fun s x => s.released pool x) s =
        { s with pools := surfaces.foldl (fun p x => p.release pool x.index) s.pools } := by
    intro surfaces
    induction surfaces with
    | nil => exact fun s => rfl
    | cons x surfaces ih => exact fun s => ih (s.released pool x)
  rw [hfold, releaseQueued_of_current hc]
  rfl

theorem foldl_released (pool : PoolId) (surfaces : List SurfaceInfo) (s : Session σ) :
    Paired pool [] surfaces s (surfaces.foldl (fun s x => s.released pool x) s) := by
  induction surfaces generalizing s with
  | nil => exact .of_eq rfl rfl rfl rfl rfl rfl
  | cons x surfaces ih => exact (Paired.released s x).trans (ih _)

section Steps

variable [DecodeEngine σ]

theorem Waited.paired {pool : PoolId} {s s' : Session σ} (h : Waited s s') :
    Paired pool [] [] s s' := by
  rw [h.eq_withEngine]
  exact .of_eq rfl rfl rfl rfl rfl rfl

theorem Waited.queues {s s' : Session σ} (h : Waited s s') : s'.queues = s.queues := by
  rw [h.eq_withEngine]
  rfl

/-- All steps are carried out if each of their pairs is a stereo picture. -/
theorem foldlM_perform (pool : PoolId) {steps : List PairingStep}
    (hf : ∀ p ∈ pairsOf steps, Fits p.1 p.2) (s : Session σ) :
    ∃ s', steps.foldlM (fun s step => s.perform pool step) s = .ok s' ∧
      Paired pool (pairsOf steps) (droppedOf steps) s s' ∧ s'.queues = s.queues := by
  induction steps generalizing s with
  | nil => exact ⟨s, rfl, .of_eq rfl rfl rfl rfl rfl rfl, rfl⟩
  | cons step steps ih =>
    have hrest : ∀ p ∈ pairsOf steps, Fits p.1 p.2 := fun p hp =>
      hf p (List.mem_append_right _ hp)
    cases step with
    | drop surface =>
      obtain ⟨s', hs', hp, hq⟩ := ih hrest (s.released pool surface)
      exact ⟨s', hs', (Paired.released s surface).trans hp, hq⟩
    | pair base extra =>
      obtain ⟨t, ht, hw⟩ := perform_pair (hf (base, extra) List.mem_cons_self) pool s
      obtain ⟨s', hs', hp, hq⟩ := ih hrest t
      refine ⟨s', ?_, ((Paired.joined s base extra).trans hw.paired).trans hp, ?_⟩
      · rw [List.foldlM_cons, ht]
        exact hs'
      · rw [hq, hw.queues]
        rfl

end Steps

/-! ## Schedules -/

/-- What can happen to the queues of a session in the midst of a stream. -/
inductive PairingEvent where
  /-- The engine returned a surface. -/
  | output (surface : SurfaceInfo)
  /-- Everything that can be paired is paired. -/
  | flush
  deriving DecidableEq, Repr

def PairingEvent.surface? : PairingEvent → Option SurfaceInfo
  | output surface => some surface
  | flush => none

/-- The surfaces of a schedule in the order in which the engine returned them. -/
def outputs (events : List PairingEvent) : List SurfaceInfo :=
  events.filterMap PairingEvent.surface?

/-- Of the surfaces `all`, which a session gets from `start` on, those of `coming` are still to come
and the others are settled or queued. -/
def Pending (pool : PoolId) (all coming : List SurfaceInfo) (start s : Session σ) : Prop :=
  ∃ steps doneB doneE,
    Paired pool (pairsOf steps) (droppedOf steps) start s ∧
    Progress (baseViews all) (extraViews all) steps doneB doneE
      (s.queues.base ++ baseViews coming) (s.queues.extra ++ extraViews coming)

theorem Pending.start {pool : PoolId} {all : List SurfaceInfo} {s : Session σ}
    (hb : (baseViews all).Pairwise (·.order < ·.order))
    (he : (extraViews all).Pairwise (·.order ≤ ·.order)) (hq : s.queues = {}) :
    Pending pool all all s s := by
  refine ⟨[], [], [], .of_eq rfl rfl rfl rfl rfl rfl, ?_⟩
  rw [hq]
  exact .start hb he

theorem Pending.push {pool : PoolId} {all coming : List SurfaceInfo} {start s : Session σ}
    {surface : SurfaceInfo} (h : Pending pool all (surface :: coming) start s) :
    Pending pool all coming start (s.withQueues (s.queues.push surface)) := by
  obtain ⟨steps, doneB, doneE, hp, hprog⟩ := h
  have hpaired := hp.trans (.withQueues s (s.queues.push surface))
  rw [List.append_nil, List.append_nil] at hpaired
  refine ⟨steps, doneB, doneE, hpaired, ?_⟩
  by_cases hv : surface.info.viewId = 0
  · simpa [withQueues, ViewQueues.push, baseViews, extraViews, hv] using hprog
  · simpa [withQueues, ViewQueues.push, baseViews, extraViews, hv] using hprog

variable [DecodeEngine σ]

def react (event : PairingEvent) (s : Session σ) : Outcome (Session σ) :=
  match event with
  | .output surface => s.handleOutput surface
  | .flush => s.flushQueues false

def reactAll (events : List PairingEvent) (s : Session σ) : Outcome (Session σ) :=
  events.foldlM (fun s event => s.react event) s

/-- The run of a schedule, with everything flushed at its end. -/
def reactToEnd (events : List PairingEvent) (s : Session σ) : Outcome (Session σ) := do
  let s ← s.reactAll events
  s.flushQueues true

section Schedules

variable {pool : PoolId} {all coming : List SurfaceInfo} {start s : Session σ}

theorem Pending.pairQueued (h : Pending pool all coming start s) (hc : start.current = some pool)
    (least : Nat) :
    ∃ s', s.pairQueued least = .ok s' ∧ Pending pool all coming start s' ∧
      s'.queues = (s.queues.resolve least).2 := by
  obtain ⟨steps, doneB, doneE, hp, hprog⟩ := h
  obtain ⟨doneB', doneE', hprog'⟩ := ViewQueues.resolve_progress least hprog
  have hfits : ∀ p ∈ pairsOf (s.queues.resolve least).1, Fits p.1 p.2 := fun p hmem =>
    hprog'.fits p (by rw [pairsOf_append]; exact List.mem_append_right _ hmem)
  obtain ⟨s', hs', hp', hq⟩ :=
    foldlM_perform pool hfits (s.withQueues (s.queues.resolve least).2)
  have hrun : s.pairQueued least = .ok s' := by
    rw [pairQueued_of_current (hp.current.trans hc)]
    exact hs'
  have hpaired := (hp.trans (.withQueues s (s.queues.resolve least).2)).trans hp'
  rw [List.append_nil, List.append_nil, ← pairsOf_append, ← droppedOf_append] at hpaired
  refine ⟨s', hrun, ⟨_, doneB', doneE', hpaired, ?_⟩, hq⟩
  rw [hq]
  exact hprog'

/-- Queueing a surface lets the shorter queue hold half of the operations in flight at most. -/
theorem Pending.handleOutput {surface : SurfaceInfo}
    (h : Pending pool all (surface :: coming) start s) (hc : start.current = some pool) :
    ∃ s', s.handleOutput surface = .ok s' ∧ Pending pool all coming start s' ∧
      min s'.queues.base.length s'.queues.extra.length ≤ start.config.asyncDepth.toNat / 2 := by
  obtain ⟨_, _, _, hp, _⟩ := id h
  obtain ⟨s', hs', hpend, hq⟩ := h.push.pairQueued hc (s.config.asyncDepth.toNat / 2 + 1)
  have hshort := ViewQueues.resolve_short
    (Nat.le_add_left 1 (s.config.asyncDepth.toNat / 2)) (s.queues.push surface)
  refine ⟨s', hs', hpend, ?_⟩
  rw [hq, ← hp.config]
  exact Nat.le_of_lt_succ hshort

theorem Pending.flushQueues (h : Pending pool all coming start s)
    (hph : start.phase = .ready) (hc : start.current = some pool) :
    ∃ s', s.flushQueues false = .ok s' ∧ Pending pool all coming start s' := by
  obtain ⟨_, _, _, hp, _⟩ := id h
  obtain ⟨s', hs', hpend, _⟩ := h.pairQueued hc 1
  refine ⟨s', ?_, hpend⟩
  simp [Session.flushQueues, hp.phase, hph, hs']

theorem Pending.reactAll {events : List PairingEvent}
    (h : Pending pool all (outputs events ++ coming) start s)
    (hph : start.phase = .ready) (hc : start.current = some pool) :
    ∃ s', s.reactAll events = .ok s' ∧ Pending pool all coming start s' := by
  induction events generalizing s with
  | nil => exact ⟨s, rfl, h⟩
  | cons event events ih =>
    have hstep : ∃ t, s.react event = .ok t ∧
        Pending pool all (outputs events ++ coming) start t := by
      cases event with
      | output surface =>
        obtain ⟨t, ht, hpend, _⟩ := h.handleOutput hc
        exact ⟨t, ht, hpend⟩
      | flush => exact h.flushQueues hph hc
    obtain ⟨t, ht, hpend⟩ := hstep
    obtain ⟨s', hs', hpend'⟩ := ih hpend
    refine ⟨s', ?_, hpend'⟩
    simp only [Session.reactAll, List.foldlM_cons, ht]
    exact hs'

/-- Once everything has come the last flush settles all that is left. -/
theorem Pending.finish (h : Pending pool all [] start s)
    (hph : start.phase = .ready) (hc : start.current = some pool) :
    ∃ s' dropped, s.flushQueues true = .ok s' ∧ s'.queues = {} ∧
      (bothViews (offlineJoin (baseViews all) (extraViews all)) ++ dropped).Perm all ∧
      Paired pool (offlineJoin (baseViews all) (extraViews all)) dropped start s' := by
  obtain ⟨_, _, _, hp₀, _⟩ := id h
  obtain ⟨t, ht, ⟨steps, doneB, doneE, hp, hprog⟩, hq⟩ := h.pairQueued hc 1
  have hempty : t.queues.base = [] ∨ t.queues.extra = [] := by
    have hshort := ViewQueues.resolve_short (Nat.le_refl 1) s.queues
    rw [← hq] at hshort
    rcases Nat.lt_or_ge t.queues.base.length 1 with hl | hl
    · exact Or.inl (List.length_eq_zero_iff.mp (by omega))
    · exact Or.inr (List.length_eq_zero_iff.mp (by omega))
  have hview : baseViews [] = [] ∧ extraViews [] = [] := ⟨rfl, rfl⟩
  rw [hview.1, hview.2, List.append_nil, List.append_nil] at hprog
  have hpairs := hprog.pairs_eq hempty
  have hcur : t.current = some pool := hp.current.trans hc
  refine ⟨t.releaseQueued, droppedOf steps ++ t.queues.toList, ?_, ?_, ?_, ?_⟩
  · simp [Session.flushQueues, hp₀.phase, hph, ht]
  · rw [releaseQueued_eq hcur]
    rfl
  · rw [← hpairs, ← List.append_assoc]
    refine (hprog.taken.append_right _).trans ?_
    refine List.Perm.trans ?_ (views_perm all)
    rw [hprog.base_eq, hprog.extra_eq, ViewQueues.toList]
    simp only [List.append_assoc]
    refine List.Perm.append_left _ ?_
    rw [← List.append_assoc, ← List.append_assoc]
    exact List.perm_append_comm.append_right _
  · rw [releaseQueued_eq hcur, ← hpairs]
    have hrel := (hp.trans (foldl_released pool t.queues.toList t)).trans (.withQueues _ {})
    simpa using hrel

/-- **Pairing is the offline join.** For base surfaces of rising and extra surfaces of not falling
frame orders, in any order of the two views, every schedule ends with empty queues and the pictures of
the offline join, in rising order, while all other surfaces are back in the pool. Neither the number of
operations in flight nor the flushes in between make a difference, and after each output the shorter
queue holds half of that number at most. -/
theorem reactToEnd_eq_offlineJoin (s : Session σ) (events : List PairingEvent)
    (hph : s.phase = .ready) (hc : s.current = some pool) (hq : s.queues = {})
    (hb : (baseViews (outputs events)).Pairwise (·.order < ·.order))
    (he : (extraViews (outputs events)).Pairwise (·.order ≤ ·.order)) :
    let join := offlineJoin (baseViews (outputs events)) (extraViews (outputs events))
    join.Pairwise (·.1.order < ·.1.order) ∧
    (∃ s' dropped, s.reactToEnd events = .ok s' ∧ s'.queues = {} ∧
      (bothViews join ++ dropped).Perm (outputs events) ∧ Paired pool join dropped s s') ∧
    (∀ (asyncDepth : UInt16) (events' : List PairingEvent), outputs events' = outputs events →
      ∃ s' s'', s.reactToEnd events = .ok s' ∧
        reactToEnd events' { s with config := { s.config with asyncDepth := asyncDepth } } =
          .ok s'' ∧
        s''.pools.pictures = s'.pools.pictures ∧ s''.pictures = s'.pictures) ∧
    (∀ before surface after, events = before ++ .output surface :: after →
      ∃ t, s.reactAll (before ++ [.output surface]) = .ok t ∧
        min t.queues.base.length t.queues.extra.length ≤ s.config.asyncDepth.toNat / 2) := by
  intro join
  have hend : ∀ (u : Session σ) (events' : List PairingEvent), u.phase = .ready →
      u.current = some pool → u.queues = {} → outputs events' = outputs events →
      ∃ u' dropped, u.reactToEnd events' = .ok u' ∧ u'.queues = {} ∧
        (bothViews join ++ dropped).Perm (outputs events) ∧ Paired pool join dropped u u' := by
    intro u events' huph huc huq hout
    have hstart : Pending pool (outputs events) (outputs events' ++ []) u u := by
      rw [List.append_nil, hout]
      exact .start hb he huq
    obtain ⟨t, ht, hpend⟩ := hstart.reactAll huph huc
    obtain ⟨u', dropped, hu', hrest⟩ := hpend.finish huph huc
    refine ⟨u', dropped, ?_, hrest⟩
    simp only [reactToEnd, ht]
    exact hu'
  refine ⟨?_, hend s events hph hc hq rfl, ?_, ?_⟩
  · refine List.Pairwise.filterMap _ ?_ hb
    intro b b' hlt p hp p' hp'
    obtain ⟨e, _, rfl⟩ := Option.map_eq_some_iff.mp hp
    obtain ⟨e', _, rfl⟩ := Option.map_eq_some_iff.mp hp'
    exact hlt
  · intro asyncDepth events' hout
    obtain ⟨s', _, hs', _, _, hp⟩ := hend s events hph hc hq rfl
    obtain ⟨s'', _, hs'', _, _, hp'⟩ :=
      hend { s with config := { s.config with asyncDepth := asyncDepth } } events' hph hc hq hout
    exact ⟨s', s'', hs', hs'', hp'.created.trans hp.created.symm, hp'.ready.trans hp.ready.symm⟩
  · intro before surface after hevents
    have hout : outputs events = outputs before ++ (surface :: outputs after) := by
      rw [hevents, outputs, List.filterMap_append]
      rfl
    have hstart : Pending pool (outputs events) (outputs before ++ (surface :: outputs after)) s s := by
      rw [← hout]
      exact .start hb he hq
    obtain ⟨t, ht, hpend⟩ := hstart.reactAll hph hc
    obtain ⟨t', ht', _, hshort⟩ := hpend.handleOutput hc
    refine ⟨t', ?_, hshort⟩
    have hlast : t.reactAll [.output surface] = t.handleOutput surface := by
      simp [reactAll, react]
    have hsplit : s.reactAll (before ++ [.output surface]) =
        s.reactAll before >>= reactAll [.output surface] := List.foldlM_append
    rw [hsplit, ht]
    exact hlast.trans ht'

end Schedules

/-- Surface `index` with the picture of a view. -/
def surfaceOf (index : Nat) (viewId : UInt16) (order : UInt32) : SurfaceInfo :=
  ⟨index, ⟨index⟩, { viewId := viewId }, { frameOrder := order }⟩

/-- Surface `index` in its pool, back from the engine. -/
def returnedSurface (index : Nat) : Surface :=
  { mid := ⟨index⟩, info := {}, lock := index, queued := true, sync := some ⟨index⟩ }

/-- A session that waits for output, with five surfaces in its pool. -/
def awaiting : Session SimulatedEngine :=
  { engine := {}, phase := .ready, current := some 0
    pools := { pools := [{ surfaces := (List.range 5).map returnedSurface }] } }

/-- The second of three base pictures loses its partner. -/
def lostPartner : List PairingEvent :=
  [.output (surfaceOf 0 0 0), .output (surfaceOf 1 1 0), .flush, .output (surfaceOf 2 0 1),
    .output (surfaceOf 3 0 2), .output (surfaceOf 4 1 2)]

/-- Its surface is released, and those of the two pairs stay queued for the client. -/
theorem reactToEnd_lost_partner :
    ∃ s' dropped, awaiting.reactToEnd lostPartner = .ok s' ∧ s'.queues = {} ∧
      Paired 0 [(surfaceOf 0 0 0, surfaceOf 1 1 0), (surfaceOf 3 0 2, surfaceOf 4 1 2)] dropped
        awaiting s' ∧
      (s'.pools.pool 0).surfaces.map (fun x => (x.queued, x.sync)) =
        [(true, none), (true, none), (false, none), (true, none), (true, none)] := by
  obtain ⟨s', dropped, hs', hq, _, hp⟩ := (reactToEnd_eq_offlineJoin awaiting lostPartner
    rfl rfl rfl (by decide) (by decide)).2.1
  have hmarks : (awaiting.reactToEnd lostPartner).toOption.map (fun s =>
      (s.pools.pool 0).surfaces.map fun x => (x.queued, x.sync)) =
      some [(true, none), (true, none), (false, none), (true, none), (true, none)] := by
    decide +kernel
  rw [hs'] at hmarks
  exact ⟨s', dropped, hs', hq, hp, Option.some.inj hmarks⟩

end Session

end Multiview
