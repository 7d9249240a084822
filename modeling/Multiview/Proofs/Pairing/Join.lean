import Mathlib.Data.List.Basic
import Multiview.Session.Pairing

/-!
The view queues compared with a join that sees both views as a whole. `offlineJoin` pairs each base
surface with the first extra surface of its frame order. The queues decide from their fronts alone,
before later surfaces are known. `Progress` states that no decision can turn out wrong, provided that
the frame orders of the base view rise and those of the extra view do not fall.
-/

namespace Multiview

/-- The base view surfaces of a sequence. -/
def baseViews (surfaces : List SurfaceInfo) : List SurfaceInfo :=
  surfaces.filter (·.info.viewId = 0)

/-- The surfaces of a sequence that show another view. -/
def extraViews (surfaces : List SurfaceInfo) : List SurfaceInfo :=
  surfaces.filter (·.info.viewId ≠ 0)

/-- Each base surface with the first extra surface of its frame order, if there is one. -/
def offlineJoin (base extra : List SurfaceInfo) : List (SurfaceInfo × SurfaceInfo) :=
  base.filterMap fun b => (extra.find? (·.order = b.order)).map (b, ·)

/-- The surfaces that pairs consist of. -/
def bothViews (pairs : List (SurfaceInfo × SurfaceInfo)) : List SurfaceInfo :=
  pairs.flatMap fun p => [p.1, p.2]

namespace PairingStep

def pairs : PairingStep → List (SurfaceInfo × SurfaceInfo)
  | pair base extra => [(base, extra)]
  | drop _ => []

def dropped : PairingStep → List SurfaceInfo
  | pair _ _ => []
  | drop surface => [surface]

end PairingStep

/-- The pairs made by a sequence of steps. -/
def pairsOf (steps : List PairingStep) : List (SurfaceInfo × SurfaceInfo) :=
  steps.flatMap (·.pairs)

/-- The surfaces that a sequence of steps drops. -/
def droppedOf (steps : List PairingStep) : List SurfaceInfo := steps.flatMap (·.dropped)

@[simp] theorem pairsOf_append (a b : List PairingStep) :
    pairsOf (a ++ b) = pairsOf a ++ pairsOf b := List.flatMap_append

@[simp] theorem droppedOf_append (a b : List PairingStep) :
    droppedOf (a ++ b) = droppedOf a ++ droppedOf b := List.flatMap_append

theorem bothViews_append (a b : List (SurfaceInfo × SurfaceInfo)) :
    bothViews (a ++ b) = bothViews a ++ bothViews b := List.flatMap_append

theorem viewId_of_mem_baseViews {s : SurfaceInfo} {surfaces : List SurfaceInfo}
    (h : s ∈ baseViews surfaces) : s.info.viewId = 0 := by
  simpa using (List.mem_filter.mp h).2

theorem viewId_of_mem_extraViews {s : SurfaceInfo} {surfaces : List SurfaceInfo}
    (h : s ∈ extraViews surfaces) : s.info.viewId ≠ 0 := by
  simpa using (List.mem_filter.mp h).2

/-- A sequence consists of its base view and the rest. -/
theorem views_perm (surfaces : List SurfaceInfo) :
    (baseViews surfaces ++ extraViews surfaces).Perm surfaces := by
  have h := List.filter_append_perm (fun s : SurfaceInfo => decide (s.info.viewId = 0)) surfaces
  simpa [baseViews, extraViews] using h

/-! ## The offline join -/

theorem offlineJoin_append_left (a b extra : List SurfaceInfo) :
    offlineJoin (a ++ b) extra = offlineJoin a extra ++ offlineJoin b extra :=
  List.filterMap_append

/-- Extra surfaces that come later do not matter to base surfaces that have a partner already, nor to
those of another frame order. -/
theorem offlineJoin_append_right (base extra more : List SurfaceInfo)
    (h : ∀ b ∈ base, ∀ e ∈ more, b.order = e.order → ∃ e' ∈ extra, e'.order = b.order) :
    offlineJoin base (extra ++ more) = offlineJoin base extra := by
  apply List.filterMap_congr
  intro b hb
  have hfind : (extra ++ more).find? (·.order = b.order) = extra.find? (·.order = b.order) := by
    rw [List.find?_append]
    cases hf : extra.find? (·.order = b.order) with
    | some e => rfl
    | none =>
      rw [Option.none_or, List.find?_eq_none]
      intro e he heq
      have heq : e.order = b.order := by simpa using heq
      obtain ⟨e', he', ho⟩ := h b hb e he heq.symm
      have := List.find?_eq_none.mp hf e' he'
      simp [ho] at this
  rw [hfind]

theorem offlineJoin_eq_nil (base extra : List SurfaceInfo)
    (h : ∀ b ∈ base, ∀ e ∈ extra, e.order ≠ b.order) : offlineJoin base extra = [] := by
  apply List.filterMap_eq_nil_iff.mpr
  intro b hb
  have hf : extra.find? (·.order = b.order) = none := by
    apply List.find?_eq_none.mpr
    intro e he
    simpa using h b hb e he
  rw [hf]
  rfl

/-! ## Steps of the queues -/

/-- What has been settled by `steps`. Of all base surfaces `base` those of `doneB` were taken off their
queue and those of `restB` are queued or still to come, and likewise for the extra surfaces. -/
structure Progress (base extra : List SurfaceInfo) (steps : List PairingStep)
    (doneB doneE restB restE : List SurfaceInfo) : Prop where
  rising : base.Pairwise (·.order < ·.order)
  steady : extra.Pairwise (·.order ≤ ·.order)
  base_eq : base = doneB ++ restB
  extra_eq : extra = doneE ++ restE
  pairs : pairsOf steps = offlineJoin doneB doneE
  taken : (bothViews (pairsOf steps) ++ droppedOf steps).Perm (doneB ++ doneE)
  /-- No base surface that is left has lost its partner. -/
  early : ∀ e ∈ doneE, ∀ b ∈ restB, e.order < b.order
  /-- No extra surface that is left was a partner of one taken. -/
  late : ∀ b ∈ doneB, ∀ e ∈ restE,
    b.order ≤ e.order ∧ (b.order = e.order → ∃ e' ∈ doneE, e'.order = b.order)

theorem Progress.start {base extra : List SurfaceInfo}
    (hb : base.Pairwise (·.order < ·.order)) (he : extra.Pairwise (·.order ≤ ·.order)) :
    Progress base extra [] [] [] base extra where
  rising := hb
  steady := he
  base_eq := rfl
  extra_eq := rfl
  pairs := rfl
  taken := .refl _
  early := by simp
  late := by simp

section Steps

variable {base extra doneB doneE restB restE : List SurfaceInfo} {steps : List PairingStep}
  {b e : SurfaceInfo}

theorem Progress.base_lt (h : Progress base extra steps doneB doneE (b :: restB) restE) :
    ∀ b' ∈ restB, b.order < b'.order := by
  have hp := h.rising
  rw [h.base_eq] at hp
  exact (List.pairwise_cons.mp (List.pairwise_append.mp hp).2.1).1

theorem Progress.extra_le (h : Progress base extra steps doneB doneE restB (e :: restE)) :
    ∀ e' ∈ restE, e.order ≤ e'.order := by
  have hp := h.steady
  rw [h.extra_eq] at hp
  exact (List.pairwise_cons.mp (List.pairwise_append.mp hp).2.1).1

/-- Base surfaces that were taken off have no partner at the front of the extra queue. -/
theorem Progress.join_done (h : Progress base extra steps doneB doneE restB (e :: restE)) :
    offlineJoin doneB (doneE ++ [e]) = offlineJoin doneB doneE := by
  apply offlineJoin_append_right
  intro b' hb' e' he'
  rw [List.mem_singleton] at he'
  subst he'
  exact (h.late b' hb' e' List.mem_cons_self).2

/-- The front surfaces have the same frame order: they are each other's partners in the join. -/
theorem Progress.pair (h : Progress base extra steps doneB doneE (b :: restB) (e :: restE))
    (ho : b.order = e.order) :
    Progress base extra (steps ++ [.pair b e]) (doneB ++ [b]) (doneE ++ [e]) restB restE where
  rising := h.rising
  steady := h.steady
  base_eq := by simp [h.base_eq]
  extra_eq := by simp [h.extra_eq]
  pairs := by
    have hfind : (doneE ++ [e]).find? (·.order = b.order) = some e := by
      have hnone : doneE.find? (·.order = b.order) = none := by
        apply List.find?_eq_none.mpr
        intro e' he'
        have := h.early e' he' b List.mem_cons_self
        simpa using UInt32.ne_of_lt this
      rw [List.find?_append, hnone]
      simp [ho]
    have hnew : offlineJoin [b] (doneE ++ [e]) = [(b, e)] := by
      simp only [offlineJoin, List.filterMap_cons, hfind, Option.map_some, List.filterMap_nil]
    rw [pairsOf_append, h.pairs, offlineJoin_append_left, h.join_done, hnew]
    rfl
  taken := by
    have ht := h.taken
    simp only [pairsOf_append, bothViews_append, droppedOf_append]
    have hp : (bothViews (pairsOf steps) ++ bothViews (pairsOf [.pair b e]) ++
        (droppedOf steps ++ droppedOf [.pair b e])).Perm
        ((bothViews (pairsOf steps) ++ droppedOf steps) ++ [b, e]) := by
      simp only [pairsOf, droppedOf, bothViews, PairingStep.pairs, PairingStep.dropped,
        List.flatMap_cons, List.flatMap_nil, List.append_nil, List.append_assoc]
      exact List.Perm.append_left _ List.perm_append_comm
    have hshift : (doneE ++ [b, e]).Perm ([b] ++ (doneE ++ [e])) := by
      exact List.perm_middle
    refine hp.trans ((ht.append_right _).trans ?_)
    simp only [List.append_assoc]
    exact hshift.append_left doneB
  early := by
    intro e' he' b' hb'
    rcases List.mem_append.mp he' with he' | he'
    · exact h.early e' he' b' (List.mem_cons_of_mem _ hb')
    · rw [List.mem_singleton] at he'
      subst he'
      exact ho ▸ h.base_lt b' hb'
  late := by
    intro b' hb' e' he'
    rcases List.mem_append.mp hb' with hb' | hb'
    · obtain ⟨hle, heq⟩ := h.late b' hb' e' (List.mem_cons_of_mem _ he')
      refine ⟨hle, fun hor => ?_⟩
      obtain ⟨e'', hmem, ho''⟩ := heq hor
      exact ⟨e'', List.mem_append_left _ hmem, ho''⟩
    · rw [List.mem_singleton] at hb'
      subst hb'
      exact ⟨ho ▸ h.extra_le e' he', fun _ => ⟨e, by simp, ho.symm⟩⟩

/-- The front of the base queue is older: its partner would have come before the front of the other
queue. -/
theorem Progress.drop_base (h : Progress base extra steps doneB doneE (b :: restB) (e :: restE))
    (ho : b.order < e.order) :
    Progress base extra (steps ++ [.drop b]) (doneB ++ [b]) doneE restB (e :: restE) where
  rising := h.rising
  steady := h.steady
  base_eq := by simp [h.base_eq]
  extra_eq := h.extra_eq
  pairs := by
    have hnone : offlineJoin [b] doneE = [] := by
      apply offlineJoin_eq_nil
      intro b' hb' e' he'
      rw [List.mem_singleton] at hb'
      subst hb'
      exact UInt32.ne_of_lt (h.early e' he' b' List.mem_cons_self)
    rw [pairsOf_append, h.pairs, offlineJoin_append_left, hnone]
    rfl
  taken := by
    have hshift : (doneB ++ doneE ++ [b]).Perm (doneB ++ [b] ++ doneE) := by
      simp only [List.append_assoc]
      exact List.perm_append_comm.append_left doneB
    have ht := (h.taken.append_right [b]).trans hshift
    simpa [pairsOf, droppedOf, PairingStep.pairs, PairingStep.dropped] using ht
  early := fun e' he' b' hb' => h.early e' he' b' (List.mem_cons_of_mem _ hb')
  late := by
    intro b' hb' e' he'
    rcases List.mem_append.mp hb' with hb' | hb'
    · exact h.late b' hb' e' he'
    · rw [List.mem_singleton] at hb'
      subst hb'
      have hlt : b'.order < e'.order := by
        rcases List.mem_cons.mp he' with rfl | he'
        · exact ho
        · exact UInt32.lt_of_lt_of_le ho (h.extra_le e' he')
      exact ⟨UInt32.le_of_lt hlt, fun heq => absurd heq (UInt32.ne_of_lt hlt)⟩

/-- The front of the extra queue is older: no base surface of its frame order is to come. -/
theorem Progress.drop_extra (h : Progress base extra steps doneB doneE (b :: restB) (e :: restE))
    (ho : e.order < b.order) :
    Progress base extra (steps ++ [.drop e]) doneB (doneE ++ [e]) (b :: restB) restE where
  rising := h.rising
  steady := h.steady
  base_eq := h.base_eq
  extra_eq := by simp [h.extra_eq]
  pairs := by
    rw [pairsOf_append, h.pairs, h.join_done]
    simp [pairsOf, PairingStep.pairs]
  taken := by
    have ht := h.taken.append_right [e]
    simpa [pairsOf, droppedOf, PairingStep.pairs, PairingStep.dropped] using ht
  early := by
    intro e' he' b' hb'
    rcases List.mem_append.mp he' with he' | he'
    · exact h.early e' he' b' hb'
    · rw [List.mem_singleton] at he'
      subst he'
      rcases List.mem_cons.mp hb' with rfl | hb'
      · exact ho
      · exact UInt32.lt_trans ho (h.base_lt b' hb')
  late := by
    intro b' hb' e' he'
    obtain ⟨hle, heq⟩ := h.late b' hb' e' (List.mem_cons_of_mem _ he')
    refine ⟨hle, fun hor => ?_⟩
    obtain ⟨e'', hmem, ho''⟩ := heq hor
    exact ⟨e'', List.mem_append_left _ hmem, ho''⟩

/-- Nothing more can be paired once one of the views is used up. -/
theorem Progress.pairs_eq (h : Progress base extra steps doneB doneE restB restE)
    (hend : restB = [] ∨ restE = []) : pairsOf steps = offlineJoin base extra := by
  have hright : offlineJoin doneB (doneE ++ restE) = offlineJoin doneB doneE :=
    offlineJoin_append_right _ _ _ fun b hb e he => (h.late b hb e he).2
  rw [h.pairs, h.base_eq, h.extra_eq]
  rcases hend with rfl | rfl
  · rw [List.append_nil, hright]
  · have hnil : offlineJoin restB doneE = [] :=
      offlineJoin_eq_nil _ _ fun b hb e he => UInt32.ne_of_lt (h.early e he b hb)
    rw [List.append_nil, offlineJoin_append_left, hnil, List.append_nil]

end Steps

namespace ViewQueues

/-- One step of the queues, with surfaces still to come. -/
theorem step?_progress {base extra doneB doneE comingB comingE : List SurfaceInfo}
    {steps : List PairingStep} {step : PairingStep} {q q' : ViewQueues}
    (h : Progress base extra steps doneB doneE (q.base ++ comingB) (q.extra ++ comingE))
    (hs : q.step? = some (step, q')) :
    ∃ doneB' doneE', Progress base extra (steps ++ [step]) doneB' doneE'
      (q'.base ++ comingB) (q'.extra ++ comingE) := by
  unfold step? at hs
  split at hs
  case h_2 => cases hs
  case h_1 b qb e qe =>
    split at hs
    · rename_i ho
      cases hs
      exact ⟨_, _, h.pair ho⟩
    · rename_i ho
      split at hs
      · rename_i hlt
        cases hs
        exact ⟨_, _, h.drop_base hlt⟩
      · rename_i hge
        cases hs
        have hlt : e.order < b.order := by
          rcases UInt32.lt_or_lt_of_ne ho with hl | hl
          · exact absurd hl hge
          · exact hl
        exact ⟨_, _, h.drop_extra hlt⟩

theorem resolveWithin_progress {base extra doneB doneE comingB comingE : List SurfaceInfo}
    {steps : List PairingStep} (least fuel : Nat) {q : ViewQueues}
    (h : Progress base extra steps doneB doneE (q.base ++ comingB) (q.extra ++ comingE)) :
    ∃ doneB' doneE', Progress base extra (steps ++ (q.resolveWithin least fuel).1) doneB' doneE'
      ((q.resolveWithin least fuel).2.base ++ comingB)
      ((q.resolveWithin least fuel).2.extra ++ comingE) := by
  induction fuel generalizing q steps doneB doneE with
  | zero => exact ⟨doneB, doneE, by simpa [resolveWithin] using h⟩
  | succ fuel ih =>
    unfold resolveWithin
    split
    · split
      · exact ⟨doneB, doneE, by simpa using h⟩
      · rename_i step q' hs
        obtain ⟨doneB', doneE', h'⟩ := step?_progress h hs
        obtain ⟨doneB'', doneE'', h''⟩ := ih h'
        exact ⟨doneB'', doneE'', by simpa using h''⟩
    · exact ⟨doneB, doneE, by simpa using h⟩

/-- A step can be taken as long as no queue is empty. -/
theorem step?_isSome {q : ViewQueues} (hb : q.base ≠ []) (he : q.extra ≠ []) :
    q.step?.isSome := by
  obtain ⟨base, extra⟩ := q
  cases base with
  | nil => exact absurd rfl hb
  | cons b base =>
    cases extra with
    | nil => exact absurd rfl he
    | cons e extra =>
      simp only [step?]
      split
      · rfl
      · split <;> rfl

/-- The steps go on until one of the queues is short. -/
theorem resolveWithin_short {least fuel : Nat} {q : ViewQueues} (hl : 1 ≤ least)
    (hf : q.length ≤ fuel) :
    (q.resolveWithin least fuel).2.base.length < least ∨
      (q.resolveWithin least fuel).2.extra.length < least := by
  induction fuel generalizing q with
  | zero =>
    have : q.base.length + q.extra.length ≤ 0 := hf
    exact Or.inl (by simp only [resolveWithin]; omega)
  | succ fuel ih =>
    unfold resolveWithin
    split
    · rename_i hboth
      have hb : q.base ≠ [] := fun h => by simp [h] at hboth; omega
      have he : q.extra ≠ [] := fun h => by simp [h] at hboth; omega
      split
      · rename_i hs
        have := step?_isSome hb he
        simp [hs] at this
      · rename_i step q' hs
        have := length_step? hs
        exact ih (by omega)
    · rename_i hshort
      change q.base.length < least ∨ q.extra.length < least
      omega

/-- The steps leave one of the queues with fewer than `least` surfaces. -/
theorem resolve_short {least : Nat} (hl : 1 ≤ least) (q : ViewQueues) :
    min (q.resolve least).2.base.length (q.resolve least).2.extra.length < least := by
  have := resolveWithin_short hl (Nat.le_refl q.length)
  unfold resolve
  omega

theorem resolve_progress {base extra doneB doneE comingB comingE : List SurfaceInfo}
    {steps : List PairingStep} (least : Nat) {q : ViewQueues}
    (h : Progress base extra steps doneB doneE (q.base ++ comingB) (q.extra ++ comingE)) :
    ∃ doneB' doneE', Progress base extra (steps ++ (q.resolve least).1) doneB' doneE'
      ((q.resolve least).2.base ++ comingB) ((q.resolve least).2.extra ++ comingE) :=
  resolveWithin_progress least q.length h

end ViewQueues

end Multiview
