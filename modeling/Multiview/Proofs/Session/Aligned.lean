import Mathlib.Data.List.Forall2
import Multiview.Proofs.Session.Delivery

/-!
Queues of a stream in which every picture has both views. The queues hold the views of the same
pictures in the same order, so that pairing drops nothing: it makes pictures in order and leaves fewer
than the threshold waiting.
-/

namespace Multiview

open Outcome

/-- One view of picture number `n` of a stream. -/
structure IsView (viewId : UInt16) (n : Nat) (x : SurfaceInfo) : Prop where
  viewId : x.info.viewId = viewId
  order : x.order.toNat = n
  timestamp : x.frameMeta.streamTimestamp = some (UInt64.ofNat n)

/-- Picture number `n` of a stream. -/
structure IsPicture (n : Nat) (p : Picture) : Prop where
  base : IsView 0 n p.base
  extra : IsView 1 n p.extra

/-- The queues hold the views of `count` pictures, the first of them number `first`. -/
structure Aligned (first count : Nat) (q : ViewQueues) : Prop where
  base : List.Forall₂ (IsView 0) (List.range' first count) q.base
  extra : List.Forall₂ (IsView 1) (List.range' first count) q.extra

namespace Aligned

variable {first count : Nat} {q : ViewQueues}

theorem nil (first : Nat) : Aligned first 0 {} := ⟨.nil, .nil⟩

theorem length_base (h : Aligned first count q) : q.base.length = count := by
  rw [← h.base.length_eq, List.length_range']

theorem length_extra (h : Aligned first count q) : q.extra.length = count := by
  rw [← h.extra.length_eq, List.length_range']

theorem eq_nil (h : Aligned first 0 q) : q = {} := by
  have hb := List.length_eq_zero_iff.mp h.length_base
  have he := List.length_eq_zero_iff.mp h.length_extra
  calc q
    _ = ⟨q.base, q.extra⟩ := rfl
    _ = {} := by rw [hb, he]

/-- The oldest surfaces are the views of one picture. -/
theorem cons (h : Aligned first (count + 1) q) : ∃ b e base extra,
    q = ⟨b :: base, e :: extra⟩ ∧ IsView 0 first b ∧ IsView 1 first e ∧
      Aligned (first + 1) count ⟨base, extra⟩ := by
  obtain ⟨base, extra⟩ := q
  obtain ⟨hb, he⟩ := h
  rw [List.range'_succ] at hb he
  cases hb with
  | cons hb hbase =>
    cases he with
    | cons he hextra => exact ⟨_, _, _, _, rfl, hb, he, hbase, hextra⟩

/-- Both views of the next picture. -/
theorem push (h : Aligned first count q) {b e : SurfaceInfo} (hb : IsView 0 (first + count) b)
    (he : IsView 1 (first + count) e) :
    Aligned first (count + 1) ⟨q.base ++ [b], q.extra ++ [e]⟩ := by
  have hrange : List.range' first (count + 1) = List.range' first count ++ [first + count] := by
    rw [List.range'_concat, Nat.one_mul]
  refine ⟨?_, ?_⟩
  · rw [hrange]
    exact List.rel_append h.base (.cons hb .nil)
  · rw [hrange]
    exact List.rel_append h.extra (.cons he .nil)

end Aligned

theorem IsView.push_base {n : Nat} {x : SurfaceInfo} (hx : IsView 0 n x) (q : ViewQueues) :
    q.push x = { q with base := q.base ++ [x] } := if_pos hx.viewId

theorem IsView.push_extra {n : Nat} {x : SurfaceInfo} (hx : IsView 1 n x) (q : ViewQueues) :
    q.push x = { q with extra := q.extra ++ [x] } := by
  refine if_neg ?_
  rw [hx.viewId]
  decide

theorem IsView.fits {n : Nat} {b e : SurfaceInfo} (hb : IsView 0 n b) (he : IsView 1 n e) :
    Fits b e := by
  refine ⟨hb.viewId, ?_, UInt32.toNat_inj.mp (hb.order.trans he.order.symm)⟩
  rw [he.viewId]
  decide

namespace Session

variable {pool : PoolId} {s t : Session SimulatedEngine}

/-- Pictures number `first` and on were made, `made` of them, one after another. -/
structure Made (first made : Nat) (s t : Session SimulatedEngine) : Prop where
  table : ∃ pictures, t.pools.pictures = s.pools.pictures ++ pictures ∧
    List.Forall₂ IsPicture (List.range' first made) pictures
  pictures : t.pictures = s.pictures ++ List.range' s.pools.pictures.length made

theorem Made.none {first : Nat} (hp : t.pools.pictures = s.pools.pictures)
    (ht : t.pictures = s.pictures) : Made first 0 s t :=
  ⟨⟨[], by rw [hp, List.append_nil], .nil⟩, by rw [ht]; exact (List.append_nil _).symm⟩

/-- All but the last `least - 1` pictures are made. -/
theorem pairWithin_aligned {least : Nat} (hl : 1 ≤ least) (pool : PoolId) (fuel : Nat)
    {first count : Nat} (hq : Aligned first count s.queues) (hf : count ≤ fuel) :
    Returns (pairWithin pool least fuel s) fun t => Tidied s t ∧
      Made first (count + 1 - least) s t ∧
      Aligned (first + (count + 1 - least)) (count - (count + 1 - least)) t.queues := by
  have hdone : count < least → Returns (.ok s : Outcome (Session SimulatedEngine)) fun t =>
      Tidied s t ∧ Made first (count + 1 - least) s t ∧
        Aligned (first + (count + 1 - least)) (count - (count + 1 - least)) t.queues := by
    intro hlt
    have hzero : count + 1 - least = 0 := by omega
    rw [hzero]
    exact .ok ⟨.refl s, .none rfl rfl, hq⟩
  induction fuel generalizing s first count with
  | zero => exact hdone (by omega)
  | succ fuel ih =>
    unfold pairWithin
    rw [hq.length_base, hq.length_extra]
    by_cases hle : least ≤ count
    · rw [if_pos ⟨hle, hle⟩]
      obtain ⟨count, rfl⟩ : ∃ n, count = n + 1 := ⟨count - 1, by omega⟩
      obtain ⟨b, e, base, extra, hqueues, hb, he, hrest⟩ := hq.cons
      have hstep : s.queues.step? = some (.pair b e, ⟨base, extra⟩) := by
        rw [hqueues]
        exact if_pos (hb.fits he).2.2
      rw [hstep]
      dsimp only
      obtain ⟨t, ht, hw⟩ := perform_pair (hb.fits he) pool (s.withQueues ⟨base, extra⟩)
      rw [ht]
      have hkeep := hw.eq_withEngine
      have htidied : Tidied s t := Tidied.trans (.edit s _ _ _ _) hw.tidied
      have hqt : t.queues = ⟨base, extra⟩ := by
        rw [hkeep]
        rfl
      have htable : t.pools.pictures = s.pools.pictures ++ [⟨b, e, pool, 1⟩] := by
        rw [hkeep]
        rfl
      have hpics : t.pictures = s.pictures ++ [s.pools.pictures.length] := by
        rw [hkeep]
        rfl
      have hrest' : Aligned (first + 1) count t.queues := by
        rw [hqt]
        exact hrest
      obtain ⟨u, hu, htidied', ⟨⟨made, hmade, hall⟩, hwaiting⟩, haligned⟩ :=
        ih hrest' (by omega) (fun hlt => by
          have hzero : count + 1 - least = 0 := by omega
          rw [hzero]
          exact .ok ⟨.refl t, .none rfl rfl, hrest'⟩)
      have hcount : count + 1 + 1 - least = count + 1 - least + 1 := by omega
      refine ⟨u, hu, htidied.trans htidied', ⟨⟨⟨b, e, pool, 1⟩ :: made, ?_, ?_⟩, ?_⟩, ?_⟩
      · rw [hmade, htable, List.append_assoc]
        rfl
      · rw [hcount, List.range'_succ]
        exact .cons ⟨hb, he⟩ hall
      · rw [hwaiting, hpics, htable, List.length_append, List.append_assoc, hcount,
          List.range'_succ]
        rfl
      · rw [hcount, Nat.add_comm _ 1, ← Nat.add_assoc, Nat.add_comm 1, Nat.add_sub_add_right]
        exact haligned
    · rw [if_neg (fun h => hle h.1)]
      exact hdone (by omega)

theorem pairQueued_aligned {least : Nat} (hl : 1 ≤ least) (hc : s.current = some pool)
    {first count : Nat} (hq : Aligned first count s.queues) :
    Returns (s.pairQueued least) fun t => Tidied s t ∧ Made first (count + 1 - least) s t ∧
      Aligned (first + (count + 1 - least)) (count - (count + 1 - least)) t.queues := by
  rw [pairQueued_eq hc]
  refine pairWithin_aligned hl pool _ hq ?_
  rw [ViewQueues.length, hq.length_base]
  exact Nat.le_add_right _ _

/-- A view that waits alone makes no picture. -/
theorem pairQueued_short {least : Nat} (hc : s.current = some pool)
    (h : s.queues.extra.length < least) : s.pairQueued least = .ok s := by
  rw [pairQueued_eq hc]
  cases s.queues.length with
  | zero => rfl
  | succ n =>
    unfold pairWithin
    exact if_neg fun hl => Nat.lt_irrefl _ (Nat.lt_of_lt_of_le h hl.2)

end Session

end Multiview
