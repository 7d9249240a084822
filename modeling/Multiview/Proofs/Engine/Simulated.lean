import Multiview.Engine.Simulated
import Multiview.Proofs.Memory.Frames

/-!
What the simulated engine answers and what it does to locks. It works on one surface at a time: all
earlier operations are complete once it takes another one.
-/

namespace Multiview

open Outcome

/-! ## Locks -/

/-- At most one operation is in flight, and no surface but that of the operation is locked. -/
structure LocksFit (inFlight : List (SyncPoint × LockId)) (r : Resources) : Prop where
  one : inFlight.length ≤ 1
  locked : ∀ id, r.isLocked id = true → ∃ point, inFlight = [(point, id)]
  count : ∀ id, (r.locks.getD id {}).count = 0 ∨ (r.locks.getD id {}).count = 1

theorem getD_unlock (r : Resources) (id id' : LockId) :
    (r.unlock id).locks.getD id' {} =
      if id = id' then (r.locks.getD id' {}).unlock else r.locks.getD id' {} := by
  unfold Resources.unlock
  by_cases h : id = id'
  · subst h
    cases hl : r.locks[id]? <;> simp [List.getD, hl, SurfaceLock.unlock]
  · simp [List.getD, h]

theorem getD_lock_of_ne (r : Resources) {id id' : LockId} (h : id ≠ id') :
    (r.lock id).locks.getD id' {} = r.locks.getD id' {} := by
  simp [Resources.lock, List.getD, h]

theorem getD_lock_self (r : Resources) (id : LockId) :
    (r.lock id).locks.getD id {} = (r.locks.getD id {}).lock ∨
      (r.lock id).locks.getD id {} = r.locks.getD id {} := by
  unfold Resources.lock
  cases hl : r.locks[id]? with
  | none => exact Or.inr (by simp [List.getD, hl])
  | some l => exact Or.inl (by simp [List.getD, hl])

theorem unlock_of_count {l : SurfaceLock} (h : l.count = 0 ∨ l.count = 1) :
    l.unlock.count = 0 := by
  unfold SurfaceLock.unlock
  rcases h with h | h <;> simp [h]

namespace LocksFit

variable {inFlight : List (SyncPoint × LockId)} {r : Resources}

theorem nil (h : ∀ id, (r.locks.getD id {}).count = 0) : LocksFit [] r where
  one := Nat.zero_le _
  locked := fun id hl => by
    simp only [Resources.isLocked, SurfaceLock.isLocked, h id] at hl
    cases hl
  count := fun id => Or.inl (h id)

theorem count_eq_zero (h : LocksFit inFlight r) {id : LockId}
    (hne : ∀ point, inFlight ≠ [(point, id)]) : (r.locks.getD id {}).count = 0 := by
  by_cases hz : (r.locks.getD id {}).count = 0
  · exact hz
  · have hl : r.isLocked id = true := by
      simpa [Resources.isLocked, SurfaceLock.isLocked] using hz
    obtain ⟨point, hp⟩ := h.locked id hl
    exact absurd hp (hne point)

/-- Giving back the surface of the operation in flight. -/
theorem unlock {point : SyncPoint} {id : LockId} (h : LocksFit [(point, id)] r) :
    LocksFit [] (r.unlock id) := by
  refine nil fun id' => ?_
  rw [getD_unlock]
  split
  · exact unlock_of_count (h.count id')
  · rename_i hne
    refine h.count_eq_zero fun point' hp => ?_
    cases hp
    exact hne rfl

theorem unlockAll (h : LocksFit inFlight r) : LocksFit [] (r.unlockAll (inFlight.map (·.2))) := by
  cases inFlight with
  | nil => exact h
  | cons operation rest =>
    cases rest with
    | nil => exact h.unlock
    | cons _ _ => exact absurd h.one (by simp)

theorem lock (h : LocksFit [] r) (point : SyncPoint) (id : LockId) :
    LocksFit [(point, id)] (r.lock id) := by
  have hzero : ∀ id', (r.locks.getD id' {}).count = 0 := fun id' => h.count_eq_zero nofun
  refine ⟨Nat.le_refl 1, fun id' hl => ?_, fun id' => ?_⟩
  · by_cases he : id = id'
    · exact ⟨point, by rw [he]⟩
    · simp only [Resources.isLocked, SurfaceLock.isLocked, getD_lock_of_ne r he, hzero id'] at hl
      cases hl
  · by_cases he : id = id'
    · subst he
      rcases getD_lock_self r id with hs | hs
      · refine Or.inr ?_
        rw [hs, SurfaceLock.lock, hzero id]
        rfl
      · exact Or.inl (by rw [hs, hzero id])
    · exact Or.inl (by rw [getD_lock_of_ne r he, hzero id'])

/-- Only the locks count. -/
theorem of_locks (h : LocksFit inFlight r) {r' : Resources} (hl : r'.locks = r.locks) :
    LocksFit inFlight r' where
  one := h.one
  locked := fun id hid => h.locked id (by simpa [Resources.isLocked, hl] using hid)
  count := fun id => by
    rw [hl]
    exact h.count id

theorem addLocks (h : LocksFit inFlight r) (n : Nat) : LocksFit inFlight (r.addLocks n).2 := by
  have hget : ∀ id, (r.addLocks n).2.locks.getD id {} = r.locks.getD id {} := by
    intro id
    simp only [Resources.addLocks, List.getD, List.getElem?_append, List.getElem?_replicate]
    by_cases hid : id < r.locks.length
    · simp [hid]
    · rw [if_neg hid, List.getElem?_eq_none (Nat.le_of_not_lt hid)]
      split <;> rfl
  refine ⟨h.one, fun id hl => h.locked id ?_, fun id => ?_⟩
  · simpa only [Resources.isLocked, hget] using hl
  · rw [hget]
    exact h.count id

end LocksFit

namespace SimulatedEngine

/-- Nothing has changed that has to do with surfaces. -/
structure Alike (e e' : SimulatedEngine) : Prop where
  inFlight : e'.inFlight = e.inFlight
  allocator : e'.allocator = e.allocator
  nextOrder : e'.nextOrder = e.nextOrder
  lastBaseOrder : e'.lastBaseOrder = e.lastBaseOrder

theorem sync_locks {e : SimulatedEngine} {r : Resources} (point : SyncPoint)
    (h : LocksFit e.inFlight r) :
    LocksFit (e.sync point r).2.1.inFlight (e.sync point r).2.2 := by
  unfold sync
  dsimp only
  split
  · exact h
  · split
    · exact h
    · rename_i lock hfind
      cases hin : e.inFlight with
      | nil =>
        rw [hin] at hfind
        cases hfind
      | cons operation rest =>
        cases rest with
        | cons _ _ => exact absurd h.one (by simp [hin])
        | nil =>
          rw [hin] at hfind h
          have hmem := List.mem_singleton.mp (List.mem_of_find?_eq_some hfind)
          have hp := List.find?_some hfind
          rw [hmem] at hp
          subst hmem
          have herase : [(_, lock)].eraseP (·.1 == point) = ([] : List (SyncPoint × LockId)) :=
            List.eraseP_cons_of_pos hp
          rw [herase]
          exact h.unlock

theorem unlockAll_allocators (ids : List LockId) (r : Resources) :
    (r.unlockAll ids).allocators = r.allocators := by
  unfold Resources.unlockAll
  induction ids generalizing r with
  | nil => rfl
  | cons id ids ih => exact ih (r.unlock id)

theorem Alike.refl (e : SimulatedEngine) : Alike e e := ⟨rfl, rfl, rfl, rfl⟩

theorem Alike.trans {e e' e'' : SimulatedEngine} (h : Alike e e') (h' : Alike e' e'') :
    Alike e e'' where
  inFlight := h'.inFlight.trans h.inFlight
  allocator := h'.allocator.trans h.allocator
  nextOrder := h'.nextOrder.trans h.nextOrder
  lastBaseOrder := h'.lastBaseOrder.trans h.lastBaseOrder

theorem readHeader_sound (input : Bytes) (params : VideoParams) (e : SimulatedEngine) :
    Sound (readHeader input params e) fun x => Alike e x.2.2 := by
  have hcoded : Sound e.traits.codedResolution fun _ => True :=
    round_sound e.traits.display 16
  unfold readHeader
  dsimp only
  split
  · exact Sound.pure ⟨rfl, rfl, rfl, rfl⟩
  · split <;> split
    · exact Sound.pure ⟨rfl, rfl, rfl, rfl⟩
    · exact hcoded.bind fun _ _ => Sound.pure ⟨rfl, rfl, rfl, rfl⟩
    · exact Sound.pure ⟨rfl, rfl, rfl, rfl⟩
    · exact hcoded.bind fun _ _ => Sound.pure ⟨rfl, rfl, rfl, rfl⟩

/-- Reading a header is counted, and leaves no other trace. -/
theorem readHeader_engine (input : Bytes) (params : VideoParams) (e : SimulatedEngine) :
    Yields (readHeader input params e) fun x =>
      x.2.2 = { e with headerProbes := e.headerProbes + 1 } := by
  unfold readHeader
  dsimp only
  split
  · exact .pure rfl
  · generalize ({ params.sequence with
      viewCount := _, viewIdCount := _, pointCount := 1 } : SequenceDesc) = sequence
    split
    · exact .pure rfl
    · exact (round_sound e.traits.display 16).yields.bind fun _ _ => .pure rfl

theorem query_alike (params : VideoParams) (e : SimulatedEngine) :
    Alike e (query params e).2.2 := by
  unfold query
  split <;> exact .refl e

theorem init_alike (params : VideoParams) (e : SimulatedEngine) :
    Alike e (init params e).2 := by
  unfold init
  split
  · exact .refl e
  · exact ⟨rfl, rfl, rfl, rfl⟩

theorem prepare_alike (p : Preparation) (e : SimulatedEngine) : Alike e (prepare p e) := by
  cases p <;> exact ⟨rfl, rfl, rfl, rfl⟩

/-! ## Decoding -/

/-- The engine gave no surface. Either nothing was done or all operations were completed. -/
structure Idled (e : SimulatedEngine) (r : Resources) (a : DecodeAnswer SimulatedEngine) : Prop where
  output : a.output = none
  allocator : a.engine.allocator = e.allocator
  nextOrder : a.engine.nextOrder = e.nextOrder
  lastBaseOrder : a.engine.lastBaseOrder = e.lastBaseOrder
  locks : a.engine.inFlight = e.inFlight ∧ a.resources = r ∨
    a.engine.inFlight = [] ∧ a.resources = r.unlockAll (e.inFlight.map (·.2))

/-- The engine started to decode a slice into the surface that it was given. -/
structure Sliced (work : WorkSurface) (e : SimulatedEngine) (r : Resources)
    (a : DecodeAnswer SimulatedEngine) (d : DecodedSurface) : Prop where
  output : a.output = some d
  status : a.status = .ok
  mid : d.mid = work.mid
  allocator : a.engine.allocator = e.allocator
  inFlight : a.engine.inFlight = [(d.sync, work.lock)]
  order : d.info.viewId = 0 ∧ d.frameMeta.frameOrder = e.nextOrder ∧
      a.engine.nextOrder.toNat = e.nextOrder.toNat + 1 ∧ a.engine.lastBaseOrder = e.nextOrder ∨
    d.info.viewId = 1 ∧ d.frameMeta.frameOrder = e.lastBaseOrder ∧
      a.engine.nextOrder = e.nextOrder ∧ a.engine.lastBaseOrder = e.lastBaseOrder
  locks : a.resources.locks = ((r.unlockAll (e.inFlight.map (·.2))).lock work.lock).locks
  painted : Painted e.allocator work.mid (lumaPattern d.info.viewId d.frameMeta.frameOrder)
    r a.resources

theorem consume_sound (b : Bitstream) (n : Nat) : Sound (b.consume n) fun _ => True :=
  (below_sound _ _).bind fun _ _ => .ok trivial

/-- Orders count the slices of the base view. -/
theorem nextPicture_sound (u : NalUnit) (e : SimulatedEngine) :
    Sound (nextPicture u e) fun x =>
      x.2.2.inFlight = e.inFlight ∧ x.2.2.allocator = e.allocator ∧
      (x.1 = 0 ∧ x.2.1 = e.nextOrder ∧ x.2.2.nextOrder.toNat = e.nextOrder.toNat + 1 ∧
          x.2.2.lastBaseOrder = e.nextOrder ∨
        x.1 = 1 ∧ x.2.1 = e.lastBaseOrder ∧ x.2.2.nextOrder = e.nextOrder ∧
          x.2.2.lastBaseOrder = e.lastBaseOrder) := by
  unfold nextPicture
  split
  · unfold below
    split
    · rename_i hlt
      refine Sound.pure ⟨rfl, rfl, Or.inl ⟨rfl, rfl, ?_, rfl⟩⟩
      exact UInt32.toNat_ofNat_of_lt' hlt
    · exact .error nofun
  · exact Sound.pure ⟨rfl, rfl, Or.inr ⟨rfl, rfl, rfl, rfl⟩⟩

theorem decodeSlice_sound (params : VideoParams) (u : NalUnit) (stream : Bitstream)
    (work : WorkSurface) (e : SimulatedEngine) (r : Resources) (hin : e.inFlight = []) :
    Sound (decodeSlice params u stream work e r) fun a => ∃ d, Sliced work e r a d := by
  unfold decodeSlice
  refine (consume_sound stream u.stop).bind fun stream' _ => ?_
  refine (nextPicture_sound u e).bind ?_
  rintro ⟨viewId, order, e'⟩ ⟨hin', hal, horder⟩
  dsimp only at hin' hal horder ⊢
  have hfly : ∀ point, e'.inFlight ++ [(point, work.lock)] = [(point, work.lock)] := by
    intro point
    rw [hin', hin]
    rfl
  have hlock : (r.unlockAll (e.inFlight.map (·.2))).lock work.lock = r.lock work.lock := by
    rw [hin]
    rfl
  cases ha : e'.allocator with
  | none =>
    have hnone : e.allocator = none := hal.symm.trans ha
    refine Sound.pure ⟨_, ⟨rfl, rfl, rfl, hnone.symm ▸ rfl, hfly _, horder, ?_, ?_⟩⟩
    · rw [hlock]
    · exact .of_eq rfl fun id _ hid => by rw [hnone] at hid; cases hid
  | some id =>
    have hsome : e.allocator = some id := hal.symm.trans ha
    refine ((r.lock work.lock).fillLuma_sound id work.mid _).bind ?_
    intro r' ⟨hlocks, hpainted⟩
    refine Sound.pure ⟨_, ⟨rfl, rfl, rfl, hsome.symm ▸ rfl, hfly _, horder, ?_, ?_⟩⟩
    · rw [hlock, hlocks]
    · rw [hsome]
      exact hpainted.of_allocators rfl

theorem decode_sound (input : Option Bitstream) (work : WorkSurface) (e : SimulatedEngine)
    (r : Resources) :
    Sound (decode input work e r) fun a =>
      Idled e r a ∨ input.isSome = true ∧ ∃ d, Sliced work e r a d := by
  unfold decode
  split
  · exact .ok (Or.inl ⟨rfl, rfl, rfl, rfl, Or.inl ⟨rfl, rfl⟩⟩)
  · exact .ok (Or.inl ⟨rfl, rfl, rfl, rfl, Or.inl ⟨rfl, rfl⟩⟩)
  · exact .ok (Or.inl ⟨rfl, rfl, rfl, rfl, Or.inl ⟨rfl, rfl⟩⟩)
  · dsimp only [completeAll]
    split
    · exact .ok (Or.inl ⟨rfl, rfl, rfl, rfl, Or.inr ⟨rfl, rfl⟩⟩)
    · exact .ok (Or.inl ⟨rfl, rfl, rfl, rfl, Or.inr ⟨rfl, rfl⟩⟩)
    · rename_i params stream _
      split
      · refine (consume_sound _ _).bind fun stream' _ => ?_
        exact Sound.pure (Or.inl ⟨rfl, rfl, rfl, rfl, Or.inr ⟨rfl, rfl⟩⟩)
      · refine (decodeSlice_sound params _ stream work _ _ rfl).mono ?_
        intro a ⟨d, hd⟩
        refine Or.inr ⟨rfl, d, ⟨hd.output, hd.status, hd.mid, hd.allocator, hd.inFlight, hd.order,
          hd.locks, hd.painted.of_allocators (unlockAll_allocators _ _)⟩⟩

theorem nextPicture_rest (u : NalUnit) (e : SimulatedEngine) :
    Yields (nextPicture u e) fun x => ∃ nextOrder lastBaseOrder,
      x.2.2 = { e with nextOrder := nextOrder, lastBaseOrder := lastBaseOrder } := by
  unfold nextPicture
  split
  · exact (below_sound _ _).yields.bind fun _ _ => .pure ⟨_, _, rfl⟩
  · exact .pure ⟨_, _, rfl⟩

theorem decodeSlice_rest (params : VideoParams) (u : NalUnit) (stream : Bitstream)
    (work : WorkSurface) (e : SimulatedEngine) (r : Resources) :
    Yields (decodeSlice params u stream work e r) fun a => a.status = .ok ∧
      ∃ nextSync nextOrder lastBaseOrder inFlight, a.engine = { e with
        nextSync := nextSync, nextOrder := nextOrder, lastBaseOrder := lastBaseOrder
        inFlight := inFlight } := by
  unfold decodeSlice
  refine (consume_sound stream u.stop).yields.bind fun stream' _ => ?_
  refine (nextPicture_rest u e).bind ?_
  rintro ⟨viewId, order, _⟩ ⟨_, _, rfl⟩
  dsimp only
  split
  · exact .pure ⟨rfl, _, _, _, _, rfl⟩
  · refine Yields.bind (p := fun _ => True) (fun _ _ => trivial) fun _ _ => .pure ?_
    exact ⟨rfl, _, _, _, _, rfl⟩

/-- The engine has gone on decoding. What it was set up with, and what else it counts, is as before. -/
def GoneOn (e e' : SimulatedEngine) : Prop :=
  ∃ busy injected submissions nextSync nextOrder lastBaseOrder inFlight, e' = { e with
    busy := busy, injected := injected, submissions := submissions, nextSync := nextSync
    nextOrder := nextOrder, lastBaseOrder := lastBaseOrder, inFlight := inFlight }

theorem decode_goneOn (input : Option Bitstream) (work : WorkSurface) (e : SimulatedEngine)
    (r : Resources) : Yields (decode input work e r) fun a => GoneOn e a.engine := by
  unfold decode
  split
  · exact .ok ⟨_, _, _, _, _, _, _, rfl⟩
  · exact .ok ⟨_, _, _, _, _, _, _, rfl⟩
  · exact .ok ⟨_, _, _, _, _, _, _, rfl⟩
  · dsimp only [completeAll]
    split
    · exact .ok ⟨_, _, _, _, _, _, _, rfl⟩
    · exact .ok ⟨_, _, _, _, _, _, _, rfl⟩
    · split
      · exact (consume_sound _ _).yields.bind fun _ _ => .pure ⟨_, _, _, _, _, _, _, rfl⟩
      · refine (decodeSlice_rest _ _ _ work _ _).mono ?_
        rintro a ⟨-, _, _, _, _, ha⟩
        exact ⟨_, _, _, _, _, _, _, ha⟩

/-- Locks stay in step with the operation in flight. -/
theorem Idled.locksFit {e : SimulatedEngine} {r : Resources} {a : DecodeAnswer SimulatedEngine}
    (h : Idled e r a) (hl : LocksFit e.inFlight r) : LocksFit a.engine.inFlight a.resources := by
  rcases h.locks with ⟨hin, hr⟩ | ⟨hin, hr⟩
  · rw [hin, hr]
    exact hl
  · rw [hin, hr]
    exact hl.unlockAll

theorem Sliced.locksFit {work : WorkSurface} {e : SimulatedEngine} {r : Resources}
    {a : DecodeAnswer SimulatedEngine} {d : DecodedSurface} (h : Sliced work e r a d)
    (hl : LocksFit e.inFlight r) : LocksFit a.engine.inFlight a.resources := by
  rw [h.inFlight]
  exact (hl.unlockAll.lock d.sync work.lock).of_locks h.locks

end SimulatedEngine

end Multiview
