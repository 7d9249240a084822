import Mathlib.Data.List.Nodup
import Mathlib.Data.List.Pairwise
import Multiview.Proofs.Memory.Furnished

/-!
The books of an allocator: the responses that it holds. They are sound if requesters are told apart by
their numbers and responses by their frames. A store that backs sound books has exactly the frames that
are entered in them, and an allocator over such a store keeps its books sound: a response is entered
when its frames are new, and struck out when they are given back.
-/

namespace Multiview

open Outcome

structure Books where
  external : List Response
  oneShot : List Response

namespace Books

def held (b : Books) : List Response := b.external ++ b.oneShot

/-- The frames of all held responses. -/
def mids (b : Books) : List MemId := b.held.flatMap (·.mids)

/-- Books without any entry. -/
def blank : Books := ⟨[], []⟩

/-- The books with a new response to a request. -/
def enter (r : Request) (mids : List MemId) (b : Books) : Books :=
  if r.isExternal then { b with external := b.external ++ [⟨r.allocId, mids⟩] }
  else { b with oneShot := b.oneShot ++ [⟨0, mids⟩] }

/-- The books without a response. -/
def strike (x : Response) (b : Books) : Books := ⟨b.external.erase x, b.oneShot.erase x⟩

/-- The requester of `r` has no frames yet, if they would be handed to it again. -/
def Unknown (r : Request) (b : Books) : Prop :=
  r.isExternal = true → ∀ x ∈ b.external, x.allocId ≠ r.allocId

/-- No requester and no frame is entered twice. -/
structure Sound (b : Books) : Prop where
  requesters : (b.external.map (·.allocId)).Nodup
  present : ∀ x ∈ b.held, x.mids ≠ []
  apart : b.mids.Nodup

variable {b : Books} {x y given : Response} {r : Request} {mids : List MemId}

theorem sound_blank : blank.Sound := ⟨List.nodup_nil, nofun, List.nodup_nil⟩

theorem mem_mids {mid : MemId} : mid ∈ b.mids ↔ ∃ x ∈ b.held, mid ∈ x.mids := List.mem_flatMap

theorem held_enter (r : Request) (mids : List MemId) (b : Books) :
    ∃ id, (b.enter r mids).held.Perm (⟨id, mids⟩ :: b.held) := by
  unfold enter held
  split
  · refine ⟨r.allocId, ?_⟩
    rw [List.append_assoc, List.singleton_append]
    exact List.perm_middle
  · refine ⟨0, ?_⟩
    rw [← List.append_assoc]
    exact List.perm_append_singleton _ _

theorem mids_enter (r : Request) (mids : List MemId) (b : Books) :
    (b.enter r mids).mids.Perm (mids ++ b.mids) := by
  obtain ⟨id, hperm⟩ := held_enter r mids b
  exact hperm.flatMap_right _

theorem Sound.enter (h : b.Sound) (hr : b.Unknown r) (hp : mids ≠ []) (hn : mids.Nodup)
    (hd : ∀ mid ∈ mids, mid ∉ b.mids) : (b.enter r mids).Sound where
  requesters := by
    unfold Books.enter
    split
    · rename_i hext
      rw [List.map_append, List.nodup_append']
      refine ⟨h.requesters, List.nodup_singleton _, ?_⟩
      rw [List.map_singleton, List.disjoint_singleton, List.mem_map]
      rintro ⟨x, hx, heq⟩
      exact hr hext x hx heq
    · exact h.requesters
  present := by
    obtain ⟨id, hperm⟩ := held_enter r mids b
    intro x hx
    rcases List.mem_cons.mp (hperm.subset hx) with rfl | hx
    · exact hp
    · exact h.present x hx
  apart := (mids_enter r mids b).nodup_iff.mpr (hn.append h.apart fun mid hm => hd mid hm)

/-- Responses with a frame in common are the same. -/
theorem Sound.eq_of_mem (h : b.Sound) (hx : x ∈ b.held) (hy : y ∈ b.held) {mid : MemId}
    (hm : mid ∈ x.mids) (hm' : mid ∈ y.mids) : x = y := by
  have hsymm : Std.Symm fun x y : Response => List.Disjoint x.mids y.mids := ⟨fun _ _ hd _ hx hy => hd hy hx⟩
  have hpair : b.held.Pairwise fun x y => List.Disjoint x.mids y.mids :=
    (List.nodup_flatMap.mp h.apart).2
  by_contra hne
  exact hpair.forall hx hy hne hm hm'

/-- A response is recognised by its first frame. -/
theorem Sound.eq_of_matches (h : b.Sound) (hx : x ∈ b.held) (hy : y ∈ b.held)
    (hxg : x.matches given = true) (hyg : y.matches given = true) : x = y := by
  unfold Response.matches at hxg hyg
  simp only [Bool.and_eq_true, beq_iff_eq] at hxg hyg
  obtain ⟨mid, rest, hmids⟩ := List.exists_cons_of_ne_nil (h.present x hx)
  have hmid : x.mids.head? = some mid := by rw [hmids, List.head?_cons]
  have hmid' : y.mids.head? = some mid := by rw [hyg.1.2, ← hxg.1.2, hmid]
  exact h.eq_of_mem hx hy (List.mem_of_head? hmid) (List.mem_of_head? hmid')

theorem Sound.nodup_held (h : b.Sound) : b.held.Nodup := by
  refine (List.nodup_flatMap.mp h.apart).2.imp_of_mem fun {x y} hx _ hd heq => ?_
  subst heq
  obtain ⟨mid, hm⟩ := List.exists_mem_of_ne_nil _ (h.present x hx)
  exact hd hm hm

/-- The two lists have no response in common. -/
theorem Sound.not_both (h : b.Sound) (he : x ∈ b.external) : x ∉ b.oneShot :=
  fun ho => (List.nodup_append'.mp h.nodup_held).2.2 he ho

theorem Sound.held_strike (h : b.Sound) (hx : x ∈ b.held) :
    b.held.Perm (x :: (b.strike x).held) := by
  unfold held strike
  rcases List.mem_append.mp hx with he | ho
  · rw [List.erase_of_not_mem (h.not_both he)]
    exact (List.perm_cons_erase he).append_right _
  · have hne : x ∉ b.external := fun he => h.not_both he ho
    rw [List.erase_of_not_mem hne]
    exact ((List.perm_cons_erase ho).append_left _).trans List.perm_middle

theorem Sound.mids_strike (h : b.Sound) (hx : x ∈ b.held) :
    b.mids.Perm (x.mids ++ (b.strike x).mids) :=
  (h.held_strike hx).flatMap_right _

theorem Sound.strike (h : b.Sound) (hx : x ∈ b.held) : (b.strike x).Sound where
  requesters := h.requesters.sublist (List.erase_sublist.map _)
  present := fun y hy => h.present y ((h.held_strike hx).symm.subset (List.mem_cons_of_mem _ hy))
  apart := ((h.mids_strike hx).nodup_iff.mp h.apart).of_append_right

/-- The frames of a response are not among those that are left. -/
theorem Sound.not_mem_strike (h : b.Sound) (hx : x ∈ b.held) {mid : MemId} (hm : mid ∈ x.mids) :
    mid ∉ (b.strike x).mids := fun hs =>
  (List.nodup_append'.mp ((h.mids_strike hx).nodup_iff.mp h.apart)).2.2 hm hs

end Books

/-! ## Stores -/

/-- The frame is not there. -/
def Gone {β : Type} [FrameStore β] (mid : MemId) (s : β) : Prop :=
  (∃ e, FrameStore.view mid s = .error e) ∧ ∃ e, FrameStore.handle mid s = .error e

/-- The frame has the same buffer, or the same place on the device, if it is there. -/
structure Untouched {β : Type} [FrameStore β] (mid : MemId) (s s' : β) : Prop where
  view : FrameStore.view mid s' = FrameStore.view mid s
  handle : FrameStore.handle mid s' = FrameStore.handle mid s

theorem untouched_self {β : Type} [FrameStore β] (mid : MemId) (s : β) : Untouched mid s s :=
  ⟨rfl, rfl⟩

/-- Blocks that a refused request had before it was refused one. It may not have asked for any. -/
def Platform.wasted (p p' : Platform) : Nat := p'.memory.requests - p.memory.requests - 1

theorem Platform.wasted_asked (n : Nat) (p : Platform) : p.wasted (p.asked n) = n - 1 :=
  congrArg (· - 1) (Nat.add_sub_cancel_left _ _)

/-- A store `s'` that serves a request with new frames, after `n` frames made before. -/
structure Supplied {β : Type} [FrameStore β] (backs : Nat → Books → β → Platform → Prop) (n : Nat)
    (b : Books) (r : Request) (mids : List MemId) (s s' : β) (p' : Platform) : Prop where
  nodup : mids.Nodup
  new : ∀ mid ∈ mids, mid ∉ b.mids
  backs : backs (n + mids.length) (b.enter r mids) s' p'
  untouched : ∀ mid ∈ b.mids, Untouched mid s s'

/-- What becomes of a store that is asked for new frames. When it cannot make all of them, those that it
made are given up. Identifiers last for so many frames. -/
def Answered {β : Type} [FrameStore β] (backs : Nat → Books → β → Platform → Prop) (n : Nat)
    (b : Books) (r : Request) (s : β) (p : Platform)
    (x : Except AllocError (List MemId) × β × Platform) : Prop :=
  match x.1 with
  | .error _ => backs (n + p.wasted x.2.2) b x.2.1 x.2.2 ∧ ∀ mid, Untouched mid s x.2.1
  | .ok mids => mids.length = r.suggested.toNat ∧
      (n + mids.length < hostIdBase → Supplied backs n b r mids s x.2.1 x.2.2)

/-- The size of a frame in host memory is a word. -/
def Request.Fits (r : Request) : Prop := (HostLayout.ofInfo r.info).size < wordLimit

/-- Stores that have exactly the frames which are entered in the books. `backs` holds of the number of
frames made so far, the books, and a store that backs them. -/
structure Backing (β : Type) [FrameStore β] (backs : Nat → Books → β → Platform → Prop) : Prop where
  mono : ∀ {n m b s p}, n ≤ m → backs n b s p → backs m b s p
  allocate : ∀ {n b s p r}, backs n b s p → b.Sound → b.Unknown r → r.suggested ≠ 0 →
    Yields (FrameStore.allocate r s p) (Answered backs n b r s p)
  answers : ∀ {r} s p, r.Fits → Returns (FrameStore.allocate r (s : β) p) fun _ => True
  release : ∀ {n b s p x}, backs n b s p → b.Sound → x ∈ b.held →
    ∃ s' p', FrameStore.release x.mids s p = (.ok (), s', p') ∧ backs n (b.strike x) s' p' ∧
      (∀ mid ∈ x.mids, Gone mid s') ∧ ∀ mid ∈ (b.strike x).mids, Untouched mid s s'
  fill : ∀ {n b s p} mid start stop value, backs n b s p →
    Yields (FrameStore.fill mid start stop value s) fun s' => backs n b s' p
  close : ∀ {n s p}, backs n .blank s p →
    ∃ s' p', FrameStore.close s p = (.ok (), s', p') ∧ backs n .blank s' p'

/-! ## Allocators -/

namespace Allocator

variable {β : Type}

def books (a : Allocator β) : Books := ⟨a.external, a.oneShot⟩

variable {a : Allocator β} {p : Platform} {r : Request} {x given : Response}

theorem find?_of_unique {l : List Response} {q : Response → Bool} (hx : x ∈ l) (hq : q x = true)
    (h : ∀ y ∈ l, q y = true → y = x) : l.find? q = some x := by
  obtain ⟨y, hy⟩ := Option.isSome_iff_exists.mp (List.find?_isSome.mpr ⟨x, hx, hq⟩)
  rw [hy, h y (List.mem_of_find?_eq_some hy) (List.find?_some hy)]

theorem eraseP_of_unique {l : List Response} {q : Response → Bool} (hq : q x = true)
    (h : ∀ y ∈ l, q y = true → y = x) : l.eraseP q = l.erase x := by
  induction l with
  | nil => rfl
  | cons y l ih =>
    by_cases hy : y = x
    · rw [hy, List.eraseP_cons_of_pos hq, List.erase_cons_head]
    · have hnot : ¬ q y = true := fun hqy => hy (h y List.mem_cons_self hqy)
      rw [List.eraseP_cons_of_neg hnot, List.erase_cons_tail (by simpa using hy),
        ih fun z hz => h z (List.mem_cons_of_mem _ hz)]

theorem held_erase (h : a.books.Sound) (x : Response) :
    (a.books.strike x).held = a.held.erase x := by
  unfold Books.strike Books.held Allocator.held
  by_cases he : x ∈ a.external
  · have ho : a.books.oneShot.erase x = a.oneShot := List.erase_of_not_mem (h.not_both he)
    rw [List.erase_append_left _ he, ho]
    rfl
  · have hsame : a.books.external.erase x = a.external := List.erase_of_not_mem he
    rw [List.erase_append_right _ he]
    exact congrArg (· ++ a.oneShot.erase x) hsame

/-- A requester that has frames is known. -/
theorem heldFor_eq_none_iff : (if r.isExternal then a.heldFor r.allocId else none) = none ↔
    a.books.Unknown r := by
  unfold Books.Unknown heldFor
  split
  · rename_i hext
    rw [List.find?_eq_none]
    simp [hext, books]
  · rename_i hext
    simp [hext]

/-- New frames are entered in the books. -/
theorem takeOver_ok (r : Request) (a : Allocator β) (mids : List MemId) (s : β) (p : Platform) :
    ∃ response a', takeOver r a (.ok mids, s, p) = (.ok response, a', p) ∧ response.mids = mids ∧
      a'.store = s ∧ a'.books = a.books.enter r mids := by
  unfold takeOver Books.enter
  dsimp only
  split
  · exact ⟨_, _, rfl, rfl, rfl, rfl⟩
  · exact ⟨_, _, rfl, rfl, rfl, rfl⟩

variable [FrameStore β]

/-- A response that is held is found by any response that it matches, and goes back to the store. -/
theorem free_of_matches (h : a.books.Sound) (hx : x ∈ a.held) (hm : x.matches given = true)
    (p : Platform) :
    a.free given p =
      ((FrameStore.release x.mids a.store p).1,
        ⟨(FrameStore.release x.mids a.store p).2.1, a.oneShot.erase x, a.external.erase x⟩,
        (FrameStore.release x.mids a.store p).2.2) := by
  have heq : ∀ y ∈ a.held, y.matches given = true → y = x := fun y hy hyg =>
    h.eq_of_matches hy hx hyg hm
  have hfind : ∀ l : List Response, (∀ y ∈ l, y ∈ a.held) → x ∈ l →
      l.find? (·.matches given) = some x ∧ l.eraseP (·.matches given) = l.erase x :=
    fun l hl hxl => ⟨find?_of_unique hxl hm fun y hy => heq y (hl y hy),
      eraseP_of_unique hm fun y hy => heq y (hl y hy)⟩
  unfold free
  by_cases he : x ∈ a.external
  · obtain ⟨hfound, herase⟩ := hfind a.external (fun y hy => List.mem_append_left _ hy) he
    have hone : a.oneShot.erase x = a.oneShot := List.erase_of_not_mem (h.not_both he)
    rw [hfound, herase, hone]
  · have ho : x ∈ a.oneShot := (List.mem_append.mp hx).resolve_left he
    obtain ⟨hfound, herase⟩ := hfind a.oneShot (fun y hy => List.mem_append_right _ hy) ho
    have hnone : a.external.find? (·.matches given) = none := by
      rw [List.find?_eq_none]
      intro y hy hyg
      exact he (heq y (List.mem_append_left _ hy) hyg ▸ hy)
    rw [hnone, hfound, herase, List.erase_of_not_mem he]

theorem free_of_not_matches (h : ∀ x ∈ a.held, ¬ x.matches given = true) (p : Platform) :
    a.free given p = (.error .unknownResponse, a, p) := by
  have hnone : a.external.find? (·.matches given) = none ∧
      a.oneShot.find? (·.matches given) = none := by
    rw [List.find?_eq_none, List.find?_eq_none]
    exact ⟨fun x hx => h x (List.mem_append_left _ hx), fun x hx => h x (List.mem_append_right _ hx)⟩
  unfold free
  rw [hnone.1, hnone.2]

/-- The store is as it was, or as allocating left it. -/
theorem allocate_store {q : β → Prop} (h : q a.store)
    (hs : Yields (FrameStore.allocate r a.store p) fun x => q x.2.1) :
    Yields (a.allocate r p) fun x => q x.2.1.store := by
  rcases allocate_split r a p with ⟨e, heq⟩ | ⟨x, -, -, heq⟩ | ⟨-, -, heq⟩
  · rw [heq]
    exact .ok h
  · rw [heq]
    exact .ok h
  · rw [heq]
    refine .map (hs.mono fun x hx => ?_)
    rw [takeOver_store]
    exact hx

/-- The store is as it was, or as a release left it. -/
theorem free_store {q : β → Prop} (h : q a.store)
    (hs : ∀ mids, q (FrameStore.release mids a.store p).2.1) : q (a.free given p).2.1.store := by
  unfold free
  split
  · exact hs _
  · split
    · exact hs _
    · exact h

/-- The books are sound, and the store backs them. -/
structure Kept (backs : Nat → Books → β → Platform → Prop) (n : Nat) (a : Allocator β)
    (p : Platform) : Prop where
  sound : a.books.Sound
  backed : backs n a.books a.store p

/-- An allocator `a'` that has served a request with new frames. -/
structure Served (backs : Nat → Books → β → Platform → Prop) (n : Nat) (r : Request)
    (response : Response) (a a' : Allocator β) (p' : Platform) : Prop where
  nodup : response.mids.Nodup
  new : ∀ mid ∈ response.mids, mid ∉ a.books.mids
  kept : Kept backs (n + response.mids.length) a' p'
  untouched : ∀ mid ∈ a.books.mids, Untouched mid a.store a'.store

/-- A refused request changes no books and no frame. One that is served gets frames that were handed out
before, or new ones. -/
def Handled (backs : Nat → Books → β → Platform → Prop) (n : Nat) (r : Request) (a : Allocator β)
    (p : Platform) (x : Except AllocError Response × Allocator β × Platform) : Prop :=
  match x.1 with
  | .error _ => x.2.1.books = a.books ∧ (∀ mid, Untouched mid a.store x.2.1.store) ∧
    Kept backs (n + p.wasted x.2.2) x.2.1 x.2.2
  | .ok response =>
    ¬ a.books.Unknown r ∧ response ∈ a.external ∧ x.2.1 = a ∧ x.2.2 = p ∨
      response.mids.length = r.suggested.toNat ∧
        x.2.1.books = a.books.enter r response.mids ∧
        (n + response.mids.length < hostIdBase → Served backs n r response a x.2.1 x.2.2)

section Kept

variable {backs : Nat → Books → β → Platform → Prop} {n : Nat}

theorem Kept.mono (h : Kept backs n a p) (hb : Backing β backs) {m : Nat} (hm : n ≤ m) :
    Kept backs m a p :=
  ⟨h.sound, hb.mono hm h.backed⟩

/-- Whatever the store answers, the request is handled. -/
theorem Kept.takeOver (h : Kept backs n a p) (hr : a.books.Unknown r) (hs : r.suggested ≠ 0)
    {x : Except AllocError (List MemId) × β × Platform}
    (hx : Answered backs n a.books r a.store p x) : Handled backs n r a p (takeOver r a x) := by
  obtain ⟨answer, store, p'⟩ := x
  cases answer with
  | error e =>
    exact ⟨rfl, hx.2, h.sound, hx.1⟩
  | ok mids =>
    obtain ⟨hlen, hnew⟩ := hx
    have hpresent : mids ≠ [] := fun hnil => hs (UInt16.toNat_inj.mp (by
      rw [← hlen, hnil]
      rfl))
    obtain ⟨response, a', heq, rfl, rfl, hbooks⟩ := takeOver_ok r a mids store p'
    rw [heq]
    refine .inr ⟨hlen, hbooks, fun hlt => ?_⟩
    have hsup := hnew hlt
    exact ⟨hsup.nodup, hsup.new,
      ⟨hbooks ▸ h.sound.enter hr hpresent hsup.nodup hsup.new, hbooks ▸ hsup.backs⟩, hsup.untouched⟩

/-- Every request is handled, and the books stay sound. -/
theorem Kept.allocate (h : Kept backs n a p) (hb : Backing β backs) (r : Request) :
    Yields (a.allocate r p) (Handled backs n r a p) := by
  rcases allocate_split r a p with ⟨e, heq⟩ | ⟨x, hx, hheld, heq⟩ | ⟨hs, hnone, heq⟩
  · rw [heq]
    exact .ok ⟨rfl, fun mid => untouched_self mid a.store, h.mono hb (Nat.le_add_right _ _)⟩
  · rw [heq]
    refine .ok (.inl ⟨fun hunknown => ?_, hx, rfl, rfl⟩)
    rw [heldFor_eq_none_iff.mpr hunknown] at hheld
    cases hheld
  · have hr := heldFor_eq_none_iff.mp hnone
    rw [heq]
    exact .map ((hb.allocate h.backed h.sound hr hs).mono fun x hx => h.takeOver hr hs hx)

/-- A request that the store can answer is answered. -/
theorem allocate_returns (hs : Returns (FrameStore.allocate r a.store p) fun _ => True) :
    Returns (a.allocate r p) fun _ => True := by
  rcases allocate_split r a p with ⟨e, heq⟩ | ⟨x, -, -, heq⟩ | ⟨-, -, heq⟩
  · exact ⟨_, heq, trivial⟩
  · exact ⟨_, heq, trivial⟩
  · rw [heq]
    exact .map hs

/-- What is held can be freed. -/
theorem Kept.free (h : Kept backs n a p) (hb : Backing β backs) (hx : x ∈ a.held)
    (hm : x.matches given = true) :
    ∃ a' p', a.free given p = (.ok (), a', p') ∧ Kept backs n a' p' ∧
      a'.books = a.books.strike x ∧ (∀ mid ∈ x.mids, Gone mid a'.store) ∧
      ∀ mid ∈ (a.books.strike x).mids, Untouched mid a.store a'.store := by
  obtain ⟨s', p', hrelease, hbacks, hgone, hrest⟩ := hb.release h.backed h.sound hx
  rw [free_of_matches h.sound hx hm, hrelease]
  exact ⟨_, p', rfl, ⟨h.sound.strike hx, hbacks⟩, rfl, hgone, hrest⟩

/-- All responses are released, one after another. -/
theorem releaseAll_ok (hb : Backing β backs) {responses : List Response} {b : Books} {s : β}
    {p : Platform} (hs : b.Sound) (hbacks : backs n b s p) (hp : b.held.Perm responses) :
    ∃ s' p', releaseAll responses (.ok ()) s p = (.ok (), s', p') ∧ backs n .blank s' p' := by
  induction responses generalizing b s p with
  | nil =>
    obtain ⟨hext, hone⟩ := List.append_eq_nil_iff.mp (List.perm_nil.mp hp)
    have hblank : b = .blank := by
      cases b
      exact congrArg₂ Books.mk hext hone
    exact ⟨s, p, rfl, hblank ▸ hbacks⟩
  | cons x responses ih =>
    have hx : x ∈ b.held := hp.symm.subset List.mem_cons_self
    obtain ⟨s', p', hrelease, hbacks', -⟩ := hb.release hbacks hs hx
    have hrest : (b.strike x).held.Perm responses :=
      ((hs.held_strike hx).symm.trans hp).cons_inv
    obtain ⟨s'', p'', hall, hend⟩ := ih (hs.strike hx) hbacks' hrest
    refine ⟨s'', p'', ?_, hend⟩
    rw [releaseAll, hrelease]
    exact hall

/-- Closing succeeds and leaves blank books. -/
theorem Kept.close (h : Kept backs n a p) (hb : Backing β backs) :
    ∃ a' p', a.close p = (.ok (), a', p') ∧ Kept backs n a' p' ∧ a'.books = .blank := by
  obtain ⟨s', p', hall, hbacks⟩ := releaseAll_ok hb h.sound h.backed (.refl a.books.held)
  obtain ⟨s'', p'', hclose, hend⟩ := hb.close hbacks
  have hall : releaseAll (a.external ++ a.oneShot) (.ok ()) a.store p = (.ok (), s', p') := hall
  unfold Allocator.close
  rw [hall]
  dsimp only
  rw [hclose]
  exact ⟨_, p'', rfl, ⟨Books.sound_blank, hend⟩, rfl⟩

theorem Kept.fill (h : Kept backs n a p) (hb : Backing β backs) (mid : MemId) (start stop : Nat)
    (value : UInt8) : Yields (a.fill mid start stop value) fun a' =>
      Kept backs n a' p ∧ a'.books = a.books :=
  (hb.fill mid start stop value h.backed).bind fun _ hs => .pure ⟨⟨h.sound, hs⟩, rfl⟩

end Kept

end Allocator

end Multiview
