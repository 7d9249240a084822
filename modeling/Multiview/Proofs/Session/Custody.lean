import Multiview.Proofs.Session.Operations
import Multiview.Session.Operation

/-!
A client in steps. An operation is either the course of one operation of the session, or a sequence of
steps in which pictures are taken and references to them are taken, displayed and dropped.
-/

namespace Multiview

open Outcome Relation

/-- A session with what the client has of it: its references, and all pictures that it ever took, the
oldest first. -/
structure Custody where
  references : List PictureId
  taken : List PictureId
  session : Session SimulatedEngine

namespace Custody

/-- What the client does with pictures. -/
inductive Step : Custody → Custody → Prop
  | take {refs taken : List PictureId} {s : Session SimulatedEngine} {id : PictureId}
      {rest : List PictureId} (hp : s.pictures = id :: rest) :
      Step ⟨refs, taken, s⟩ ⟨id :: refs, taken ++ [id], { s with pictures := rest }⟩
  | share {refs taken : List PictureId} {s : Session SimulatedEngine} {id : PictureId}
      (hid : id ∈ refs) :
      Step ⟨refs, taken, s⟩ ⟨id :: refs, taken, { s with pools := s.pools.share id }⟩
  | drop {refs taken : List PictureId} {s : Session SimulatedEngine} {id : PictureId} :
      Step ⟨id :: refs, taken, s⟩ ⟨refs, taken, { s with pools := s.pools.drop id }⟩
  | mark {refs taken : List PictureId} {s : Session SimulatedEngine} {id : PictureId} {p : Picture}
      (hid : id ∈ refs) (hp : s.pools.pictures[id]? = some p) :
      Step ⟨refs, taken, s⟩ ⟨refs, taken, { s with pools := s.pools.markPicture p }⟩
  /-- References are in no order. -/
  | reorder {refs refs' taken : List PictureId} {s : Session SimulatedEngine}
      (hr : refs.Perm refs') : Step ⟨refs, taken, s⟩ ⟨refs', taken, s⟩

abbrev Steps := ReflTransGen Step

/-- An operation of the session or of the client. -/
inductive Operated : Custody → Custody → Prop
  | session {refs taken : List PictureId} {s t : Session SimulatedEngine} (h : s.Course t) :
      Operated ⟨refs, taken, s⟩ ⟨refs, taken, t⟩
  | client {c c' : Custody} (h : Steps c c') : Operated c c'

abbrev Runs := ReflTransGen Operated

/-- What steps of the session and steps of the client keep is kept by every run. -/
theorem Runs.keeps {q : Custody → Prop}
    (hcourse : ∀ refs taken s t, Session.Course s t → q ⟨refs, taken, s⟩ → q ⟨refs, taken, t⟩)
    (hstep : ∀ c c', Step c c' → q c → q c') {c c' : Custody} (h : Runs c c') (hc : q c) :
    q c' := by
  have hsteps : ∀ {c c' : Custody}, Steps c c' → q c → q c' := by
    intro c c' h hc
    induction h with
    | refl => exact hc
    | tail _ hs ih => exact hstep _ _ hs ih
  induction h with
  | refl => exact hc
  | tail _ hop ih =>
    cases hop with
    | session hs => exact hcourse _ _ _ _ hs ih
    | client hs => exact hsteps hs ih

theorem steps_reorder {refs refs' taken : List PictureId} {s : Session SimulatedEngine}
    (h : refs.Perm refs') : Steps ⟨refs, taken, s⟩ ⟨refs', taken, s⟩ := .single (.reorder h)

end Custody

namespace Session

/-- The pictures among the answers to a client. -/
def picturesOf (ps : List StereoPicture) : List PictureId := ps.filterMap (·.picture)

/-- The oldest picture is taken. -/
theorem getPicture_eq_some {s t : Session SimulatedEngine} {p : StereoPicture}
    (h : s.getPicture = some (p, t)) :
    ∃ id rest, s.pictures = id :: rest ∧ p.picture = some id ∧ t = { s with pictures := rest } := by
  unfold getPicture at h
  split at h
  · cases h
  · rename_i id rest hp
    obtain ⟨x, _, hx⟩ := Option.bind_eq_some_iff.mp h
    cases hx
    exact ⟨id, rest, hp, rfl, rfl⟩

theorem takeReady_steps (n : Nat) (s : Session SimulatedEngine)
    (before after taken : List PictureId) :
    Custody.Steps ⟨before ++ after, taken, s⟩
      ⟨before ++ picturesOf (s.takeReady n).1 ++ after, taken ++ picturesOf (s.takeReady n).1,
        (s.takeReady n).2⟩ := by
  induction n generalizing s before taken with
  | zero =>
    simp only [takeReady, picturesOf, List.filterMap_nil, List.append_nil]
    exact .refl
  | succ n ih =>
    unfold takeReady
    split
    · simp only [picturesOf, List.filterMap_nil, List.append_nil]
      exact .refl
    · rename_i p t hget
      obtain ⟨id, rest, hpics, hid, rfl⟩ := getPicture_eq_some hget
      have hnext := ih { s with pictures := rest } (before ++ [id]) (taken ++ [id])
      have hcons : ∀ ps, picturesOf (p :: ps) = id :: picturesOf ps := fun ps =>
        List.filterMap_cons_some hid
      have hperm : (id :: (before ++ after)).Perm (before ++ [id] ++ after) := by
        rw [List.append_assoc]
        exact List.perm_middle.symm
      refine .trans (.head (.take hpics) (Custody.steps_reorder hperm)) ?_
      dsimp only
      rw [hcons]
      simpa only [List.append_assoc, List.singleton_append, List.cons_append, List.nil_append]
        using hnext

theorem playReady_steps (n : Nat) (s : Session SimulatedEngine) (refs taken : List PictureId) :
    Custody.Steps ⟨refs, taken, s⟩
      ⟨refs, taken ++ picturesOf (s.playReady n).1, (s.playReady n).2⟩ := by
  induction n generalizing s taken with
  | zero =>
    simp only [playReady, picturesOf, List.filterMap_nil, List.append_nil]
    exact .refl
  | succ n ih =>
    unfold playReady
    split
    · simp only [picturesOf, List.filterMap_nil, List.append_nil]
      exact .refl
    · rename_i p t hget
      obtain ⟨id, rest, hpics, hid, rfl⟩ := getPicture_eq_some hget
      have hcons : ∀ ps, picturesOf (p :: ps) = id :: picturesOf ps := fun ps =>
        List.filterMap_cons_some hid
      have hclear : (clearPicture p { s with pictures := rest }).2 =
          { s with pictures := rest, pools := s.pools.drop id } := by
        unfold clearPicture
        rw [hid]
      have hnext := ih { s with pictures := rest, pools := s.pools.drop id } (taken ++ [id])
      dsimp only
      rw [hclear, hcons]
      refine .head (.take hpics) (.head .drop ?_)
      simpa only [List.append_assoc, List.singleton_append] using hnext

end Session

/-- The pictures that an answer hands over. -/
def Answer.taken : Answer → List PictureId
  | pictures ps => Session.picturesOf ps
  | _ => []

theorem filterMap_set_perm {α β : Type} {f : α → Option β} {l : List α} {i : Nat} {a : α} (b : α)
    (ha : l[i]? = some a) (hb : f b = none) :
    (l.filterMap f).Perm ((f a).toList ++ (l.set i b).filterMap f) := by
  induction l generalizing i with
  | nil => cases ha
  | cons c l ih =>
    cases i with
    | zero =>
      cases ha
      rw [List.set_cons_zero, List.filterMap_cons_none hb]
      cases ha : f a with
      | none => rw [List.filterMap_cons_none ha, Option.toList_none, List.nil_append]
      | some x => rw [List.filterMap_cons_some ha, Option.toList_some, List.singleton_append]
    | succ i =>
      have hrest := ih ha
      rw [List.set_cons_succ]
      cases hc : f c with
      | none =>
        rw [List.filterMap_cons_none hc, List.filterMap_cons_none hc]
        exact hrest
      | some x =>
        rw [List.filterMap_cons_some hc, List.filterMap_cons_some hc]
        exact (hrest.cons x).trans List.perm_middle.symm

/-- What is put at a place that holds nothing any more is as good as nothing. -/
theorem filterMap_set_join_perm {α β : Type} {f : Option α → Option β} (hf : f none = none)
    (l : List (Option α)) (i : Nat) {b : Option α} (hb : f b = none) :
    (l.filterMap f).Perm ((f l[i]?.join).toList ++ (l.set i b).filterMap f) := by
  cases ha : l[i]? with
  | none =>
    have hle : l.length ≤ i := List.getElem?_eq_none_iff.mp ha
    rw [List.set_eq_of_length_le hle, Option.join_none, hf]
    exact .refl _
  | some a => exact filterMap_set_perm b ha hb

namespace Client

variable {c : Client SimulatedEngine}

def custody (taken : List PictureId) (c : Client SimulatedEngine) : Custody :=
  ⟨c.references, taken, c.session⟩

/-- Putting a picture without surfaces in the place of another gives up a reference. -/
theorem references_held (place : Nat) {p : Option StereoPicture} (hp : (p.bind (·.picture)) = none)
    (c : Client SimulatedEngine) :
    c.references.Perm (((c.held? place).bind (·.picture)).toList ++
      references { c with held := c.held.set place p }) := by
  have hset := filterMap_set_join_perm (f := fun p : Option StereoPicture => p.bind (·.picture)) rfl
    c.held place hp
  unfold references
  rw [← List.append_assoc]
  exact hset.append_right _

theorem references_shared (place : Nat) (c : Client SimulatedEngine) :
    c.references.Perm ((c.shared? place).toList ++
      references { c with shared := c.shared.set place none }) := by
  have hset := filterMap_set_join_perm (f := id) rfl c.shared place (b := none) rfl
  unfold references
  refine (hset.append_left _).trans ?_
  rw [← List.append_assoc, ← List.append_assoc]
  exact List.perm_append_comm.append_right _

theorem dropReference_rest (id : Option PictureId) (c : Client SimulatedEngine) :
    (c.dropReference id).held = c.held ∧ (c.dropReference id).shared = c.shared := by
  cases id <;> exact ⟨rfl, rfl⟩

/-- A client that gives up a reference drops it. -/
theorem giveUp_steps {c c' : Client SimulatedEngine} (id : Option PictureId)
    (hr : c.references.Perm (id.toList ++ c'.references))
    (hs : c'.session = (c.dropReference id).session) (taken : List PictureId) :
    Custody.Steps (c.custody taken) (c'.custody taken) := by
  refine (Custody.steps_reorder hr).trans ?_
  unfold custody
  rw [hs]
  cases id with
  | none => exact .refl
  | some id => exact .single .drop

theorem take_steps (n : Nat) (taken : List PictureId) (c : Client SimulatedEngine) :
    Custody.Steps (c.custody taken) ((c.take n).2.custody (taken ++ (c.take n).1.taken)) := by
  have hready := Session.takeReady_steps n c.session (c.held.filterMap fun p => p.bind (·.picture))
    (c.shared.filterMap id) taken
  have hrefs : (c.take n).2.references =
      (c.held.filterMap fun p => p.bind (·.picture)) ++
        Session.picturesOf (c.session.takeReady n).1 ++ c.shared.filterMap id := by
    simp [take, references, Session.picturesOf, List.filterMap_append, List.filterMap_map]
  unfold custody
  rw [hrefs]
  exact hready

/-- No pictures are taken. -/
theorem steps_of_taken {a : Answer} {c' : Client SimulatedEngine} {taken : List PictureId}
    (ha : a.taken = []) (h : Custody.Steps (c.custody taken) (c'.custody taken)) :
    Custody.Steps (c.custody taken) (c'.custody (taken ++ a.taken)) := by
  rw [ha, List.append_nil]
  exact h

theorem clear_steps (place : Nat) (taken : List PictureId) (c : Client SimulatedEngine) :
    Custody.Steps (c.custody taken)
      ((c.clear place).2.custody (taken ++ (c.clear place).1.taken)) := by
  unfold clear
  split
  · exact steps_of_taken rfl .refl
  · rename_i p hp
    have hrefs := references_held place (p := some (c.session.clearPicture p).1) (by
      unfold Session.clearPicture
      split <;> rfl) c
    rw [hp, Option.bind_some] at hrefs
    refine steps_of_taken rfl (giveUp_steps p.picture ?_ ?_ taken)
    · exact hrefs
    · unfold Session.clearPicture dropReference
      cases p.picture <;> rfl

theorem drop_steps (place : Nat) (taken : List PictureId) (c : Client SimulatedEngine) :
    Custody.Steps (c.custody taken)
      ((c.drop place).2.custody (taken ++ (c.drop place).1.taken)) := by
  refine steps_of_taken rfl (giveUp_steps ((c.held? place).bind (·.picture)) ?_ ?_ taken)
  · refine (references_held place (p := none) rfl c).trans (List.Perm.of_eq ?_)
    rw [drop, references, references, (dropReference_rest _ c).2]
  · rfl

theorem dropShared_steps (place : Nat) (taken : List PictureId) (c : Client SimulatedEngine) :
    Custody.Steps (c.custody taken)
      ((c.dropShared place).2.custody (taken ++ (c.dropShared place).1.taken)) := by
  refine steps_of_taken rfl (giveUp_steps (c.shared? place) ?_ ?_ taken)
  · refine (references_shared place c).trans (List.Perm.of_eq ?_)
    rw [dropShared, references, references, (dropReference_rest _ c).1]
  · rfl

theorem mem_references_of_held {place : Nat} {id : PictureId}
    (h : (c.held? place).bind (·.picture) = some id) : id ∈ c.references := by
  refine (references_held place (p := none) rfl c).symm.subset ?_
  rw [h]
  exact List.mem_append_left _ (List.mem_singleton_self id)

theorem mem_references_of_shared {place : Nat} {id : PictureId} (h : c.shared? place = some id) :
    id ∈ c.references := by
  refine (references_shared place c).symm.subset ?_
  rw [h]
  exact List.mem_append_left _ (List.mem_singleton_self id)

theorem share_steps (place : Nat) (taken : List PictureId) (c : Client SimulatedEngine) :
    Custody.Steps (c.custody taken)
      ((c.share place).2.custody (taken ++ (c.share place).1.taken)) := by
  refine steps_of_taken rfl ?_
  unfold share
  cases hid : (c.held? place).bind (·.picture) with
  | none =>
    refine Custody.steps_reorder (List.Perm.of_eq ?_)
    simp [references, withPools]
  | some id =>
    refine .head (.share (mem_references_of_held hid)) (Custody.steps_reorder ?_)
    simp only [references, withPools, List.filterMap_append, ← List.append_assoc]
    exact (List.perm_append_singleton id c.references).symm

theorem mark_steps (place : Nat) (taken : List PictureId) (c : Client SimulatedEngine) :
    Custody.Steps (c.custody taken)
      ((c.mark place).2.custody (taken ++ (c.mark place).1.taken)) := by
  unfold mark
  split
  · exact steps_of_taken rfl .refl
  · rename_i p hp
    obtain ⟨id, hid, hget⟩ := Option.bind_eq_some_iff.mp hp
    exact steps_of_taken rfl (.single (.mark (mem_references_of_shared hid) hget))

theorem aside_prepare (hs : Session.InStep c.session) (p : Preparation) :
    Session.Aside c.session { c.session with engine := Preparable.prepare p c.session.engine } :=
  ⟨SimulatedEngine.prepare_alike p c.session.engine, rfl, rfl, rfl, rfl, rfl, rfl, rfl,
    ⟨[], rfl, by simp⟩, .refl _, hs.ready⟩

/-- Whatever a client does is a course of its session or a sequence of steps of its own, and it takes
what it is answered. -/
theorem perform_sound (op : Operation) (taken : List PictureId) (hs : Session.InStep c.session) :
    Sound (c.perform op) fun x =>
      Custody.Operated (c.custody taken) (x.2.custody (taken ++ x.1.taken)) := by
  have hcourse : ∀ (a : Answer) (t : Session SimulatedEngine), a.taken = [] →
      Session.Course c.session t → Custody.Operated (c.custody taken)
        (custody (taken ++ a.taken) { c with session := t }) := by
    intro a t ha h
    rw [ha, List.append_nil]
    exact .session h
  cases op with
  | «open» hints options =>
    exact (Session.open_sound hints options hs).bind fun x hx => .pure (hcourse _ _ rfl hx.1)
  | decode data dts pts =>
    exact (Session.decode_sound data dts pts hs).bind fun x hx => .pure (hcourse _ _ rfl hx)
  | drain => exact (Session.drain_sound hs).bind fun x hx => .pure (hcourse _ _ rfl hx)
  | flush => exact .pure (hcourse _ _ rfl (Session.Moves.course (Session.moves_flush hs)))
  | close => exact .pure (hcourse _ _ rfl (Session.Moves.course (Session.moves_close hs)))
  | control flags =>
    exact .pure (hcourse _ _ rfl (Session.Moves.course (Session.aside_setControl hs flags).moves))
  | prepare p => exact .pure (hcourse _ _ rfl (Session.Moves.course (aside_prepare hs p).moves))
  | take n => exact .pure (.client (take_steps n taken c))
  | play => exact .pure (.client (Session.playReady_steps _ c.session c.references taken))
  | clear place => exact .pure (.client (clear_steps place taken c))
  | drop place => exact .pure (.client (drop_steps place taken c))
  | share place => exact .pure (.client (share_steps place taken c))
  | mark place => exact .pure (.client (mark_steps place taken c))
  | view place => exact .pure (.client (steps_of_taken rfl .refl))
  | dropShared place => exact .pure (.client (dropShared_steps place taken c))

end Client

end Multiview
