import Multiview.Proofs.Session.Moves

/-!
The order in which an engine may be called. An engine is idle, running or closed. Headers are read and
frames agreed on while it is idle, stream data goes to a running engine only, and nothing is asked of a
closed one. A journal keeps to this order if every call fits the mode that the calls before it lead to.
-/

namespace Multiview

/-- How far the use of an engine has come. -/
inductive Mode where
  /-- The engine holds no decoder. -/
  | idle
  | running
  | closed
  deriving DecidableEq, Repr

namespace Mode

/-- The mode after a call, unless the call is out of place. -/
def after : Mode → EngineCall → Option Mode
  | idle, .useAllocator _ => some idle
  | idle, .readHeader _ _ _ => some idle
  | idle, .query _ _ _ _ => some idle
  | idle, .requireFrames _ _ => some idle
  | idle, .init _ status => some (if status.isError then idle else running)
  | idle, .close => some closed
  | running, .decode _ _ _ _ _ => some running
  | running, .sync _ _ _ => some running
  | running, .reset _ _ => some running
  | running, .closeDecoder _ => some idle
  | _, _ => none

/-- Calls to the device are never out of place. -/
def afterEvent (m : Mode) : Event → Option Mode
  | .device _ => some m
  | .engine call => m.after call

/-- The mode that a journal, latest event first, leads to. -/
def reached : List Event → Option Mode
  | [] => some idle
  | e :: earlier => (reached earlier).bind (·.afterEvent e)

end Mode

namespace Event

/-- The engine was told to put its decoder away. -/
def stops : Event → Bool
  | engine (.closeDecoder _) => true
  | _ => false

/-- The engine was closed for good. -/
def ends : Event → Bool
  | engine .close => true
  | _ => false

/-- The engine was called. -/
def calls : Event → Bool
  | engine _ => true
  | _ => false

end Event

namespace Mode

variable {m : Mode} {earlier later : List Event}

/-- Events that leave the mode as it is. -/
def Stays (m : Mode) (events : List Event) : Prop := ∀ e ∈ events, m.afterEvent e = some m

theorem Stays.nil (m : Mode) : Stays m [] := by
  intro e he
  cases he

theorem Stays.single {call : EngineCall} (h : m.after call = some m) : Stays m [.engine call] := by
  intro e he
  cases List.mem_singleton.mp he
  exact h

theorem Stays.append {events events' : List Event} (h : Stays m events) (h' : Stays m events') :
    Stays m (events ++ events') := by
  intro e he
  rcases List.mem_append.mp he with he | he
  · exact h e he
  · exact h' e he

theorem Stays.device (m : Mode) (calls : List DeviceCall) : Stays m (calls.map .device) := by
  intro e he
  obtain ⟨call, _, rfl⟩ := List.mem_map.mp he
  rfl

theorem Stays.reached (h : Stays m later) (he : Mode.reached earlier = some m) :
    Mode.reached (later ++ earlier) = some m := by
  induction later with
  | nil => exact he
  | cons e later ih =>
    have hrest : Mode.reached (later ++ earlier) = some m :=
      ih fun x hx => h x (List.mem_cons_of_mem _ hx)
    simp only [List.cons_append, Mode.reached, hrest, Option.bind_some]
    exact h e List.mem_cons_self

/-- What came before also kept to the order. -/
theorem exists_reached (h : reached (later ++ earlier) = some m) :
    ∃ m', reached earlier = some m' := by
  induction later generalizing m with
  | nil => exact ⟨m, h⟩
  | cons e later ih =>
    obtain ⟨m', hm', _⟩ := Option.bind_eq_some_iff.mp h
    exact ih hm'

/-- The mode before an event. -/
theorem reached_before {e : Event} (h : reached (later ++ e :: earlier) = some m) :
    ∃ m' m'', reached earlier = some m' ∧ m'.afterEvent e = some m'' := by
  obtain ⟨m'', hm''⟩ := exists_reached h
  obtain ⟨m', hm', he⟩ := Option.bind_eq_some_iff.mp hm''
  exact ⟨m', m'', hm', he⟩

/-- An event leaves the mode alone, starts an idle engine, stops a running one or closes an idle one. -/
theorem afterEvent_cases {m' : Mode} {e : Event} (h : m.afterEvent e = some m') :
    m' = m ∧ e.starts = false ∧ e.stops = false ∧ e.ends = false ∧ (m = closed → e.calls = false) ∨
      m = idle ∧ m' = running ∧ e.starts = true ∧ e.stops = false ∧ e.ends = false ∨
      m = running ∧ m' = idle ∧ e.starts = false ∧ e.stops = true ∧ e.ends = false ∨
      m = idle ∧ m' = closed ∧ e = .engine .close := by
  cases e with
  | device call =>
    cases h
    exact Or.inl ⟨rfl, rfl, rfl, rfl, fun _ => rfl⟩
  | engine call =>
    cases m with
    | idle =>
      cases call with
      | init params status =>
        simp only [afterEvent, after, Option.some.injEq] at h
        cases hs : status.isError <;> simp [hs] at h <;> simp [← h, hs, Event.starts, Event.stops,
          Event.ends]
      | close =>
        cases h
        exact Or.inr (Or.inr (Or.inr ⟨rfl, rfl, rfl⟩))
      | useAllocator _ | readHeader _ _ _ | query _ _ _ _ | requireFrames _ _ =>
        cases h
        exact Or.inl ⟨rfl, rfl, rfl, rfl, nofun⟩
      | decode _ _ _ _ _ | sync _ _ _ | reset _ _ | closeDecoder _ => cases h
    | running =>
      cases call with
      | decode _ _ _ _ _ | sync _ _ _ | reset _ _ =>
        cases h
        exact Or.inl ⟨rfl, rfl, rfl, rfl, nofun⟩
      | closeDecoder _ =>
        cases h
        exact Or.inr (Or.inr (Or.inl ⟨rfl, rfl, rfl, rfl, rfl⟩))
      | useAllocator _ | readHeader _ _ _ | query _ _ _ _ | requireFrames _ _ | init _ _ | close =>
        cases h
    | closed => cases h

/-- An engine runs as long as it was started more often than stopped, which is once. -/
theorem countP_starts {journal : List Event} (h : reached journal = some m) :
    journal.countP Event.starts =
      journal.countP Event.stops + if m = running then 1 else 0 := by
  induction journal generalizing m with
  | nil =>
    cases h
    rfl
  | cons e earlier ih =>
    obtain ⟨m', hm', he⟩ := Option.bind_eq_some_iff.mp h
    have hcount := ih hm'
    rw [List.countP_cons, List.countP_cons, hcount]
    obtain ⟨rfl, hs, ht, _⟩ | ⟨rfl, rfl, hs, ht, _⟩ | ⟨rfl, rfl, hs, ht, _⟩ | ⟨rfl, rfl, rfl⟩ :=
      afterEvent_cases he
    · simp [hs, ht]
    · simp [hs, ht]
    · simp [hs, ht]
    · simp [Event.starts, Event.stops]

/-- Stream data is handed to a running engine only. -/
theorem running_of_decode {input : Option Bitstream} {work : MemId} {status : EngineStatus}
    {offset : Option Nat} {output : Option DecodedSurface}
    (h : reached (later ++ .engine (.decode input work status offset output) :: earlier) = some m) :
    reached earlier = some running := by
  obtain ⟨m', m'', hm', he⟩ := reached_before h
  cases m' with
  | idle => cases he
  | running => exact hm'
  | closed => cases he

/-- An engine that is not closed was never closed. -/
theorem not_ends {journal : List Event} (h : reached journal = some m) (hm : m ≠ closed) :
    ∀ e ∈ journal, e.ends = false := by
  induction journal generalizing m with
  | nil =>
    intro e he
    cases he
  | cons e earlier ih =>
    obtain ⟨m', hm', he⟩ := Option.bind_eq_some_iff.mp h
    have hopen : m' ≠ closed ∧ e.ends = false := by
      obtain ⟨rfl, _, _, hn, _⟩ | ⟨rfl, rfl, _, _, hn⟩ | ⟨rfl, rfl, _, _, hn⟩ | ⟨rfl, rfl, rfl⟩ :=
        afterEvent_cases he
      · exact ⟨hm, hn⟩
      · exact ⟨nofun, hn⟩
      · exact ⟨nofun, hn⟩
      · exact absurd rfl hm
    intro x hx
    rcases List.mem_cons.mp hx with rfl | hx
    · exact hopen.2
    · exact ih hm' hopen.1 x hx

/-- A closed engine was closed once, and not called any more from then on. -/
theorem ends_once {journal : List Event} (h : reached journal = some closed) :
    ∃ later earlier : List Event, journal = later ++ Event.engine .close :: earlier ∧
      (∀ e ∈ later, e.calls = false) ∧ ∀ e ∈ earlier, e.ends = false := by
  induction journal with
  | nil => cases h
  | cons e rest ih =>
    obtain ⟨m', hm', he⟩ := Option.bind_eq_some_iff.mp h
    obtain ⟨rfl, _, _, _, hn⟩ | ⟨_, hc, _⟩ | ⟨_, hc, _⟩ | ⟨rfl, _, rfl⟩ := afterEvent_cases he
    · obtain ⟨later, earlier, rfl, hl, hearlier⟩ := ih hm'
      refine ⟨e :: later, earlier, rfl, fun x hx => ?_, hearlier⟩
      rcases List.mem_cons.mp hx with rfl | hx
      · exact hn rfl
      · exact hl x hx
    · cases hc
    · cases hc
    · exact ⟨[], rest, rfl, fun _ hx => absurd hx List.not_mem_nil, not_ends hm' nofun⟩

end Mode

end Multiview
