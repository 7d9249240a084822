import Multiview.Proofs.Session.Accounted
import Multiview.Proofs.Session.Custody

/-!
Runs of a client with the simulated engine, from a new session on. Everything stays accounted for, and
surfaces of different pictures are never combined.
-/

namespace Multiview

open Outcome Session

namespace Custody

def Accounted (c : Custody) : Prop := Session.Accounted c.references c.session

theorem Step.accounted {c c' : Custody} (h : Step c c') (hc : c.Accounted) : c'.Accounted := by
  cases h with
  | take hp =>
    refine Session.Accounted.handOver hc ?_
    dsimp only
    rw [hp]
    exact List.perm_middle.symm
  | share hid => exact Session.Accounted.share hc hid
  | drop => exact Session.Accounted.drop hc List.perm_middle
  | mark hid hp => exact Session.Accounted.mark hc hid hp
  | reorder hr => exact Session.Accounted.handOver hc (hr.append_left _)

theorem Runs.accounted {c c' : Custody} (h : Runs c c') (hc : c.Accounted) : c'.Accounted :=
  h.keeps (fun _ _ _ _ => Course.accounted) (fun _ _ => Step.accounted) hc

end Custody

namespace Client

/-- A client of a new session. -/
def start (traits : SimulatedTraits) (config : SessionConfig) (device : Option TextureDevice)
    (memory : HostMemory := .ample) : Client SimulatedEngine where
  session := {
    engine := { traits := traits }
    config := config
    pools := { platform := { device := device, memory := memory } } }

/-- The answers to a sequence of operations, and the client afterwards. -/
def answers {σ : Type} [DecodeEngine σ] [Preparable σ] :
    List Operation → Client σ → Outcome (List Answer × Client σ)
  | [], c => return ([], c)
  | op :: ops, c => do
    let (a, c) ← c.perform op
    let (rest, c) ← answers ops c
    return (a :: rest, c)

theorem run_eq_answers (ops : List Operation) (c : Client SimulatedEngine) :
    c.run ops = (·.2) <$> c.answers ops := by
  induction ops generalizing c with
  | nil => rfl
  | cons op ops ih =>
    have hrun : c.run (op :: ops) = ((·.2) <$> c.perform op) >>= fun c => c.run ops := rfl
    rw [hrun, answers]
    cases c.perform op with
    | error fault => rfl
    | ok x =>
      have hrest := ih x.2
      change x.2.run ops = _
      rw [hrest]
      cases hx : x.2.answers ops with
      | error fault => simp only [bind, Except.bind, hx]
      | ok y =>
        simp only [bind, Except.bind, hx]
        rfl

/-- A client with a simulated engine after any operations on a new session. -/
def Reachable (c : Client SimulatedEngine) : Prop :=
  ∃ traits config device memory ops, (start traits config device memory).run ops = .ok c

theorem start_accounted (traits : SimulatedTraits) (config : SessionConfig)
    (device : Option TextureDevice) (memory : HostMemory) :
    Session.Accounted (start traits config device memory).references
      (start traits config device memory).session := by
  have hin : InStep (start traits config device memory).session :=
    ⟨(fun h => by cases h), nofun, nofun, fun _ => rfl, nofun, ⟨nofun, nofun⟩⟩
  have hpool : ∀ pool, (start traits config device memory).session.pools.pool pool = {} := fun _ => rfl
  refine ⟨hin, fun _ => rfl, fun pool i => ?_, fun pool => ?_, fun pool => ?_, nofun, nofun, ?_⟩
  · rw [Pools.surface?, hpool]
    exact Tracked.none_iff.mpr ⟨rfl, rfl⟩
  · rw [Pools.mids, hpool]
    exact List.nodup_nil
  · rw [Pools.lockIds, hpool]
    exact List.nodup_nil
  · exact .nil fun _ => rfl

variable {c : Client SimulatedEngine}

theorem answers_sound (ops : List Operation) (taken : List PictureId)
    (hc : (c.custody taken).Accounted) :
    Sound (c.answers ops) fun x =>
      Custody.Runs (c.custody taken) (x.2.custody (taken ++ x.1.flatMap Answer.taken)) := by
  induction ops generalizing c taken with
  | nil =>
    refine .pure ?_
    rw [List.flatMap_nil, List.append_nil]
  | cons op ops ih =>
    unfold answers
    refine (perform_sound op taken hc.inStep).bind fun x hx => ?_
    have hrun : Custody.Runs (c.custody taken) (x.2.custody (taken ++ x.1.taken)) := .single hx
    refine (ih _ (hrun.accounted hc)).bind fun y hy => .pure ?_
    rw [List.flatMap_cons, ← List.append_assoc]
    exact hrun.trans hy

theorem run_sound (ops : List Operation) (taken : List PictureId)
    (hc : (c.custody taken).Accounted) :
    Sound (c.run ops) fun c' => ∃ taken', Custody.Runs (c.custody taken) (c'.custody taken') := by
  rw [run_eq_answers]
  exact .map ((answers_sound ops taken hc).mono fun x hx => ⟨_, hx⟩)

theorem Reachable.accounted (h : Reachable c) : Session.Accounted c.references c.session := by
  obtain ⟨traits, config, device, memory, ops, hrun⟩ := h
  have hstart := start_accounted traits config device memory
  obtain ⟨taken, hruns⟩ := (run_sound ops [] hstart).result hrun
  exact hruns.accounted hstart

theorem run_append {ops : List Operation} {c' : Client SimulatedEngine} (h : c.run ops = .ok c')
    (rest : List Operation) : c.run (ops ++ rest) = c'.run rest := by
  have h : ops.foldlM (fun c op => (·.2) <$> Client.perform op c) c = .ok c' := h
  rw [run, List.foldlM_append, h]
  rfl

theorem Reachable.perform (h : Reachable c) {op : Operation} {a : Answer}
    {c' : Client SimulatedEngine} (hop : c.perform op = .ok (a, c')) : Reachable c' := by
  obtain ⟨traits, config, device, memory, ops, hrun⟩ := h
  refine ⟨traits, config, device, memory, ops ++ [op], (run_append hrun [op]).trans ?_⟩
  rw [run]
  simp only [List.foldlM_cons, List.foldlM_nil, bind, Except.bind, hop]
  rfl

/-- Parameter sets, both views of one picture, and the base view of another one. -/
def stereoUnits : Bytes :=
  [0, 0, 1, 0x67, 1, 0, 0, 1, 0x6f, 1, 0, 0, 1, 0x68, 1, 0, 0, 1, 0x65, 1, 0, 0, 1, 0x74, 1,
    0, 0, 1, 0x41, 1]

/-- Taking the first picture of a stream and sharing it. -/
def stereoOperations : List Operation :=
  [.open {} {}, .decode (some stereoUnits) none none, .take 1, .share 0]

def stereoRun : Outcome (Client SimulatedEngine) :=
  (start {} { asyncDepth := 0 } none).run stereoOperations

theorem stereoRun_reachable {c : Client SimulatedEngine} (h : stereoRun = .ok c) : c.Reachable :=
  ⟨_, _, _, _, _, h⟩

end Client

end Multiview
