import Multiview.Proofs.Session.Preparing
import Multiview.Proofs.Session.Serving

/-!
What setting up the engine leaves alone. While header, memory and frames are agreed on, the idle engine
is called and the parameters change; nothing else does. Then frames are supplied and the engine is
started, so that setting up is a talk, a supply and a start in this order, or a part of that.
-/

namespace Multiview

open Outcome

namespace SimulatedEngine

theorem Keeps.refl (e : SimulatedEngine) : Keeps e e := ⟨rfl, rfl⟩

theorem Keeps.trans {e e' e'' : SimulatedEngine} (h : Keeps e e') (h' : Keeps e' e'') :
    Keeps e e'' :=
  ⟨h'.params.trans h.params, h'.allocator.trans h.allocator⟩

/-- A header that was read names at least one view. -/
theorem readHeader_views (input : Bytes) (params : VideoParams) (e : SimulatedEngine) :
    Yields (readHeader input params e) fun x =>
      Keeps e x.2.2 ∧ (x.1.isError = false → x.2.1.sequence.viewCount ≠ 0) := by
  have hcount : ∀ b : Bool, (if b = true then 2 else 1 : UInt16) ≠ 0 := by decide
  unfold readHeader
  dsimp only
  split
  · exact .pure ⟨⟨rfl, rfl⟩, nofun⟩
  · generalize hs : ({ params.sequence with
      viewCount := _, viewIdCount := _, pointCount := 1 } : SequenceDesc) = sequence
    have hviews : sequence.viewCount ≠ 0 := by
      rw [← hs]
      exact hcount _
    split
    · exact .pure ⟨⟨rfl, rfl⟩, nofun⟩
    · refine (round_sound e.traits.display 16).yields.bind fun _ _ => .pure ?_
      exact ⟨⟨rfl, rfl⟩, fun _ => hviews⟩

end SimulatedEngine

namespace Session

variable {s t u : Session SimulatedEngine} {pool : PoolId}

/-- The idle engine was called, and parameters may have changed. -/
structure Talked (s t : Session SimulatedEngine) : Prop where
  rest : t = { s with
    engine := t.engine, params := t.params, pools := { s.pools with platform := t.pools.platform } }
  platform : t.pools.platform =
    { s.pools.platform with journal := t.pools.platform.journal }
  keeps : s.engine.Keeps t.engine
  journal : ∃ calls : List EngineCall, t.journal = calls.map .engine ++ s.journal ∧
    Mode.idle.Stays (calls.map .engine)

theorem Talked.trans (h : Talked s t) (h' : Talked t u) : Talked s u where
  rest := h'.rest.trans (by rw [h.rest])
  platform := h'.platform.trans (by rw [h.platform])
  keeps := h.keeps.trans h'.keeps
  journal := by
    obtain ⟨calls, hj, hc⟩ := h.journal
    obtain ⟨calls', hj', hc'⟩ := h'.journal
    refine ⟨calls' ++ calls, by rw [hj', hj, List.map_append, List.append_assoc], ?_⟩
    rw [List.map_append]
    exact hc'.append hc

theorem talked_params (params : VideoParams) (s : Session SimulatedEngine) :
    Talked s { s with params := params } :=
  ⟨rfl, rfl, .refl _, ⟨[], rfl, .nil _⟩⟩

theorem Talked.refl (s : Session SimulatedEngine) : Talked s s := talked_params s.params s

theorem talked_record {e : SimulatedEngine} {params : VideoParams} {call : EngineCall}
    (hk : s.engine.Keeps e) (hc : Mode.idle.after call = some .idle) :
    Talked s ({ s with engine := e, params := params }.record call) :=
  ⟨rfl, rfl, hk, ⟨[call], rfl, .single hc⟩⟩

theorem talked_askQuery (s : Session SimulatedEngine) :
    Talked s s.askQuery.2 ∧ s.askQuery.2.params.sequence = s.params.sequence := by
  have hquery : s.engine.Keeps (s.engine.query s.params).2.2 ∧
      (s.engine.query s.params).2.1.sequence = s.params.sequence := by
    unfold SimulatedEngine.query
    split
    · exact ⟨⟨rfl, rfl⟩, rfl⟩
    · exact ⟨⟨rfl, rfl⟩, rfl⟩
  exact ⟨talked_record hquery.1 rfl, hquery.2⟩

theorem talked_askRequireFrames (s : Session SimulatedEngine) : Talked s s.askRequireFrames.2 :=
  talked_record (.refl _) rfl

theorem talked_negotiate (s : Session SimulatedEngine) :
    Talked s s.negotiate.2 ∧ s.negotiate.2.params.sequence = s.params.sequence := by
  refine negotiate_keeps (q := fun u => Talked s u ∧ u.params.sequence = s.params.sequence)
    ?_ ?_ ?_ ⟨.refl s, rfl⟩
  · exact fun u _ _ hu => ⟨hu.1.trans (talked_params _ u), hu.2⟩
  · intro u hu
    obtain ⟨ht, hs⟩ := talked_askQuery u
    exact ⟨hu.1.trans ht, hs.trans hu.2⟩
  · exact fun u hu => ⟨hu.1.trans (talked_askRequireFrames u), hu.2⟩

theorem talked_askReadHeader (s : Session SimulatedEngine) :
    Yields s.askReadHeader fun x => Talked s x.2 ∧
      (x.1.isError = false → x.2.params.sequence.viewCount ≠ 0) :=
  (SimulatedEngine.readHeader_views s.buffer s.params s.engine).bind fun _ ha =>
    .pure ⟨talked_record ha.1 rfl, ha.2⟩

theorem talked_probeHeader (s : Session SimulatedEngine) :
    Yields s.probeHeader fun x => Talked s x.2 ∧
      (x.1.isError = false → x.2.params.sequence.viewCount ≠ 0) := by
  unfold probeHeader
  refine (talked_askReadHeader s).bind ?_
  rintro ⟨status, t⟩ ⟨ht, hv⟩
  dsimp only at ht hv ⊢
  split
  · refine (talked_askReadHeader _).mono fun x hx => ⟨?_, hx.2⟩
    exact (ht.trans (talked_params _ t)).trans hx.1
  · exact .pure ⟨ht, hv⟩

/-- The engine is what refuses. -/
theorem negotiate_refusal {σ : Type} [DecodeEngine σ] (s : Session σ) (e : DecodeError)
    (h : s.negotiate.1 = .error e) : ∃ refusal, e = .init refusal := by
  revert h
  unfold negotiate
  dsimp only
  generalize (if (s.isHardware && s.pools.platform.device.isSome) = true then MemoryKind.video
    else MemoryKind.system) = wanted
  generalize askQuery (σ := σ) _ = asked
  generalize (if asked.1 = .partialAcceleration then
    (MemoryKind.system, { asked.2 with params := { asked.2.params with memory := .system } })
    else (wanted, asked.2)) = settled
  intro h
  split at h
  · cases h
    exact ⟨_, rfl⟩
  · split at h
    · cases h
    · split at h
      · generalize askQuery (σ := σ) _ = asked' at h
        split at h
        · cases h
          exact ⟨_, rfl⟩
        · split at h
          · cases h
          · cases h
            exact ⟨_, rfl⟩
      · cases h
        exact ⟨_, rfl⟩

/-- The engine agreed on frames, which were then supplied, or it did not. -/
theorem allocateFrames_cases (pool : PoolId) (s : Session SimulatedEngine) :
    Yields (s.allocateFrames pool) fun x => ∃ t, Talked s t ∧
      t.params.sequence = s.params.sequence ∧
      ((∃ e, e ≠ .notOpened ∧ x = (.error e, t)) ∨
        ∃ request memory, t.supplyFrames pool request memory = .ok x) := by
  obtain ⟨ht, hs⟩ := talked_negotiate s
  have hne := negotiate_refusal s
  unfold allocateFrames
  split
  · rename_i e t heq
    rw [heq] at ht hs hne
    obtain ⟨refusal, rfl⟩ := hne e rfl
    exact .ok ⟨t, ht, hs, Or.inl ⟨.init refusal, nofun, rfl⟩⟩
  · rename_i request memory t heq
    rw [heq] at ht hs
    split
    · exact .ok ⟨t, ht, hs, Or.inl ⟨.notEnoughSurfaces _ _, nofun, rfl⟩⟩
    · exact fun x hx => ⟨t, ht, hs, Or.inr ⟨request, memory, hx⟩⟩

/-- Frames were supplied and made known to the engine, or the device was asked in vain. -/
theorem supplyFrames_cases (pool : PoolId) (request : Request) (memory : MemoryKind)
    (s : Session SimulatedEngine) :
    Yields (s.supplyFrames pool request memory) fun x =>
      ∃ settings request' answer pools,
        s.pools.supply pool s.params.info memory settings request' = .ok (answer, pools) ∧
        (∃ e, answer = .error e ∧ x = (.error (.allocation e), { s with pools := pools }) ∨
          ∃ allocator response, answer = .ok (allocator, response) ∧
            x = (.ok (), (askUseAllocator allocator
              { s with pools := pools, memory := memory }).2)) := by
  unfold supplyFrames
  dsimp only
  refine Yields.bind (fun a ha => ha) ?_
  rintro ⟨answer, pools⟩ hsupply
  cases answer with
  | error e => exact .pure ⟨_, _, _, _, hsupply, e, Or.inl ⟨rfl, rfl⟩⟩
  | ok answer =>
    obtain ⟨allocator, response⟩ := answer
    exact .pure ⟨_, _, _, _, hsupply, .unsupported, Or.inr ⟨allocator, response, rfl, rfl⟩⟩

end Session

end Multiview
