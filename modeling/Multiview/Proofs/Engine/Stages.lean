import Multiview.Proofs.Engine.Attentive

/-!
How far an engine has come with its streams. Two engines at the same stage that are not busy give the same
answers to a stream, whatever surfaces they are handed and whatever operations are in flight.
-/

namespace Multiview

open Outcome

/-- The view and the picture of a surface that came back, without the surface itself. -/
def DecodedSurface.outline (d : DecodedSurface) : UInt16 × FrameMeta := (d.info.viewId, d.frameMeta)

/-- What the answers of an engine depend on, apart from a device that is busy. -/
structure Stage where
  injected : List EngineStatus
  nextOrder : UInt32
  lastBaseOrder : UInt32
  /-- The engine holds parameters to decode with. -/
  held : Bool
  deriving DecidableEq, Repr

namespace SimulatedEngine

variable {e e' : SimulatedEngine}

def stage (e : SimulatedEngine) : Stage :=
  ⟨e.injected, e.nextOrder, e.lastBaseOrder, e.params.isSome⟩

/-- The engine will not find its device busy. -/
structure Calm (e : SimulatedEngine) : Prop where
  busy : e.busy = .calls 0
  injected : .deviceBusy ∉ e.injected

/-- The same answer at the same stage. Surfaces may be others. -/
structure Twofold (a b : DecodeAnswer SimulatedEngine) : Prop where
  status : b.status = a.status
  stream : b.stream = a.stream
  output : b.output.map DecodedSurface.outline = a.output.map DecodedSurface.outline
  stage : b.engine.stage = a.engine.stage

theorem nextPicture_stage (h : e'.stage = e.stage) (u : NalUnit) :
    Agree (fun x y => y.1 = x.1 ∧ y.2.1 = x.2.1 ∧ y.2.2.stage = x.2.2.stage)
      (e.nextPicture u) (e'.nextPicture u) := by
  have hinjected : e'.injected = e.injected := congrArg Stage.injected h
  have hnext : e'.nextOrder = e.nextOrder := congrArg Stage.nextOrder h
  have hlast : e'.lastBaseOrder = e.lastBaseOrder := congrArg Stage.lastBaseOrder h
  have hheld : e'.params.isSome = e.params.isSome := congrArg Stage.held h
  unfold nextPicture
  rw [hnext, hlast]
  split
  · refine (below_sound _ _).yields.agree.bind ?_
    rintro next _ ⟨rfl, -⟩
    refine .pure ⟨rfl, rfl, ?_⟩
    unfold stage
    rw [hinjected, hheld]
  · exact .pure ⟨rfl, rfl, h⟩

theorem decodeSlice_stage (h : e'.stage = e.stage) (params params' : VideoParams) (u : NalUnit)
    (stream : Bitstream) (work work' : WorkSurface) (r r' : Resources) :
    Agree Twofold (decodeSlice params u stream work e r) (decodeSlice params' u stream work' e' r') := by
  unfold decodeSlice
  refine (consume_sound stream u.stop).yields.agree.bind ?_
  rintro stream' _ ⟨rfl, -⟩
  refine (nextPicture_stage h u).bind ?_
  rintro ⟨_, _, f⟩ ⟨viewId, order, f'⟩ ⟨rfl, rfl, hstage⟩
  dsimp only at hstage ⊢
  -- A frame that cannot be written to is left alone, so that neither engine fails here.
  cases f.allocator with
  | none =>
    cases f'.allocator with
    | none => exact .ok ⟨rfl, rfl, rfl, hstage⟩
    | some id' =>
      obtain ⟨s', hs', -⟩ := Resources.fillLuma_returns id' work'.mid (lumaPattern viewId order)
        (r'.lock work'.lock)
      dsimp only
      rw [hs']
      exact .ok ⟨rfl, rfl, rfl, hstage⟩
  | some id =>
    obtain ⟨s, hs, -⟩ := Resources.fillLuma_returns id work.mid (lumaPattern viewId order)
      (r.lock work.lock)
    cases f'.allocator with
    | none =>
      dsimp only
      rw [hs]
      exact .ok ⟨rfl, rfl, rfl, hstage⟩
    | some id' =>
      obtain ⟨s', hs', -⟩ := Resources.fillLuma_returns id' work'.mid (lumaPattern viewId order)
        (r'.lock work'.lock)
      dsimp only
      rw [hs, hs']
      exact .ok ⟨rfl, rfl, rfl, hstage⟩

/-- Engines that are not busy give the same answer at the same stage. -/
theorem decode_stage (h : e'.stage = e.stage) (hb : e.busy = .calls 0) (hb' : e'.busy = .calls 0)
    (input : Option Bitstream) (work work' : WorkSurface) (r r' : Resources) :
    Agree Twofold (e.decode input work r) (e'.decode input work' r') := by
  have hinjected : e'.injected = e.injected := congrArg Stage.injected h
  have hnext : e'.nextOrder = e.nextOrder := congrArg Stage.nextOrder h
  have hlast : e'.lastBaseOrder = e.lastBaseOrder := congrArg Stage.lastBaseOrder h
  have hheld : e'.params.isSome = e.params.isSome := congrArg Stage.held h
  cases hi : e.injected with
  | cons status rest =>
    rw [hi] at hinjected
    rw [decode_injected hb hi, decode_injected hb' hinjected]
    refine .ok ⟨rfl, rfl, rfl, ?_⟩
    unfold stage
    rw [hnext, hlast, hheld]
  | nil =>
    rw [hi] at hinjected
    cases hp : e.params with
    | none =>
      rw [hp, Option.isSome_none, Option.isSome_eq_false_iff, Option.isNone_iff_eq_none] at hheld
      rw [decode_unheld hb hi hp, decode_unheld hb' hinjected hheld]
      exact .ok ⟨rfl, rfl, rfl, h⟩
    | some params =>
      have he : Attentive e := ⟨hb, hi, by rw [hp]; rfl⟩
      have he' : Attentive e' := ⟨hb', hinjected, hheld.trans he.held⟩
      cases input with
      | none =>
        rw [decode_none he, decode_none he']
        exact .ok ⟨rfl, rfl, rfl, h⟩
      | some stream =>
        obtain ⟨_, -, hdecode⟩ := decode_attentive he stream work r
        obtain ⟨_, -, hdecode'⟩ := decode_attentive he' stream work' r'
        rw [hdecode, hdecode']
        cases (sliceUnits stream.remaining).head? with
        | none =>
          refine (consume_sound stream _).yields.agree.bind ?_
          rintro stream' _ ⟨rfl, -⟩
          exact .pure ⟨rfl, rfl, rfl, h⟩
        | some u =>
          have hawake : ({ e' with submissions := e'.submissions + 1 }.completeAll r').1.stage =
              ({ e with submissions := e.submissions + 1 }.completeAll r).1.stage := h
          exact decodeSlice_stage hawake _ _ u stream work work' _ _

/-- An engine stays calm, and does not find its device busy. -/
theorem decode_calm (h : e.Calm) (input : Option Bitstream) (work : WorkSurface) (r : Resources) :
    Yields (e.decode input work r) fun a => a.status ≠ .deviceBusy ∧ a.engine.Calm := by
  cases hi : e.injected with
  | cons status rest =>
    have hbusy := h.injected
    rw [hi, List.mem_cons, not_or] at hbusy
    rw [decode_injected h.busy hi]
    exact .ok ⟨fun hs => hbusy.1 hs.symm, h.busy, hbusy.2⟩
  | nil =>
    cases hp : e.params with
    | none =>
      rw [decode_unheld h.busy hi hp]
      exact .ok ⟨nofun, h.busy, h.injected⟩
    | some params =>
      have he : Attentive e := ⟨h.busy, hi, by rw [hp]; rfl⟩
      cases input with
      | none =>
        rw [decode_none he]
        exact .ok ⟨nofun, h.busy, h.injected⟩
      | some stream =>
        obtain ⟨_, -, hdecode⟩ := decode_attentive he stream work r
        rw [hdecode]
        cases (sliceUnits stream.remaining).head? with
        | none =>
          exact (consume_sound stream _).yields.bind fun _ _ => .pure ⟨nofun, h.busy, h.injected⟩
        | some u =>
          refine (decodeSlice_rest _ u stream work _ _).mono ?_
          rintro a ⟨hstatus, _, _, _, _, ha⟩
          rw [hstatus, ha]
          exact ⟨nofun, h.busy, h.injected⟩

theorem sync_stage (point : SyncPoint) (e : SimulatedEngine) (r : Resources) :
    (e.sync point r).2.1.stage = e.stage := by
  unfold sync
  dsimp only
  split
  · rfl
  · split <;> rfl

end SimulatedEngine

end Multiview
