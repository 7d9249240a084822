import Multiview.Engine.Simulated
import Multiview.Proofs.Nal.Lengths
import Multiview.Session.Decode

/-!
Malformed samples. The conversion to start codes and the scan by length fields are written apart, but
they read the same records, up to the first one that is empty. A sample that cannot be converted leaves
a session as it was.
-/

namespace Multiview

/-- Offset of the record that could not be read. -/
def RecordError.offset? : RecordError → Option Nat
  | lengthSize _ => none
  | truncatedLength offset => some offset
  | tooLong offset _ _ => some offset

theorem Breaks.offset? {size : LengthSize} {offset : Nat} {rest : Bytes} {e : RecordError}
    (h : Breaks size offset rest e) : e.offset? = some offset := by
  cases h <;> rfl

/-- Behind records with a payload the error is where the scan stops. -/
theorem BreaksBehind.stop {size : LengthSize} {bs : Bytes} {ps : List Bytes} {us : List NalUnit}
    {e : RecordError} (h : BreaksBehind size bs ps e) (hne : ∀ p ∈ ps, p ≠ [])
    (hbs : Addressable bs) (hus : Finds (.lengthField size.bytes) bs us) :
    e.offset? = some ((us.getLast?.map (·.stop)).getD 0) := by
  have hunits : us = recordUnits size.bytes 0 ps := by
    have hfound := hus.all.symm.trans ((h.leading hne).finds hbs).all
    exact Except.ok.inj hfound
  obtain ⟨rest, _, hrest⟩ := h.behind
  rw [hunits, stop_recordUnits, Nat.zero_add]
  exact hrest.offset?

/-- A sample that cannot be converted is answered with an error and changes nothing. -/
theorem Session.decode_malformed {σ : Type} [DecodeEngine σ] {s : Session σ} {size : LengthSize}
    {bs : Bytes} {e : RecordError} (hp : s.phase = .opened ∨ s.phase = .ready)
    (hs : s.lengthSize = some size) (he : toStartCodes size bs = .error e) (dts pts : Option UInt64) :
    s.decode (some bs) dts pts = .ok ({ error := true }, s) := by
  have haccept : s.accept (some bs) = .ok (.error (.record e)) := by
    rcases hp with hp | hp <;> simp [accept, hp, appendInput, hs, he, pure, Except.pure]
  simp [decode, tryDecode, haccept, DecodeError.isFatal, bind, Except.bind, pure, Except.pure]

/-- What the conversion, the scan and a session make of a sample with length fields. -/
structure RecordsAgree (size : LengthSize) (bs : Bytes) : Prop where
  /-- Complete records are converted, and nothing else is. -/
  converted : ∀ out, toStartCodes size bs = .ok out ↔
    ∃ ps, (∀ p ∈ ps, p.length < 256 ^ size.bytes) ∧ bs = writeRecords size.bytes ps ∧
      out = withStartCodes ps
  /-- An error tells where a record breaks off behind complete ones. -/
  broken : ∀ e, toStartCodes size bs = .error e ↔ ∃ ps, BreaksBehind size bs ps e
  /-- The scan finds the leading records, each right behind the one before. -/
  scanned : Addressable bs → ∃ ps, LeadingRecords size bs ps ∧
    Finds (.lengthField size.bytes) bs (recordUnits size.bytes 0 ps)
  /-- If no record is empty, the conversion breaks off where the scan does. -/
  stopped : Addressable bs → ∀ us ps e, Finds (.lengthField size.bytes) bs us →
    BreaksBehind size bs ps e → (∀ p ∈ ps, p ≠ []) →
      e.offset? = some ((us.getLast?.map (·.stop)).getD 0)
  /-- A session refuses what cannot be converted and stays as it is. -/
  refused : ∀ {σ : Type} [DecodeEngine σ] (s : Session σ),
    s.phase = .opened ∨ s.phase = .ready → s.lengthSize = some size →
    ∀ e, toStartCodes size bs = .error e → ∀ dts pts,
      s.decode (some bs) dts pts = .ok ({ error := true }, s)

theorem records_agree (size : LengthSize) (bs : Bytes) : RecordsAgree size bs where
  converted _ := toStartCodes_eq_ok_iff
  broken _ := toStartCodes_eq_error_iff
  scanned hbs := by
    obtain ⟨ps, rest, hps, rfl, hrest⟩ := exists_noRecord size bs
    have hleading := LeadingRecords.of_noRecord hps hrest
    exact ⟨ps, hleading, hleading.finds hbs⟩
  stopped hbs _ _ _ hus he hne := he.stop hne hbs hus
  refused _ hp hs _ he := Session.decode_malformed hp hs he

/-- A record of one byte, and another one that declares three bytes of which two are there. -/
def cutShort : Bytes := [0, 1, 0x65, 0, 3, 1, 2]

/-- A session whose samples have lengths of two bytes. -/
def lengthsSession : Session SimulatedEngine :=
  { engine := {}, phase := .opened, lengthSize := some .two }

theorem cutShort_agrees :
    toStartCodes .two cutShort = .error (.tooLong 3 3 2) ∧
    BreaksBehind .two cutShort [[0x65]] (.tooLong 3 3 2) ∧
    Finds (.lengthField 2) cutShort (recordUnits 2 0 [[0x65]]) ∧
    lengthsSession.decode (some cutShort) none none = .ok ({ error := true }, lengthsSession) := by
  have hagree := records_agree .two cutShort
  have herror : toStartCodes .two cutShort = .error (.tooLong 3 3 2) := rfl
  have hlast : Breaks .two 3 ([0, 3] ++ [1, 2]) (.tooLong 3 3 2) := .payload rfl (by decide)
  have hbreaks : BreaksBehind .two cutShort [[0x65]] (.tooLong 3 3 2) :=
    ⟨by decide, [0, 3, 1, 2], rfl, hlast⟩
  obtain ⟨ps, hleading, hfinds⟩ := hagree.scanned (by decide)
  obtain rfl := hleading.unique (hbreaks.leading (by decide))
  exact ⟨herror, hbreaks, hfinds,
    hagree.refused lengthsSession (.inl rfl) rfl _ herror none none⟩

end Multiview
