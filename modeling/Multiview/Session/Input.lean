import Multiview.Nal.Unit
import Multiview.Session.Basic

/-!
Input on its way to the engine. It is kept in one buffer with start codes, whatever its framing was,
and end of sequence units are blanked out there because an engine would stop at them.
-/

namespace Multiview

/-- Sets the bytes from offset `start` to zero: four of them, or as many as there are. -/
def blankUnit (start : Nat) (buffer : Bytes) : Outcome Bytes := do
  let stop := min (start + 4) buffer.length
  let front ← takeExactly start buffer
  return front ++ List.replicate (stop - start) 0 ++ buffer.drop stop

/-- Offsets of the end of sequence units of a buffer. -/
def endOfSequenceStarts (buffer : Bytes) : List Nat :=
  ((startCodeUnits buffer).filter (·.header.type == .endOfSequence)).map (·.start)

/-- Blanks out the end of sequence units of a buffer. -/
def blankEndOfSequence (buffer : Bytes) : Outcome Bytes :=
  (endOfSequenceStarts buffer).foldlM (fun b start => blankUnit start b) buffer

namespace Session

variable {σ : Type}

/-- Appends input to the buffer. Input that cannot be converted to start codes changes nothing. -/
def appendInput (data : Bytes) (s : Session σ) : Outcome (Except DecodeError (Session σ)) := do
  match s.lengthSize with
  | none =>
    let buffer ← blankEndOfSequence (s.buffer ++ data)
    return .ok { s with buffer := buffer }
  | some size =>
    match toStartCodes size data with
    | .error e => return .error (.record e)
    | .ok converted =>
      let buffer ← blankEndOfSequence (s.buffer ++ converted)
      return .ok { s with buffer := buffer }

end Session

end Multiview
