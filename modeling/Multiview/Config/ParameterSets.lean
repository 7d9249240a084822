import Multiview.Config.Atom
import Multiview.Nal.Record

/-!
The parameter sets of a decoder configuration record. Five bytes of version, profile,
compatibility, level and length size are followed by two runs of parameter sets: a count, of which
five bits are read, and as many records with two-byte lengths.
-/

namespace Multiview

/-- What a decoder configuration record says. -/
structure SequenceHeader where
  /-- Width of the length fields in the samples of the stream. -/
  lengthSize : Nat
  sps : List Bytes
  pps : List Bytes
  deriving DecidableEq, Repr

/-- All parameter sets as records with two-byte lengths. -/
def SequenceHeader.data (h : SequenceHeader) : Bytes :=
  (h.sps ++ h.pps).flatMap (recordOf 2)

namespace Config

/-- Takes `count` parameter sets off the front of `buf`; the first of them is number `index`. -/
def parameterSets : Nat → Nat → Bytes → Except ConfigError (List Bytes × Bytes)
  | 0, _, buf => .ok ([], buf)
  | count + 1, index, buf => do
    if (buf.take 2).length < 2 then
      throw .truncatedRecord
    let declared := Bytes.toNumber (buf.take 2)
    let body := buf.drop 2
    if body.length < declared then
      throw (.parameterSetTooLong index declared body.length)
    let (sets, rest) ← parameterSets count (index + 1) (body.drop declared)
    return (body.take declared :: sets, rest)

/-- Takes a count and as many parameter sets off the front of `buf`. -/
def run (index : Nat) (buf : Bytes) : Except ConfigError (List Bytes × Bytes) :=
  match buf with
  | [] => .error .truncatedRecord
  | count :: rest => parameterSets (count &&& 0x1f).toNat index rest

/-- Reads a decoder configuration record. -/
def sequenceHeader (record : Bytes) : Except ConfigError SequenceHeader := do
  if record.length < 6 then
    throw .truncatedRecord
  if record.head? ≠ some 1 then
    throw .notConfiguration
  let (sps, rest) ← run 0 (record.drop 5)
  let (pps, _) ← run sps.length rest
  return ⟨((record.getD 4 0) &&& 3).toNat + 1, sps, pps⟩

end Config

end Multiview
