import Multiview.Bytes

/-!
Configuration of a stereo stream as its container carries it: the decoder configuration record of
the base view, then an `mvcC` atom that wraps the record of the second view. An atom begins with its
size in four bytes and its four-character tag.
-/

namespace Multiview

/-- Why a configuration cannot be read. -/
inductive ConfigError where
  | notConfiguration
  | missingAtom
  | truncatedAtom
  | truncatedRecord
  | parameterSetTooLong (index declared available : Nat)
  deriving DecidableEq, Repr

def ConfigError.message : ConfigError → String
  | notConfiguration => "extradata is not an AVC decoder configuration record"
  | missingAtom => "no mvcC atom found in extradata"
  | truncatedAtom => "mvcC atom is truncated"
  | truncatedRecord => "decoder configuration record is truncated"
  | parameterSetTooLong index declared available =>
    s!"parameter set {index} declares {declared} bytes but only {available} remain"

namespace Config

/-- The tag `mvcC`. -/
def atomTag : Bytes := [0x6d, 0x76, 0x63, 0x43]

/-- Size of an atom around a record without parameter sets. -/
def minAtomSize : Nat := 14

/-- Offset of the first occurrence of the tag, counted from `offset`. -/
def findTag (offset : Nat) : Bytes → Option Nat
  | [] => none
  | b :: rest => if (b :: rest).take 4 == atomTag then some offset else findTag (offset + 1) rest

/-- The configuration record in the first `mvcC` atom. At least one byte of another record comes
before the atom. -/
def secondViewRecord (extradata : Bytes) : Except ConfigError Bytes := do
  if extradata.length ≤ 4 ∨ extradata.head? ≠ some 1 then
    throw .notConfiguration
  let some tag := findTag 0 extradata | throw .missingAtom
  if tag ≤ 4 then
    throw .missingAtom
  let atom := extradata.drop (tag - 4)
  if atom.length < minAtomSize then
    throw .truncatedAtom
  let size := Bytes.toNumber (atom.take 4)
  if size < minAtomSize ∨ atom.length < size then
    throw .truncatedAtom
  let record := (atom.take size).drop 8
  if record.head? ≠ some 1 then
    throw .notConfiguration
  return record

end Config

end Multiview
