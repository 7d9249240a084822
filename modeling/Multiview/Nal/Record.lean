import Multiview.Bytes

/-!
Records of a length field and as many bytes, and their conversion to start codes. A buffer is
accepted if it consists of complete records; nothing is converted otherwise.
-/

namespace Multiview

/-- Why a buffer of records cannot be converted. -/
inductive RecordError where
  | lengthSize (size : Nat)
  | truncatedLength (offset : Nat)
  | tooLong (offset declared available : Nat)
  deriving DecidableEq, Repr

def RecordError.message : RecordError → String
  | lengthSize size => s!"unsupported NAL length size {size}"
  | truncatedLength offset => s!"length field at offset {offset} runs past the end of the buffer"
  | tooLong offset declared available =>
    s!"NAL at offset {offset} declares {declared} bytes but only {available} remain"

/-- Width of a length field: one to four bytes. -/
structure LengthSize where
  bytes : Nat
  one_le : 1 ≤ bytes
  le_four : bytes ≤ 4
  deriving DecidableEq, Repr

namespace LengthSize

def ofNat? (n : Nat) : Except RecordError LengthSize :=
  if h : 1 ≤ n ∧ n ≤ 4 then .ok ⟨n, h.1, h.2⟩ else .error (.lengthSize n)

def two : LengthSize := ⟨2, by decide, by decide⟩

end LengthSize

/-- The payload of the record at the front of `c.2`, which begins at offset `c.1`, and what
follows. -/
def record? (size : LengthSize) (c : Nat × Bytes) :
    Except RecordError (Option (Bytes × (Nat × Bytes))) :=
  match c with
  | (_, []) => .ok none
  | (offset, rest) =>
    let field := rest.take size.bytes
    if field.length < size.bytes then
      .error (.truncatedLength offset)
    else
      let declared := Bytes.toNumber field
      let body := rest.drop size.bytes
      let payload := body.take declared
      if payload.length < declared then
        .error (.tooLong offset declared body.length)
      else
        .ok (some (payload, (offset + size.bytes + declared, body.drop declared)))

/-- The payloads of a buffer of complete records. -/
def records (size : LengthSize) (src : Bytes) : Except RecordError (List Bytes) :=
  tryCollect (record? size) (src.length + 1) (0, src) []

/-- A long start code before the first payload and a short one before each further one. -/
def withStartCodes : List Bytes → Bytes
  | [] => []
  | first :: rest => [0, 0, 0, 1] ++ first ++ rest.flatMap ([0, 0, 1] ++ ·)

/-- Replaces the length fields of a buffer by start codes. -/
def toStartCodes (size : LengthSize) (src : Bytes) : Except RecordError Bytes :=
  (records size src).map withStartCodes

/-- The record of a payload. -/
def recordOf (width : Nat) (payload : Bytes) : Bytes :=
  Bytes.ofNumber width payload.length ++ payload

end Multiview
