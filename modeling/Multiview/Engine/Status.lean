/-!
Answers of the decode engine. Success and warnings let a caller go on; every other status is
reported as an error of the operation it answers.
-/

namespace Multiview

inductive EngineStatus where
  | ok
  /-- More of the stream is needed before there is output. -/
  | moreData
  /-- Another work surface is needed before there is output. -/
  | moreSurface
  /-- The device takes no work at the moment. -/
  | deviceBusy
  /-- The stream changed and the decoder has to be set up again. -/
  | incompatibleParams
  /-- A table of the caller is too small for what the engine has to say. -/
  | notEnoughBuffer
  /-- Warning: only a part of the work runs on the hardware. -/
  | partialAcceleration
  /-- Warning: the operation is still running. -/
  | inExecution
  | unsupported
  | fatal
  deriving DecidableEq, Repr

namespace EngineStatus

def name : EngineStatus → String
  | ok => "Ok"
  | moreData => "MoreData"
  | moreSurface => "MoreSurface"
  | deviceBusy => "DeviceBusy"
  | incompatibleParams => "IncompatibleParams"
  | notEnoughBuffer => "NotEnoughBuffer"
  | partialAcceleration => "PartialAcceleration"
  | inExecution => "InExecution"
  | unsupported => "Unsupported"
  | fatal => "Fatal"

def all : List EngineStatus :=
  [ok, moreData, moreSurface, deviceBusy, incompatibleParams, notEnoughBuffer, partialAcceleration,
    inExecution, unsupported, fatal]

def ofName? (name : String) : Option EngineStatus := all.find? (·.name == name)

theorem ofName?_name (s : EngineStatus) : ofName? s.name = some s := by
  cases s <;> decide

/-- Neither success nor a warning. -/
def isError : EngineStatus → Bool
  | ok | partialAcceleration | inExecution => false
  | _ => true

end EngineStatus

/-- An operation that the engine answered with an error. -/
structure EngineError where
  operation : String
  status : EngineStatus
  deriving DecidableEq, Repr

def EngineError.message (e : EngineError) : String :=
  "engine " ++ e.operation ++ " failed: " ++ e.status.name

/-- The status itself, unless it is an error. -/
def EngineStatus.check (status : EngineStatus) (operation : String) :
    Except EngineError EngineStatus :=
  if status.isError then .error ⟨operation, status⟩ else .ok status

namespace EngineStatus

variable {status : EngineStatus} {operation : String}

@[simp] theorem check_ok : ok.check operation = .ok ok := rfl

@[simp] theorem check_partialAcceleration :
    partialAcceleration.check operation = .ok partialAcceleration := rfl

theorem check_of_isError (h : status.isError = true) :
    status.check operation = .error ⟨operation, status⟩ := if_pos h

theorem check_of_not_isError (h : ¬ status.isError = true) : status.check operation = .ok status :=
  if_neg h

theorem isError_of_check {r : EngineStatus} (h : status.check operation = .ok r) :
    status.isError = false := by
  cases he : status.isError with
  | false => rfl
  | true =>
    rw [check_of_isError he] at h
    cases h

end EngineStatus

end Multiview
