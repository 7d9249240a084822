import Multiview.Nal.Unit

/-!
A stream cut into units and into access units. An access unit holds one picture of each view: it
ends before the first unit behind a slice that is not an extension slice, so parameter sets and
other units go with the slices that follow them.
-/

namespace Multiview

/-- Groups of units, one for each access unit. `group` is the one being filled, last unit first. -/
def groupUnits (group : List NalUnit) (hasSlice : Bool) : List NalUnit → List (List NalUnit)
  | [] => [group.reverse]
  | u :: rest =>
    if hasSlice && !u.isExtensionSlice then
      group.reverse :: groupUnits [u] u.isSlice rest
    else
      groupUnits (u :: group) (hasSlice || u.isSlice) rest

def accessUnitGroups : List NalUnit → List (List NalUnit)
  | [] => []
  | u :: rest => groupUnits [u] u.isSlice rest

/-- The part of the stream from the first unit of a group to its last. -/
def groupBytes (stream : Bytes) (group : List NalUnit) : Bytes :=
  match group.head?, group.getLast? with
  | some first, some last => stream.slice first.start last.stop
  | _, _ => []

/-- The access units of a stream with start codes. -/
def accessUnits (stream : Bytes) : List Bytes :=
  (accessUnitGroups (startCodeUnits stream)).map (groupBytes stream)

/-- The units of a stream, each with its start code. -/
def framedUnits (stream : Bytes) : List Bytes :=
  (startCodeUnits stream).map fun u => stream.slice u.start u.stop

end Multiview
