import EventRelay.Json.Printer
import Std.Data.ExtTreeMap

/-!
# The answer to a status query

A query names ids, and the answer gives each of them a status: acknowledged or not. The entries
stand in the order in which the ids were first named, and an id that is named again keeps its place
and takes the later status. `positions` says where an id stands, so that a long query costs no
search; the two parts agree as long as entries are only added by `insert`.
-/

namespace EventRelay.Ack

/-- Statuses by id, in the order of the query. -/
structure Statuses where
  entries : Array (Int × Bool) := #[]
  /-- Where in the entries an id stands. -/
  positions : Std.ExtTreeMap Int Nat compare := ∅

namespace Statuses

/-- No statuses. -/
def empty : Statuses := {}

/-- Notes the status of an id. -/
def insert (id : Int) (status : Bool) (s : Statuses) : Statuses :=
  match s.positions[id]? with
  | some p => { s with entries := s.entries.setIfInBounds p (id, status) }
  | none =>
    { entries := s.entries.push (id, status), positions := s.positions.insert id s.entries.size }

/-- The statuses of a list of ids, noted one after another. -/
def ofList (l : List (Int × Bool)) : Statuses := l.foldl (fun s e => s.insert e.1 e.2) empty

/-- The status of an id that was asked for. -/
def get? (id : Int) (s : Statuses) : Option Bool :=
  match s.positions[id]? with
  | some p => s.entries[p]?.map Prod.snd
  | none => none

/-- The entries in order. -/
def toList (s : Statuses) : List (Int × Bool) := s.entries.toList

/-- How many ids have a status. -/
def size (s : Statuses) : Nat := s.entries.size

/-- The statuses as an object whose names are the ids, in order. -/
def toJson (s : Statuses) : Json := .object (s.toList.map fun e => (toString e.1, .bool e.2))

end Statuses

end EventRelay.Ack
