import ChatBot.Json.Basic
import ChatBot.Template.Node

/-!
# Numbered templates

The nodes of a template laid out in one list, in which a filter names its parts by their numbers.
A node gets its number once all its parts have theirs, so numbers grow from left to right and
from the inside out.
-/

set_option autoImplicit false

namespace ChatBot.Template

/-- A node whose parts are given by number. -/
inductive Slot where
  | literal (text : String)
  | reference (name : String) (silent persisted : Bool) (source : String)
  /-- A filter with the numbers of the nodes of each segment. -/
  | filter (segments : List (List Nat)) (source : String)
  deriving DecidableEq

namespace Slot

/-- Whether a slot holds a filter. -/
def isFilter : Slot → Bool
  | filter _ _ => true
  | _ => false

/-- Encodes a slot. -/
def toJson : Slot → Json
  | literal text => Json.ofFields [("literal", .str text)]
  | reference name silent persisted source =>
    Json.ofFields [
      ("variable", .str name), ("silent", .bool silent), ("persisted", .bool persisted),
      ("source", .str source)]
  | filter segments source =>
    let ids (segment : List Nat) : Json := .arr (segment.map fun (n : Nat) => .int n)
    Json.ofFields [("filter", .arr (segments.map ids)), ("source", .str source)]

end Slot

mutual

/-- The slots of a node when the next free number is `next`; its own slot is the last one. -/
def slotsOf (next : Nat) : Node → List Slot
  | .literal text => [.literal text]
  | .reference name silent persisted source => [.reference name silent persisted source]
  | .filter segments source =>
    let (slots, ids) := slotsOfSegments next segments
    slots ++ [.filter ids source]

/-- The slots of nodes in a row, and the numbers of those nodes. -/
def slotsOfNodes (next : Nat) : List Node → List Slot × List Nat
  | [] => ([], [])
  | n :: rest =>
    let slots := slotsOf next n
    let after := next + slots.length
    let (more, ids) := slotsOfNodes after rest
    (slots ++ more, (after - 1) :: ids)

/-- The slots of segments, and the numbers of their nodes. -/
def slotsOfSegments (next : Nat) : List (List Node) → List Slot × List (List Nat)
  | [] => ([], [])
  | segment :: rest =>
    let (slots, ids) := slotsOfNodes next segment
    let (more, others) := slotsOfSegments (next + slots.length) rest
    (slots ++ more, ids :: others)

end

/-- A template as a list of slots, with the numbers of the outermost nodes. -/
structure Arena where
  /-- All nodes in the order of their numbers. -/
  slots : List Slot
  /-- The numbers of the outermost nodes, in order. -/
  root : List Nat
  deriving DecidableEq

namespace Arena

/-- The numbered form of a template. -/
def ofNodes (nodes : List Node) : Arena :=
  let (slots, root) := slotsOfNodes 0 nodes
  { slots, root }

/-- How many nodes there are. -/
def size (a : Arena) : Nat :=
  a.slots.length

/-- Whether there is any filter. -/
def hasFilters (a : Arena) : Bool :=
  a.slots.any Slot.isFilter

end Arena

end ChatBot.Template
