import ChatBot.Json.Basic

/-!
# Decoding JSON into typed values

A record is decoded from an object, whose other fields are ignored, or from a list of its fields
in their fixed order. A field is required, or has a default that stands in when it is missing, or
is optional, where null means that there is no value. A choice among names is decoded from the
name, or from an object with that name alone and null in it.
-/

set_option autoImplicit false

namespace ChatBot.Json

/-- Decodes a text. -/
def decodeString : Json → Option String
  | str s => some s
  | _ => none

/-- Decodes a truth value. -/
def decodeBool : Json → Option Bool
  | bool b => some b
  | _ => none

/-- Decodes a number. -/
def decodeFloat : Json → Option Float
  | int n => some (Float.ofInt n)
  | float x => some x
  | _ => none

/-- Decodes a whole number that is not negative. -/
def decodeNat : Json → Option Nat
  | int (.ofNat n) => some n
  | _ => none

/-- Decodes a list item by item. -/
def decodeList {α : Type} (item : Json → Option α) : Json → Option (List α)
  | arr items => items.mapM item
  | _ => none

/-- Decodes a choice among names. -/
def decodeChoice {α : Type} (choices : List (String × α)) : Json → Option α
  | str s => choices.lookup s
  | obj [(s, null)] => choices.lookup s
  | _ => none

/-- The fields of a record that is being decoded. -/
structure Fields where
  /-- Whether the record was given as a list. -/
  byPosition : Bool
  find : String → Option Json

/-- The fields of a record with the given field names. -/
def fields? (names : List String) : Json → Option Fields
  | obj fields => some ⟨false, fun name => fields.lookup name⟩
  | arr items =>
    if items.length ≤ names.length then some ⟨true, fun name => (names.zip items).lookup name⟩
    else none
  | _ => none

/-- A field that must be there. -/
def Fields.required {α : Type} (fs : Fields) (name : String) (decode : Json → Option α) :
    Option α :=
  (fs.find name).bind decode

/-- A field with a default. -/
def Fields.orDefault {α : Type} (fs : Fields) (name : String) (default : α)
    (decode : Json → Option α) : Option α :=
  match fs.find name with
  | some v => decode v
  | none => some default

/-- A field that may be missing or null. -/
def Fields.optional {α : Type} (fs : Fields) (name : String) (decode : Json → Option α) :
    Option (Option α) :=
  match fs.find name with
  | some null => some none
  | some v => (decode v).map some
  | none => if fs.byPosition then none else some none

end ChatBot.Json
