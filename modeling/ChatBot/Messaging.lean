import ChatBot.Json.Decode
import ChatBot.NameMap

/-!
# Chat messages

The lines that come in, and the messages that go out. An outgoing message is addressed to the
chat on behalf of a sender and may carry attributes for the transport.
-/

set_option autoImplicit false

namespace ChatBot

/-- The author of a chat line. -/
structure Sender where
  /-- The id in the user directory. -/
  id : String
  username : String
  deriving DecidableEq

namespace Sender

/-- Decodes a sender. -/
def ofJson? (j : Json) : Option Sender := do
  let fs ← j.fields? ["id", "username"]
  let id ← fs.required "id" Json.decodeString
  let username ← fs.required "username" Json.decodeString
  pure { id, username }

/-- Encodes a sender. -/
def toJson (s : Sender) : Json :=
  Json.ofFields [("id", .str s.id), ("username", .str s.username)]

end Sender

/-- One line of chat. -/
structure ChatMessage where
  sender : Sender
  text : String
  /-- Asks to pass the handlers that may be skipped; heeded for casters and moderators only. -/
  skip : Bool := false
  /-- Asks that nothing be answered. -/
  quiet : Bool := false

/-- A message to the chat. -/
structure OutboundMessage where
  text : String
  /-- On whose behalf it is sent. -/
  sender : Sender
  /-- Notes for the transport. -/
  attrs : NameMap String := ∅

namespace OutboundMessage

/-- The same message with one more attribute. -/
def withAttr (m : OutboundMessage) (key value : String) : OutboundMessage :=
  { m with attrs := m.attrs.insert key value }

/-- Decodes the attributes of a message. -/
def attrsOfJson? : Json → Option (NameMap String)
  | .obj fields =>
    (fields.mapM fun field => (Json.decodeString field.2).map fun s => (field.1, s)).map
      NameMap.ofList
  | _ => none

/-- Decodes a message. -/
def ofJson? (j : Json) : Option OutboundMessage := do
  let fs ← j.fields? ["text", "sender", "attrs"]
  let text ← fs.required "text" Json.decodeString
  let sender ← fs.required "sender" Sender.ofJson?
  let attrs ← fs.orDefault "attrs" ∅ attrsOfJson?
  pure { text, sender, attrs }

/-- Encodes a message; without attributes there is no field for them. -/
def toJson (m : OutboundMessage) : Json :=
  let attrs :=
    if m.attrs.isEmpty then []
    else [("attrs", Json.ofFields (m.attrs.toList.map fun entry => (entry.1, .str entry.2)))]
  Json.ofFields ([("text", .str m.text), ("sender", m.sender.toJson)] ++ attrs)

end OutboundMessage

end ChatBot
