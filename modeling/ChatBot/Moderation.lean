import ChatBot.Messaging
import ChatBot.Text.LowerCase
import ChatBot.Text.Search

/-!
# Moderation

Two lists guard the chat: senders who are ignored, and phrases that stop a line wherever they
occur in it. Both are compared in lower case.
-/

set_option autoImplicit false

namespace ChatBot

/-- Who is ignored and what may not be said, all in lower case. -/
structure Moderation where
  ignored : List String := []
  /-- The phrases that stop a line. -/
  blocked : List String := []

namespace Moderation

/-- Ignores a sender from now on. -/
def ignore (m : Moderation) (username : String) : Moderation :=
  let name := Text.lower username
  if m.ignored.contains name then m else { m with ignored := name :: m.ignored }

/-- Whether a name is on the list of ignored senders. -/
def ignoresName (m : Moderation) (username : String) : Bool :=
  m.ignored.contains (Text.lower username)

/-- Takes a sender off the list of ignored ones. -/
def unignore (m : Moderation) (username : String) : Moderation :=
  { m with ignored := m.ignored.filter (· != Text.lower username) }

/-- Stops lines that contain a phrase from now on. -/
def block (m : Moderation) (phrase : String) : Moderation :=
  let phrase := Text.lower phrase
  if m.blocked.contains phrase then m else { m with blocked := phrase :: m.blocked }

/-- Whether a sender is ignored. -/
def ignores (m : Moderation) (sender : Sender) : Bool :=
  m.ignoresName sender.username

/-- Whether a line contains a blocked phrase. -/
def stops (m : Moderation) (message : ChatMessage) : Bool :=
  let text := Text.lower message.text
  m.blocked.any fun phrase => Text.contains text phrase

end Moderation

end ChatBot
