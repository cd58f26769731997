import ChatBot.Messaging
import ChatBot.Permission

/-!
# Invocations

What a handler is told about the line it is asked to handle. An invocation is plain data, so that
it can wait in a queue.
-/

set_option autoImplicit false

namespace ChatBot

/-- A line as a handler sees it. -/
structure Invocation where
  message : ChatMessage
  capabilities : Capabilities
  /-- The command words that the handler was found by, if any. -/
  command : String
  param : String
  /-- The permission cache of the dispatch, by number. -/
  cache : Nat

/-- A reply on behalf of the sender. -/
def Invocation.reply (i : Invocation) (text : String) : OutboundMessage :=
  { text, sender := i.message.sender }

/-- A handler that waits in the detached queue, by its number in the registry. -/
structure DetachedJob where
  handler : Nat
  /-- What it is asked to handle. -/
  invocation : Invocation
  /-- Whether its responses are dropped. -/
  quiet : Bool

end ChatBot
