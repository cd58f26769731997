/-!
# The client

What makes the fetches. A client says how a fetch comes out, by the number of fetches before it, the
name under which it is made, and the address as it is written. What an address is, how it is sent,
which redirections are followed and when time is up are the client's affair.
-/

set_option autoImplicit false

namespace ChatBot.Http

/-- How a fetch comes out. -/
inductive Response where
  /-- An answer with a status, and its body if that can be read to its end. -/
  | answered (status : Nat) (body : Option String)
  /-- No answer: there is no such address, or nothing can be reached there, or time is up. -/
  | failed
  deriving DecidableEq

/-- A request that has arrived. -/
structure Request where
  url : String
  agent : String
  deriving DecidableEq

/-- A fetch that has been made: how it has come out, and the requests that have arrived meanwhile,
oldest first. -/
structure Fetch where
  response : Response
  requests : List Request := []

/-- How fetches come out, by the number of fetches before, the name of the one who asks and the
address. -/
abbrev Client := Nat → String → String → Fetch

/-- A client for which nothing can be reached. -/
def offline : Client := fun _ _ _ => { response := .failed }

/-- Whether a status tells of an error, of the one who asks or of the one who is asked. -/
def isError (status : Nat) : Bool :=
  400 ≤ status && status < 600

/-- The body that a fetch has brought, if it has brought one. -/
def Response.body? : Response → Option String
  | answered status body => if isError status then none else body
  | failed => none

end ChatBot.Http
