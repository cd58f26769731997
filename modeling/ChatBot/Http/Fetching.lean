import ChatBot.World

/-!
# Fetching

A fetch asks a client for the body behind an address. An answer whose status tells of an error is a
failure, as is the lack of an answer.
-/

set_option autoImplicit false

namespace ChatBot.Http

variable {ε : Type}

/-- The body behind an address; nothing when the fetch fails. -/
def fetch (client : Client) (agent address : String) : Activity ε (Option String) :=
  .act fun w =>
    let made := client w.fetches agent address
    (made.response.body?, { w with
      fetches := w.fetches + 1
      requests := w.requests ++ made.requests })

end ChatBot.Http
