import ChatBot.Template.Entropy
import ChatBot.Template.Filter
import ChatBot.World

/-!
# The template engine

What rendering needs besides the context and the shared state: its configuration, the registered
filters, the client that makes the fetches, the source of random numbers, and which calls to the
variable backend go wrong.
-/

set_option autoImplicit false

namespace ChatBot.Template

/-- How the engine is configured. -/
structure EngineConfig where
  /-- How long a fetch may take, in milliseconds. -/
  apiTimeoutMs : Nat := 5000
  /-- The name under which fetches are made. -/
  apiUserAgent : String := "ara-chat-engine"
  /-- How many filters may stand inside one another and still be evaluated. -/
  maxRenderDepth : Nat := 32
  /-- What a draw among no users gives. -/
  unknownUser : String := "unknown"
  deriving DecidableEq

/-- The engine. -/
structure Engine where
  config : EngineConfig := {}
  filters : FilterRegistry := {}
  client : Http.Client := Http.offline
  entropy : Entropy := fun _ => 0
  /-- Which calls to the variable backend go wrong. -/
  disturbances : Disturbances := undisturbed

/-- The engine of a configuration; there is none if fetches cannot be made under its name. -/
def Engine.ofConfig? (isAgent : String → Bool) (config : EngineConfig) (filters : FilterRegistry) :
    Option Engine :=
  if isAgent config.apiUserAgent then some { config, filters } else none

variable {ε : Type}

/-- Draws one of the numbers below `n`. -/
def Engine.drawBelow (e : Engine) (n : Nat) (positive : 0 < n) : Activity ε (Fin n) :=
  .act fun w => (⟨e.entropy w.draws % n, Nat.mod_lt _ positive⟩, { w with draws := w.draws + 1 })

end ChatBot.Template
