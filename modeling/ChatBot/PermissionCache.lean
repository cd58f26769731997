import ChatBot.NameMap
import ChatBot.Permission

/-!
# Permission caches

A cache belongs to one dispatch. It remembers the capabilities of every user it has been asked
about, and every decision it has made, so that each user is looked up at most once and no answer
changes while the dispatch lasts.
-/

set_option autoImplicit false

namespace ChatBot

/-- What a dispatch remembers about permissions. -/
structure PermissionCache where
  /-- The capabilities of the users looked up, where unknown users have none. -/
  known : NameMap (Option Capabilities) := ∅
  /-- The decisions by user and required tier, latest first. -/
  decisions : List ((String × Tier) × Bool) := []
  /-- How many users have been looked up. -/
  lookups : Nat := 0

namespace PermissionCache

/-- The cache that knows one user. -/
def seeded (c : Capabilities) : PermissionCache :=
  { known := (∅ : NameMap (Option Capabilities)).insert c.userId (some c) }

/-- The cache that a dispatch starts with: its sender has been looked up. -/
def ofSender (c : Capabilities) : PermissionCache :=
  { seeded c with lookups := 1 }

/-- What the cache says about a user. -/
def capabilities (p : PermissionCache) (user : String) : Option Capabilities :=
  p.known[user]?.join

/-- The decision that was made before. -/
def decision? (p : PermissionCache) (user : String) (required : Tier) : Option Bool :=
  p.decisions.lookup (user, required)

/-- Notes what a look-up has found. -/
def learn (p : PermissionCache) (user : String) (found : Option Capabilities) : PermissionCache :=
  { p with known := p.known.insert user found, lookups := p.lookups + 1 }

/-- Notes a decision. -/
def decide (p : PermissionCache) (user : String) (required : Tier) (allowed : Bool) :
    PermissionCache :=
  { p with decisions := ((user, required), allowed) :: p.decisions }

end PermissionCache

end ChatBot
