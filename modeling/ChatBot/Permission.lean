import ChatBot.Messaging
import ChatBot.Text.LowerCase
import ChatBot.Users

/-!
# Permissions

A sender's standing is one of six tiers, taken from the highest badge in the user's record; the
owners of the bot rank as casters whatever their record says.
-/

set_option autoImplicit false

namespace ChatBot

/-- The tiers of standing, lowest first. -/
inductive Tier where
  | viewer
  | follower
  | subscriber
  | vip
  | moderator
  /-- Runs the channel or owns the bot. -/
  | caster
  deriving DecidableEq

namespace Tier

/-- The place of a tier in their order. -/
def rank : Tier → Nat
  | viewer => 0
  | follower => 1
  | subscriber => 2
  | vip => 3
  | moderator => 4
  | caster => 5

instance : LE Tier := ⟨fun a b => a.rank ≤ b.rank⟩

instance (a b : Tier) : Decidable (a ≤ b) := Nat.decLe a.rank b.rank

/-- The name of a tier. -/
def name : Tier → String
  | viewer => "viewer"
  | follower => "follower"
  | subscriber => "subscriber"
  | vip => "vip"
  | moderator => "moderator"
  | caster => "caster"

/-- All tiers by name. -/
def byName : List (String × Tier) :=
  [viewer, follower, subscriber, vip, moderator, caster].map fun t => (t.name, t)

/-- Decodes a tier. -/
def ofJson? : Json → Option Tier := Json.decodeChoice byName

end Tier

/-- What a sender may do, worked out once for a message. -/
structure Capabilities where
  userId : String
  username : String
  tier : Tier := .viewer
  /-- Runs the channel or owns the bot. -/
  isCaster : Bool := false
  isModerator : Bool := false
  isVip : Bool := false
  isSubscriber : Bool := false
  isFollower : Bool := false
  deriving DecidableEq

namespace Capabilities

/-- The capabilities of a sender without a record. -/
def viewer (s : Sender) : Capabilities :=
  { userId := s.id, username := s.username }

/-- The tier of a record's highest badge. -/
def tierOf (u : UserRecord) (isOwner : Bool) : Tier :=
  if u.isCaster || isOwner then .caster
  else if u.isModerator then .moderator
  else if u.isVip then .vip
  else if u.isSubscriber then .subscriber
  else if u.isFollower then .follower
  else .viewer

/-- The capabilities that a record gives. -/
def ofRecord (u : UserRecord) (isOwner : Bool) : Capabilities where
  userId := u.id
  username := u.username
  tier := tierOf u isOwner
  isCaster := u.isCaster || isOwner
  isModerator := u.isModerator
  isVip := u.isVip
  isSubscriber := u.isSubscriber
  isFollower := u.isFollower

/-- Whether the standing is at least the required one. -/
def satisfies (c : Capabilities) (required : Tier) : Bool :=
  required ≤ c.tier

/-- Casters and moderators, who may skip handlers. -/
def isPrivileged (c : Capabilities) : Bool :=
  c.isCaster || c.isModerator

/-- Encodes capabilities. -/
def toJson (c : Capabilities) : Json :=
  Json.ofFields [
    ("user_id", .str c.userId), ("username", .str c.username), ("tier", .str c.tier.name),
    ("is_caster", .bool c.isCaster), ("is_moderator", .bool c.isModerator),
    ("is_vip", .bool c.isVip), ("is_subscriber", .bool c.isSubscriber),
    ("is_follower", .bool c.isFollower)]

end Capabilities

/-- The names of the bot's owners, in lower case. -/
structure Owners where
  names : List String := []

namespace Owners

/-- Owners given by name in any case. -/
def ofNames (names : List String) : Owners :=
  ⟨names.map Text.lower⟩

/-- Whether a name is an owner's. -/
def includes (o : Owners) (username : String) : Bool :=
  o.names.contains (Text.lower username)

/-- The capabilities of a sender: those of the record if there is one, else those of the name. -/
def capabilities (o : Owners) (record : Option UserRecord) (s : Sender) : Capabilities :=
  match record with
  | some u => .ofRecord u (o.includes u.username)
  | none =>
    if o.includes s.username then { Capabilities.viewer s with isCaster := true, tier := .caster }
    else .viewer s

/-- The capabilities of a user who is known by a record alone. -/
def capabilitiesOf (o : Owners) (record : Option UserRecord) : Option Capabilities :=
  record.map fun u => .ofRecord u (o.includes u.username)

/-- Whether a user may do what a tier may do. -/
def permits (caps : Option Capabilities) (required : Tier) : Bool :=
  required = .viewer || caps.any (·.satisfies required)

end Owners

end ChatBot
