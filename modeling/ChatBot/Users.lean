import ChatBot.Json.Decode
import ChatBot.NameMap

/-!
# The user directory

Who is known to the bot. A user is recorded under an id, with the name shown in chat and the
badges that give standing. The directory answers two questions: the record of an id, and the ids
of all users that meet a filter. It may list ids that it has no record of.
-/

set_option autoImplicit false

namespace ChatBot

/-- What is known about a user. -/
structure UserRecord where
  /-- The id that the record is kept under. -/
  id : String
  username : String
  isFollower : Bool := false
  isSubscriber : Bool := false
  isVip : Bool := false
  isModerator : Bool := false
  isCaster : Bool := false
  isOnline : Bool := false
  deriving DecidableEq

namespace UserRecord

/-- The fields of a record in their order. -/
def fieldNames : List String :=
  ["id", "username", "is_follower", "is_subscriber", "is_vip", "is_moderator", "is_caster",
    "is_online"]

/-- Decodes a record; the badges default to false. -/
def ofJson? (j : Json) : Option UserRecord := do
  let fs ← j.fields? fieldNames
  let id ← fs.required "id" Json.decodeString
  let username ← fs.required "username" Json.decodeString
  let isFollower ← fs.orDefault "is_follower" false Json.decodeBool
  let isSubscriber ← fs.orDefault "is_subscriber" false Json.decodeBool
  let isVip ← fs.orDefault "is_vip" false Json.decodeBool
  let isModerator ← fs.orDefault "is_moderator" false Json.decodeBool
  let isCaster ← fs.orDefault "is_caster" false Json.decodeBool
  let isOnline ← fs.orDefault "is_online" false Json.decodeBool
  pure { id, username, isFollower, isSubscriber, isVip, isModerator, isCaster, isOnline }

/-- Encodes a record. -/
def toJson (u : UserRecord) : Json :=
  Json.ofFields [
    ("id", .str u.id), ("username", .str u.username), ("is_follower", .bool u.isFollower),
    ("is_subscriber", .bool u.isSubscriber), ("is_vip", .bool u.isVip),
    ("is_moderator", .bool u.isModerator), ("is_caster", .bool u.isCaster),
    ("is_online", .bool u.isOnline)]

end UserRecord

/-- Which users are asked for. -/
structure UserFilter where
  onlineOnly : Bool := false
  followersOnly : Bool := false
  subscribersOnly : Bool := false
  deriving DecidableEq

/-- Whether a user meets every condition of the filter. -/
def UserFilter.admits (f : UserFilter) (u : UserRecord) : Bool :=
  (!f.onlineOnly || u.isOnline) && (!f.followersOnly || u.isFollower) &&
    (!f.subscribersOnly || u.isSubscriber)

/-- The known users, and ids that are listed without a record. -/
structure Directory where
  /-- The records by id. -/
  records : NameMap UserRecord := ∅
  /-- Ids that every listing shows although they have no record. -/
  unrecorded : List String := []

namespace Directory

/-- The record of an id. -/
def find? (d : Directory) (id : String) : Option UserRecord :=
  d.records[id]?

/-- Adds a record or replaces the one with the same id. -/
def upsert (d : Directory) (u : UserRecord) : Directory :=
  { d with records := d.records.insert u.id u }

/-- Forgets a user. -/
def remove (d : Directory) (id : String) : Directory :=
  { d with records := d.records.erase id }

/-- Changes whether a known user is online. -/
def setOnline (d : Directory) (id : String) (online : Bool) : Directory :=
  match d.find? id with
  | some u => { d with records := d.records.insert id { u with isOnline := online } }
  | none => d

/-- How many users are known. -/
def count (d : Directory) : Nat :=
  d.records.size

/-- The ids listed for a filter: the known users who meet it in the order of their ids, then the
ids without a record. -/
def list (d : Directory) (f : UserFilter) : List String :=
  ((d.records.toList.filter fun entry => f.admits entry.2).map (·.1)) ++ d.unrecorded

end Directory

end ChatBot
