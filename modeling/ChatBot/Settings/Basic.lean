import ChatBot.Template.Engine

/-!
# Settings

What can be set about the bot, in four sections. Every setting has a default. A wish for a server
as the place of the variables is followed when its address can be read; otherwise, and for any
other wish, they are held in memory.
-/

set_option autoImplicit false

namespace ChatBot

open ChatBot.Template

/-- How custom variables are held. -/
structure StoreConfig where
  /-- Where they are held: in `memory` or on a `redis` server. -/
  backend : String := "memory"
  redisUrl : String := "redis://localhost:6379"
  /-- What the names on the server start with. -/
  redisPrefix : String := "ara:chat"
  /-- How long changes count, in seconds. -/
  historyRetentionSeconds : Nat := 86400
  /-- How many changes of a variable are kept. -/
  historyMaxEntries : Nat := 50
  /-- The usual wording of a notification. -/
  defaultNotification : String :=
    "\x7b\x7bsender\x7d\x7d, \x7b\x7bvariable\x7d\x7d was set to \x7b\x7bvalue\x7d\x7d."
  deriving DecidableEq

/-- How the bot reports on itself. -/
structure TelemetryConfig where
  enabled : Bool := false
  endpoint : String := "http://localhost:4317"
  /-- Under which name they are sent. -/
  serviceName : String := "ara-chat-engine"
  /-- Which share of them is sent. -/
  samplingRatio : Float := 1.0
  logFormat : String := "pretty"

/-- The settings of the bot. -/
structure Settings where
  engine : EngineConfig := {}
  storage : StoreConfig := {}
  owners : List String := []
  telemetry : TelemetryConfig := {}

/-- How the basic types of settings are decoded. -/
structure SettingDecoders where
  string : Json → Option String
  bool : Json → Option Bool
  float : Json → Option Float
  /-- A whole number that is not negative. -/
  nat : Json → Option Nat

/-- Every value must have the type that its setting asks for. -/
def strictDecoders : SettingDecoders where
  string := Json.decodeString
  bool := Json.decodeBool
  float := Json.decodeFloat
  nat := Json.decodeNat

namespace Settings

/-- The settings of the engine, by name. -/
def engineNames : List String :=
  ["api_timeout_ms", "api_user_agent", "max_render_depth", "unknown_user"]

/-- The settings of the custom variables, by name. -/
def variableNames : List String :=
  ["backend", "redis_url", "redis_prefix", "history_retention_seconds", "history_max_entries",
    "default_notification"]

/-- The settings of permissions, by name. -/
def permissionNames : List String :=
  ["owners"]

/-- The settings of reports, by name. -/
def telemetryNames : List String :=
  ["enabled", "endpoint", "service_name", "sampling_ratio", "log_format"]

/-- The names of the sections, each with the names of its settings. -/
def sections : List (String × List String) := [
  ("engine", engineNames), ("variables", variableNames), ("permissions", permissionNames),
  ("telemetry", telemetryNames)]

/-- Every setting as its section and its name with a dot between them. -/
def paths : List String :=
  sections.flatMap fun s => s.2.map fun name => s.1 ++ "." ++ name

/-- Decodes the section on the engine. -/
def engineSection? (s : SettingDecoders) (j : Json) : Option EngineConfig := do
  let fs ← j.fields? engineNames
  let d : EngineConfig := {}
  let apiTimeoutMs ← fs.orDefault "api_timeout_ms" d.apiTimeoutMs s.nat
  let apiUserAgent ← fs.orDefault "api_user_agent" d.apiUserAgent s.string
  let maxRenderDepth ← fs.orDefault "max_render_depth" d.maxRenderDepth s.nat
  let unknownUser ← fs.orDefault "unknown_user" d.unknownUser s.string
  pure { apiTimeoutMs, apiUserAgent, maxRenderDepth, unknownUser }

/-- Decodes the section on variables. -/
def variablesSection? (s : SettingDecoders) (j : Json) : Option StoreConfig := do
  let fs ← j.fields? variableNames
  let d : StoreConfig := {}
  let backend ← fs.orDefault "backend" d.backend s.string
  let redisUrl ← fs.orDefault "redis_url" d.redisUrl s.string
  let redisPrefix ← fs.orDefault "redis_prefix" d.redisPrefix s.string
  let historyRetentionSeconds ←
    fs.orDefault "history_retention_seconds" d.historyRetentionSeconds s.nat
  let historyMaxEntries ← fs.orDefault "history_max_entries" d.historyMaxEntries s.nat
  let defaultNotification ← fs.orDefault "default_notification" d.defaultNotification s.string
  pure { backend, redisUrl, redisPrefix, historyRetentionSeconds, historyMaxEntries,
         defaultNotification }

/-- Decodes the section on permissions, which names the owners. -/
def ownersSection? (s : SettingDecoders) (j : Json) : Option (List String) := do
  let fs ← j.fields? permissionNames
  fs.orDefault "owners" [] (Json.decodeList s.string)

/-- Decodes the section on reports. -/
def telemetrySection? (s : SettingDecoders) (j : Json) : Option TelemetryConfig := do
  let fs ← j.fields? telemetryNames
  let d : TelemetryConfig := {}
  let enabled ← fs.orDefault "enabled" d.enabled s.bool
  let endpoint ← fs.orDefault "endpoint" d.endpoint s.string
  let serviceName ← fs.orDefault "service_name" d.serviceName s.string
  let samplingRatio ← fs.orDefault "sampling_ratio" d.samplingRatio s.float
  let logFormat ← fs.orDefault "log_format" d.logFormat s.string
  pure { enabled, endpoint, serviceName, samplingRatio, logFormat }

/-- Decodes settings. -/
def decode? (s : SettingDecoders) (j : Json) : Option Settings := do
  let fs ← j.fields? (sections.map (·.1))
  let engine ← fs.orDefault "engine" {} (engineSection? s)
  let storage ← fs.orDefault "variables" {} (variablesSection? s)
  let owners ← fs.orDefault "permissions" [] (ownersSection? s)
  let telemetry ← fs.orDefault "telemetry" {} (telemetrySection? s)
  pure { engine, storage, owners, telemetry }

/-- Encodes settings. -/
def toJson (s : Settings) : Json :=
  Json.ofFields [
    ("engine", Json.ofFields [
      ("api_timeout_ms", .int s.engine.apiTimeoutMs),
      ("api_user_agent", .str s.engine.apiUserAgent),
      ("max_render_depth", .int s.engine.maxRenderDepth),
      ("unknown_user", .str s.engine.unknownUser)]),
    ("variables", Json.ofFields [
      ("backend", .str s.storage.backend), ("redis_url", .str s.storage.redisUrl),
      ("redis_prefix", .str s.storage.redisPrefix),
      ("history_retention_seconds", .int s.storage.historyRetentionSeconds),
      ("history_max_entries", .int s.storage.historyMaxEntries),
      ("default_notification", .str s.storage.defaultNotification)]),
    ("permissions", Json.ofFields [("owners", .arr (s.owners.map .str))]),
    ("telemetry", Json.ofFields [
      ("enabled", .bool s.telemetry.enabled), ("endpoint", .str s.telemetry.endpoint),
      ("service_name", .str s.telemetry.serviceName),
      ("sampling_ratio", Json.ofFloat s.telemetry.samplingRatio),
      ("log_format", .str s.telemetry.logFormat)])]

/-- Decodes settings whose values have exactly the types asked for. -/
def ofJson? (j : Json) : Option Settings :=
  decode? strictDecoders j

end Settings

namespace StoreConfig

/-- Decodes how custom variables are held. -/
def ofJson? (j : Json) : Option StoreConfig :=
  Settings.variablesSection? strictDecoders j

/-- Where the variables are held: with a server, if one is asked for whose address can be read. -/
def backendKind (c : StoreConfig) (isServerUrl : String → Bool) : BackendKind :=
  if c.backend = "redis" && isServerUrl c.redisUrl then .redis else .memory

/-- The empty store of a configuration. -/
def store (c : StoreConfig) (isServerUrl : String → Bool) : VariableStore where
  kind := c.backendKind isServerUrl
  history := ⟨⟨c.historyRetentionSeconds * 1000, c.historyMaxEntries⟩, ∅⟩
  announcement := c.defaultNotification

end StoreConfig

end ChatBot
