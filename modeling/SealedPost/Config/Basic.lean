import SealedPost.Json.Record
import SealedPost.Text.Hex
import SealedPost.Text.Decimal

/-!
# Settings

Settings come from a document, are overlaid with named variables, and are judged only when all
sources have been merged. A document may leave out any of them. `applyVariables` is `apply_env`.
-/

namespace SealedPost

/-- How the push relay is reached. -/
structure PushConfig where
  serverUrl : String
  /-- Hexadecimal key that requests are encrypted to; may be empty. -/
  serverPublicKey : String
  maxRetryCount : UInt32
  tokenExpirationSecs : UInt64
deriving DecidableEq, Repr

/-- All settings. -/
structure ClientConfig where
  pollIntervalMs : UInt64
  push : PushConfig
  logLevel : String
deriving DecidableEq, Repr

/-- Why there are no usable settings. -/
inductive ConfigError
  /-- The file could not be read as text. -/
  | file
  /-- The file is no document with settings. -/
  | document
  /-- A setting has an impossible value. -/
  | invalid (reason : String)
deriving DecidableEq, Repr

/-- The settings where nothing else is said: four attempts, and a token that lasts twelve hours. -/
def PushConfig.default : PushConfig := ⟨"http://127.0.0.1:8080", "", 4, 43200⟩

/-- The settings where nothing else is said: a cycle every four seconds. -/
def ClientConfig.default : ClientConfig := ⟨4000, .default, "info"⟩

/-! ## Documents -/

/-- Reads the settings of the relay; `closed` says whether an array may not go on past
the last field. -/
def PushConfig.ofJson? (closed : Bool) (v : Json) : Option PushConfig := do
  let f ←
    v.fields? closed ["server_url", "server_public_key", "max_retry_count", "token_expiration_secs"]
  let serverUrl ← f.withDefault "server_url" PushConfig.default.serverUrl Json.text?
  let serverPublicKey ←
    f.withDefault "server_public_key" PushConfig.default.serverPublicKey Json.text?
  let maxRetryCount ← f.withDefault "max_retry_count" PushConfig.default.maxRetryCount.toNat
    (Json.natBelow? UInt32.size)
  let tokenExpirationSecs ←
    f.withDefault "token_expiration_secs" PushConfig.default.tokenExpirationSecs.toNat
    (Json.natBelow? UInt64.size)
  return ⟨serverUrl, serverPublicKey, UInt32.ofNat maxRetryCount, UInt64.ofNat tokenExpirationSecs⟩

/-- Reads settings; `closed` says whether an array may not go on past the last field. -/
def ClientConfig.ofJson? (closed : Bool) (v : Json) : Option ClientConfig := do
  let f ← v.fields? closed ["poll_interval_ms", "push", "log_level"]
  let pollIntervalMs ← f.withDefault "poll_interval_ms" ClientConfig.default.pollIntervalMs.toNat
    (Json.natBelow? UInt64.size)
  let push ← f.withDefault "push" PushConfig.default (PushConfig.ofJson? closed)
  let logLevel ← f.withDefault "log_level" ClientConfig.default.logLevel Json.text?
  return ⟨UInt64.ofNat pollIntervalMs, push, logLevel⟩

/-- Writes the settings of the relay. -/
def PushConfig.toJson (c : PushConfig) : Json :=
  .obj [("server_url", .str c.serverUrl), ("server_public_key", .str c.serverPublicKey),
    ("max_retry_count", .int c.maxRetryCount.toNat),
    ("token_expiration_secs", .int c.tokenExpirationSecs.toNat)]

/-- Writes settings. -/
def ClientConfig.toJson (c : ClientConfig) : Json :=
  .obj [("poll_interval_ms", .int c.pollIntervalMs.toNat), ("push", c.push.toJson),
    ("log_level", .str c.logLevel)]

namespace ClientConfig

/-! ## Variables -/

/-- The texts of variables by their names. -/
abbrev Variables := String → Option String

def variableNames : List String :=
  ["VEIL_POLL_INTERVAL_MS", "VEIL_PUSH_SERVER_URL", "VEIL_PUSH_SERVER_PUBLIC_KEY",
    "VEIL_PUSH_MAX_RETRY_COUNT", "RUST_LOG"]

/-- Overlays a number: none if there is no text, and else the one that the text spells. -/
def overlayNumber (bound : Nat) (name : String) (text : Option String) (put : Nat → ClientConfig)
    (c : ClientConfig) : Except String ClientConfig :=
  match text with
  | none => .ok c
  | some text =>
    match Text.Decimal.read bound text with
    | .ok n => .ok (put n)
    | .error e => .error ("Invalid " ++ name ++ ": " ++ e.message)

def applyPollInterval (vars : Variables) (c : ClientConfig) : Except String ClientConfig :=
  overlayNumber UInt64.size "poll_interval_ms" (vars "VEIL_POLL_INTERVAL_MS")
    (fun n => { c with pollIntervalMs := UInt64.ofNat n }) c

/-- Overlays the relay's address and key. -/
def applyServer (vars : Variables) (c : ClientConfig) : ClientConfig :=
  { c with push := { c.push with
      serverUrl := (vars "VEIL_PUSH_SERVER_URL").getD c.push.serverUrl
      serverPublicKey := (vars "VEIL_PUSH_SERVER_PUBLIC_KEY").getD c.push.serverPublicKey } }

def applyRetryCount (vars : Variables) (c : ClientConfig) : Except String ClientConfig :=
  overlayNumber UInt32.size "max_retry_count" (vars "VEIL_PUSH_MAX_RETRY_COUNT")
    (fun n => { c with push := { c.push with maxRetryCount := UInt32.ofNat n } }) c

def applyLogLevel (vars : Variables) (c : ClientConfig) : ClientConfig :=
  { c with logLevel := (vars "RUST_LOG").getD c.logLevel }

/-- Overlays the variables one after the other. The settings that are answered hold what was
overlaid before the first variable that cannot be read. -/
def applyVariables (vars : Variables) (c : ClientConfig) : ClientConfig × Option ConfigError :=
  match applyPollInterval vars c with
  | .error reason => (c, some (.invalid reason))
  | .ok c =>
    let c := applyServer vars c
    match applyRetryCount vars c with
    | .error reason => (c, some (.invalid reason))
    | .ok c => (applyLogLevel vars c, none)

/-- The default settings overlaid with variables. -/
def ofVariables (vars : Variables) : Except ConfigError ClientConfig :=
  match applyVariables vars .default with
  | (c, none) => .ok c
  | (_, some e) => .error e

/-! ## Validity -/

def isWebUrl (url : String) : Bool :=
  "http://".toList.isPrefixOf url.toList || "https://".toList.isPrefixOf url.toList

/-- What is wrong with the settings, if anything; the first fault counts. -/
def fault? (c : ClientConfig) : Option String :=
  if c.pollIntervalMs = 0 then some "poll_interval_ms must be > 0"
  else if c.push.maxRetryCount = 0 then some "max_retry_count must be > 0"
  else if !isWebUrl c.push.serverUrl then
    some ("server_url must be an http(s) URL: " ++ c.push.serverUrl)
  else if c.push.serverPublicKey = "" then none
  else
    match Text.Hex.decode c.push.serverPublicKey with
    | .error e => some ("Invalid server_public_key: " ++ e.message)
    | .ok key =>
      if key.length = 32 then none
      else some ("server_public_key must be 32 bytes, got " ++ toString key.length)

/-- Accepts settings without fault. -/
def validate (c : ClientConfig) : Except ConfigError Unit :=
  match fault? c with
  | none => .ok ()
  | some reason => .error (.invalid reason)

end ClientConfig

/-- The wording of a failure, as far as it is this library's own. -/
def ConfigError.message : ConfigError → String
  | .file => "IO error"
  | .document => "TOML parse error"
  | .invalid reason => "Invalid configuration: " ++ reason

end SealedPost
