import AccessBroker.Audit
import AccessBroker.Config.Loading
import AccessBroker.Library.Json.Indented

/-! # The support bundle

`scripts/supportBundle.py`: what it collects about a deployment, and how it takes the secrets of
the configuration out. What it finds on the host is given.
-/

namespace AccessBroker.SupportBundle
open Py Config
set_option autoImplicit false

def redacted : Text := "[redacted]".toList

/-- `collect_config_secrets`. -/
def collectConfigSecrets (raw : Raw) : List Text :=
  let passwords := raw.instances.map fun entry => entry.2.get "password".toList
  let settings := passwords ++ [raw.matrix.get "bot_token".toList, raw.agent.get "token".toList]
  ((settings.filter Setting.truth).map Setting.shown).filter (· ≠ [])

def scrub (text : Text) (secrets : List Text) : Text :=
  secrets.foldl (fun text s => if contains s text then replace s redacted text else text) text

/-- Functions of the platform that are only called. `loads` is `json.loads` with the members of
an object in their order; `other` and `number` are what `json.dumps` takes from a setting that
is neither null nor a text, and from hours. -/
structure Platform where
  isWord : Char → Bool
  lower : Text → Text
  repr : Text → Text
  reprSetting : Setting → Text
  sha256 : Text → Text
  floats : Json.FloatFormat
  str : Option Json.Value → Text
  loads : Text → Except Text Json.Value
  other : Bool → Text → Json.Value
  number : Config.Number → Json.Value
  attributeError : Text

/-- A row of the `grants` table. -/
structure GrantRow where
  id : Json.Value
  instanceName : Json.Value
  reason : Json.Value
  items : Json.Value
  createdAt : Json.Value
  decidedAt : Json.Value
  expiresAt : Json.Value
  state : Json.Value
  stateSource : Json.Value

/-- What a run finds: the audit files or the error of reading them, the rows that the database
gave and the error it broke off with, and the container logs or why there are none. -/
structure Host where
  generatedAt : Text
  python : Text
  system : Text
  auditFiles : Except Text Audit.Files
  grantRows : List GrantRow
  grantsError : Option Text
  logs : Except Text (Text × Text)

def member (key : Text) (value : Json.Value) : Json.Str × Json.Value := (Json.codes key, value)

def GrantRow.members (row : GrantRow) : List (Json.Str × Json.Value) := [
  member "id".toList row.id, member "instance".toList row.instanceName,
  member "reason".toList row.reason, member "items".toList row.items,
  member "created_at".toList row.createdAt, member "decided_at".toList row.decidedAt,
  member "expires_at".toList row.expiresAt, member "state".toList row.state,
  member "state_source".toList row.stateSource]

def GrantRow.value (row : GrantRow) : Json.Value := .obj row.members

/-- `text.splitlines()`; `line` is the line so far, backwards. -/
def splitlinesFrom (line : Text) : Text → List Text
  | [] => if line = [] then [] else [line.reverse]
  | '\r' :: '\n' :: rest => line.reverse :: splitlinesFrom [] rest
  | c :: rest =>
    if isLineBreak c then line.reverse :: splitlinesFrom [] rest else splitlinesFrom (c :: line) rest

def splitlines (text : Text) : List Text := splitlinesFrom [] text

/-- `xs[-count:]`. -/
def slice {α : Type} (count : Int) (xs : List α) : List α :=
  if 0 < count then xs.drop (xs.length - count.toNat) else xs.drop (-count).toNat

section Bundle

variable (platform : Platform)

def settingValue : Setting → Json.Value
  | .missing => .null
  | .text value => .ofText value
  | .other truth shown => platform.other truth shown

def portValue : PortValue → Json.Value
  | .int n => .int n
  | .bool b => .bool b
  | _ => .null

def configMembers (config : Loaded) (level : Text) : List (Json.Str × Json.Value) := [
  member "matrix".toList (.obj [
    member "homeserver".toList (settingValue platform config.matrix.homeserver),
    member "bot_user".toList (.ofText config.matrix.botUser),
    member "room_id".toList (.ofText config.matrix.roomId),
    member "approver".toList (.ofText config.matrix.approver),
    member "bot_token".toList (.ofText redacted)]),
  member "agent".toList (.obj [member "token".toList (.ofText redacted)]),
  member "server".toList (.obj [
    member "port".toList (portValue config.server.port),
    member "bind_host".toList (settingValue platform (config.server.bindHost.getD .missing))]),
  member "lifecycle".toList (.obj [
    member "pending_timeout_hours".toList (platform.number config.lifecycle.pendingTimeoutHours),
    member "default_grant_hours".toList (platform.number config.lifecycle.defaultGrantHours)]),
  member "logging".toList (.ofText level),
  member "audit_path".toList (settingValue platform config.auditPath),
  member "instances".toList (.obj (config.instances.map fun entry =>
    member entry.1 (.obj [
      member "url".toList (settingValue platform entry.2.url),
      member "username".toList (settingValue platform entry.2.username),
      member "discovery".toList (.bool entry.2.discovery),
      member "password".toList (.ofText redacted)])))]

def configSanitized (config : Loaded) (level : Text) : Json.Value :=
  .obj (configMembers platform config level)

def auditTail (tail : Int) (log : Text) : Except Text (List Json.Value) :=
  (slice tail (splitlines log)).mapM fun line =>
    if strip line = [] then .ok (.obj []) else platform.loads line

/-- The `audit_chain` and `audit_tail` sections. -/
def auditSections (secrets : List Text) (path : Text) (tail : Int)
    (auditFiles : Except Text Audit.Files) : List (Json.Str × Json.Value) :=
  let sections : Except Text (List (Json.Str × Json.Value)) := do
    let files ← auditFiles
    let result ← (Audit.verifyChain platform.sha256 platform.floats files).mapError
      fun _ => platform.attributeError
    let records ← auditTail platform tail (files.log.getD [])
    return [
      member "audit_chain".toList (.obj [
        member "ok".toList (.bool result.ok),
        member "error".toList
          (Audit.nullable (result.error.map fun cause => .ofText (cause.message path platform.str))),
        member "lines".toList (.int result.lines)]),
      member "audit_tail".toList (.arr records)]
  match sections with
  | .ok sections => sections
  | .error exc => [member "audit_chain".toList (.obj [
      member "ok".toList (.bool false), member "error".toList (.ofText (scrub exc secrets))])]

def grants (secrets : List Text) (host : Host) : List Json.Value :=
  host.grantRows.map GrantRow.value ++ host.grantsError.toList.map fun exc =>
    .obj [member "error".toList (.ofText (scrub exc secrets))]

def containerLogs (secrets : List Text) : Except Text (Text × Text) → Json.Value
  | .ok (stdout, stderr) => .obj [
    member "stdout".toList (.ofText (scrub (slice 20000 stdout) secrets)),
    member "stderr".toList (.ofText (scrub (slice 20000 stderr) secrets))]
  | .error exc => .obj [member "unavailable".toList (.ofText (scrub exc secrets))]

variable (raw : Raw) (process : List (Text × Text)) (host : Host) (tail : Int)

/-- The sections that depend on the configuration. -/
def configSections (secrets : List Text) : Except ConfigFailure (List (Json.Str × Json.Value)) :=
  let sections : Except ConfigFailure (List (Json.Str × Json.Value)) := do
    let config ← loadConfig platform.isWord raw process
    let level ← loggingLevel platform.lower platform.reprSetting raw.logging
    return [
      member "config_validation".toList (.ofText "ok".toList),
      member "config_sanitized".toList (configSanitized platform config level)] ++
      auditSections platform secrets config.auditPath.shown tail host.auditFiles ++
      [member "grants".toList (.arr (grants secrets host))]
  match sections with
  | .ok sections => .ok sections
  | .error cause =>
    if cause.isConfigError then
      .ok [member "config_validation".toList
          (.ofText ("FAILED: ".toList ++ scrub (cause.message platform.repr) secrets)),
        member "config_sanitized".toList .null]
    else .error cause

/-- `build_bundle`. -/
def buildBundle : Except ConfigFailure Json.Value := do
  let secrets := collectConfigSecrets raw
  let sections ← configSections platform raw process host tail secrets
  return .obj ([
    member "generated_at".toList (.ofText host.generatedAt),
    member "bundle_version".toList (.int 1),
    member "platform".toList (.obj [
      member "python".toList (.ofText host.python), member "system".toList (.ofText host.system)])] ++
    sections ++ [member "container_logs".toList (containerLogs secrets host.logs)])

/-- The file, and the secrets that are still in it. -/
structure Written where
  file : Text
  leaked : List Text
  deriving DecidableEq

/-- The verdict that the file is safe to share. -/
def Written.safe (written : Written) : Bool := written.leaked.isEmpty

/-- `main`. -/
def main : Except ConfigFailure Written := do
  let bundle ← buildBundle platform raw process host tail
  let secrets := collectConfigSecrets raw
  let rendered := scrub (Json.dumpIndented 0 bundle) secrets
  return ⟨rendered, secrets.filter fun s => contains s rendered⟩

end Bundle

end AccessBroker.SupportBundle
