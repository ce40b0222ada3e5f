import Mathlib.Algebra.GroupWithZero.Nat
import Mathlib.Data.Char
import Mathlib.Data.List.Sort
import AccessBroker.Library.Effect
import AccessBroker.Library.Json

/-! # The transfer command line

The commands that stage remote files, and the staging directory of one profile and
one instance. A staged content and its manifest are filed under the digest of the
content. What a command asks of its surroundings comes from its invocation.
-/

namespace AccessBroker.Cli
open Py
set_option autoImplicit false

abbrev Bytes := List UInt8

def EXIT_OK : Nat := 0
def EXIT_LOCAL : Nat := 1
def EXIT_INFRA : Nat := 2
def EXIT_REFUSED : Nat := 3
def EXIT_VERIFICATION : Nat := 4
def EXIT_CLOBBER : Nat := 5

def GC_MAX_AGE_DAYS : Int := 7

def GC_MAX_TOTAL_BYTES : Nat := 512 * 1024 * 1024

/-- A `CliError`, or any other exception. -/
inductive Failure where
  | cli (message : Text)
  | escaped (exc : Text)

/-! ## Staging -/

/-- What the commands read back of a manifest. -/
structure Manifest where
  sha256 : Text
  sizeBytes : Nat
  instanceName : Text
  remotePath : Text
  lockToken : Option Json.Value
  checkedOut : Option Bool

/-- A file of the staging directory, by the digest it is named after. -/
structure Staged (α : Type) where
  digest : Text
  mtime : Int
  value : α

/-- The files `<digest>` and the files `<digest>.json`. -/
structure Staging where
  contents : List (Staged Bytes)
  manifests : List (Staged Manifest)

/-- `os.replace` onto the file of this name. -/
def file {α : Type} (entry : Staged α) (files : List (Staged α)) : List (Staged α) :=
  entry :: files.filter fun other => other.digest ≠ entry.digest

/-- Times are in nanoseconds. -/
def second : Int := 1000000000

def Staged.expired {α : Type} (clock : Int) (entry : Staged α) : Bool :=
  decide (entry.mtime < clock - GC_MAX_AGE_DAYS * 86400 * second)

def Staging.collect (clock : Int) (staging : Staging) : Staging where
  contents := staging.contents.filter fun entry => !entry.expired clock
  manifests := staging.manifests.filter fun entry => !entry.expired clock

/-! ## Invocations -/

/-- Functions of the platform the commands only call; `manifestSize` is the length of the
manifest's JSON text. -/
structure Platform where
  sha256 : Bytes → Text
  decode : Json.Str → Option Bytes
  shown : Json.Value → Text
  repr : Json.Value → Text
  manifestSize : Manifest → Nat

inductive ToolCall where
  | read (path : Text)
  | write (path : Text) (content : Bytes)
  | checkout (path : Text) (timeout : Int)
  | checkin (path : Text) (content : Bytes) (lockToken : Json.Value)

/-- What a command finds: the environment, what `_resolve_url` returns if it does, the tool
calls' outcomes and how long they take, the bytes staged for other instances, and whether
the push lock is free. -/
structure Invocation where
  token : Option Text
  url : Option Text
  answer : Nat → Except Failure Json.Value
  took : Nat → Nat
  elsewhere : Nat
  lockFree : Bool

inductive Command where
  | fetch (path : Text)
  | checkout (path : Text) (timeout : Int)
  | checkin (path : Text) (manifestSha : Option Text) (fromFile : Option Bytes)
  | gc

/-- The line a command prints when it succeeds. -/
inductive Report where
  | staged (sha256 : Text) (size : Nat)
  | checkedOut (sha256 : Text) (size : Nat) (lockToken : Json.Value)
  | checkedIn (sha256 : Text) (size : Nat)
  | pushed (sha256 : Text) (size : Nat)
  | removed

structure Outcome where
  code : Nat
  report : Option Report

structure World where
  staging : Staging
  clock : Int
  calls : List ToolCall

abbrev Run := Effect World Failure

/-! ## Envelopes -/

def truth : Json.Value → Bool
  | .null => false
  | .bool b => b
  | .int n => n ≠ 0
  | .float repr => repr ≠ "0.0".toList ∧ repr ≠ "-0.0".toList
  | .str s => s ≠ []
  | .arr items => !items.isEmpty
  | .obj members => !members.isEmpty

def isText (text : Text) : Json.Value → Bool
  | .str s => s == Json.codes text
  | _ => false

/-- `value.get`, which only a dict has. -/
def members : Json.Value → Except Failure Json.Dict
  | .obj dict => .ok dict
  | _ => .error (.escaped "AttributeError".toList)

def field (dict : Json.Dict) (key : Text) (default : Json.Value) : Json.Value :=
  (dict.get? key).getD default

section Commands

variable (platform : Platform)

/-- The status of an envelope, and the `result` it carries if that is `ok`. -/
def okResult (infra : Text) (out : Json.Value) : Except Failure Json.Dict := do
  let dict ← members out
  let status := field dict "status".toList .null
  if isText "refused".toList status then
    throw (.cli ("REFUSED: ".toList ++
      platform.shown (field dict "reason".toList (.ofText "no active grant".toList))))
  else if isText "error".toList status then
    throw (.cli (infra ++
      platform.shown (field dict "message".toList (.ofText "unknown".toList))))
  else if !isText "ok".toList status then
    throw (.cli ("INFRA: unexpected envelope status ".toList ++ platform.repr status))
  else
    let result := field dict "result".toList .null
    if truth result then members result else return []

def decodeContent (bad : Text) (content : Json.Str) : Except Failure Bytes :=
  match platform.decode content with
  | some data => .ok data
  | none => .error (.cli bad)

/-- `_read_file_remote`, once the tool has answered. -/
def readReply (out : Json.Value) : Except Failure Bytes := do
  match field (← okResult platform "INFRA: broker error: ".toList out) "content_b64".toList .null with
  | .str content => decodeContent platform "VERIFY: content is not valid base64".toList content
  | _ => throw (.cli "VERIFY: no content_b64 in envelope".toList)

/-- `_checkout_remote`, once the tool has answered. -/
def checkoutReply (out : Json.Value) : Except Failure (Bytes × Json.Value) := do
  let result ← okResult platform "INFRA: ".toList out
  match field result "content_b64".toList .null with
  | .str content =>
    let lockToken := field result "lock_token".toList .null
    if !truth lockToken then throw (.cli "VERIFY: checkout returned no lock_token".toList)
    else
      return (← decodeContent platform "VERIFY: checkout content is not valid base64".toList content,
        lockToken)
  | _ => throw (.cli "VERIFY: no content_b64 in checkout envelope".toList)

/-! ## Manifests -/

/-- The checkout's manifest by its digest, or else the first that is checked out, by name. -/
def findManifest (manifests : List (Staged Manifest)) : Option Text → Except Failure (Staged Manifest)
  | some (c :: sha) =>
    match manifests.find? fun entry => entry.digest == c :: sha with
    | some entry => .ok entry
    | none => .error (.cli ("local: no manifest for sha ".toList ++ c :: sha))
  | _ =>
    match (manifests.insertionSort fun a b =>
        a.digest ++ ".json".toList ≤ b.digest ++ ".json".toList).find?
        fun entry => entry.value.checkedOut = some true with
    | some entry => .ok entry
    | none => .error (.cli
        "local: no checked-out manifest found; pass --manifest-sha".toList)

def writeManifest (digest : Text) (manifest : Manifest) : Run Unit :=
  Effect.modify fun w =>
    { w with staging :=
      { w.staging with manifests := file ⟨digest, w.clock, manifest⟩ w.staging.manifests } }

def writeContent (digest : Text) (data : Bytes) : Run Unit :=
  Effect.modify fun w =>
    { w with staging :=
      { w.staging with contents := file ⟨digest, w.clock, data⟩ w.staging.contents } }

def gcStaging : Run Unit :=
  Effect.modify fun w => { w with staging := w.staging.collect w.clock }

def totalBytes (staging : Staging) : Nat :=
  (staging.contents.map fun entry => entry.value.length).sum +
    (staging.manifests.map fun entry => platform.manifestSize entry.value).sum

/-! ## Commands -/

variable (instanceName : Text) (inv : Invocation)

def lift {α : Type} : Except Failure α → Run α
  | .ok a => pure a
  | .error failure => Effect.raise failure

def callTool (call : ToolCall) : Run Json.Value := do
  let w ← Effect.get
  Effect.modify fun w =>
    { w with clock := w.clock + inv.took w.calls.length, calls := w.calls ++ [call] }
  lift (inv.answer w.calls.length)

def cliErrorExit (message : Text) : Nat :=
  if startsWith message "REFUSED:".toList then EXIT_REFUSED
  else if startsWith message "VERIFY:".toList then EXIT_VERIFICATION
  else if startsWith message "INFRA:".toList then EXIT_INFRA
  else EXIT_LOCAL

def exits (code : Nat) : Outcome := ⟨code, none⟩

/-- `except CliError`. -/
def catching {α : Type} (body : Run α) (rest : α → Run Outcome) : Run Outcome := do
  match ← Effect.attempt body with
  | .ok a => rest a
  | .error (.cli message) => return exits (cliErrorExit message)
  | .error failure => Effect.raise failure

def resolveUrl : Run Text :=
  match inv.url with
  | some url => pure url
  | none => Effect.raise (.cli
      ("no broker URL: pass --url or set broker_url in ".toList ++
        "~/.config/nc-broker/config.toml (0600)".toList))

/-- Each command asks for the token and the URL before anything else. -/
def connected (rest : Run Outcome) : Run Outcome :=
  if inv.token.getD [] = [] then return exits EXIT_LOCAL
  else do
    let _ ← resolveUrl inv
    rest

def cmdFetch (path : Text) : Run Outcome := connected inv do
  gcStaging
  if GC_MAX_TOTAL_BYTES < totalBytes platform (← Effect.get).staging + inv.elsewhere then
    return exits EXIT_LOCAL
  catching (do lift (readReply platform (← callTool inv (.read path)))) fun data => do
    let digest := platform.sha256 data
    writeContent digest data
    writeManifest digest
      { sha256 := digest, sizeBytes := data.length, instanceName, remotePath := path,
        lockToken := none, checkedOut := none }
    return ⟨EXIT_OK, some (.staged digest data.length)⟩

def cmdCheckout (path : Text) (timeout : Int) : Run Outcome := connected inv do
  gcStaging
  catching (do lift (checkoutReply platform (← callTool inv (.checkout path timeout))))
    fun (data, lockToken) => do
      let digest := platform.sha256 data
      writeContent digest data
      writeManifest digest
        { sha256 := digest, sizeBytes := data.length, instanceName, remotePath := path,
          lockToken := some lockToken, checkedOut := some true }
      return ⟨EXIT_OK, some (.checkedOut digest data.length lockToken)⟩

/-- The statuses of a checkin: the exit code, if it is not `ok`. -/
def checkinStatus (out : Json.Value) : Except Failure (Option Nat) := do
  let status := field (← members out) "status".toList .null
  if isText "refused".toList status then return some EXIT_REFUSED
  else if isText "error".toList status then return some EXIT_INFRA
  else if !isText "ok".toList status then return some EXIT_INFRA
  else return none

def cmdCheckin (path : Text) (manifestSha : Option Text) (fromFile : Option Bytes) :
    Run Outcome := connected inv do
  match fromFile with
  | none => return exits EXIT_LOCAL
  | some data => do
    let found ← lift (findManifest (← Effect.get).staging.manifests manifestSha)
    let lockToken := found.value.lockToken.getD .null
    if !truth lockToken then return exits EXIT_LOCAL
    else if !inv.lockFree then return exits EXIT_LOCAL
    else
      match ← lift (checkinStatus (← callTool inv (.checkin path data lockToken))) with
      | some code => return exits code
      | none => do
        writeManifest found.value.sha256 { found.value with checkedOut := some false }
        return ⟨EXIT_OK, some (.checkedIn (platform.sha256 data) data.length)⟩

def cmdGc : Run Outcome := do
  gcStaging
  return ⟨EXIT_OK, some .removed⟩

def command : Command → Run Outcome
  | .fetch path => cmdFetch platform instanceName inv path
  | .checkout path timeout => cmdCheckout platform instanceName inv path timeout
  | .checkin path manifestSha fromFile => cmdCheckin platform inv path manifestSha fromFile
  | .gc => cmdGc

def main (cmd : Command) : Run Outcome :=
  catching (command platform instanceName inv cmd) pure

end Commands

/-! ## Sessions -/

/-- The staging directory over time, with what was invoked and how it ended. -/
structure Host where
  staging : Staging
  clock : Int
  log : List (Command × Outcome)

inductive Act where
  | wait (elapsed : Int)
  /-- A staged copy is worked on in place. -/
  | edit (digest : Text) (data : Bytes)
  | invoke (inv : Invocation) (cmd : Command)

def Host.edit (s : Host) (digest : Text) (data : Bytes) : Host :=
  { s with staging :=
    { s.staging with contents := s.staging.contents.map fun entry =>
        if entry.digest = digest then ⟨digest, s.clock, data⟩ else entry } }

/-- An exception nobody catches ends the process with exit code 1. -/
def exitOf : Except Failure Outcome → Outcome
  | .ok outcome => outcome
  | .error _ => exits 1

def Host.invoke (platform : Platform) (instanceName : Text) (s : Host) (inv : Invocation)
    (cmd : Command) : Host :=
  match (main platform instanceName inv cmd).run ⟨s.staging, s.clock, []⟩ with
  | (result, w) => ⟨w.staging, w.clock, s.log ++ [(cmd, exitOf result)]⟩

def Host.step (platform : Platform) (instanceName : Text) (s : Host) : Act → Host
  | .wait elapsed => { s with clock := s.clock + elapsed }
  | .edit digest data => s.edit digest data
  | .invoke inv cmd => s.invoke platform instanceName inv cmd

end AccessBroker.Cli
