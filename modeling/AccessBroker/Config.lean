import Mathlib.Data.Rat.Floor
import AccessBroker.Library.Regex

/-! # The configuration

The `matrix`, `agent` and `lifecycle` blocks of the configuration file, validated
once at startup. The validated blocks carry the rules that the bot is not its own
approver, that the two surfaces do not share a token, and that hours are positive.
-/

namespace AccessBroker.Config
open Py
set_option autoImplicit false

/-- A value of the YAML document: absent or null, a text, or anything else with its
truth value and `str`. -/
inductive Setting where
  | missing
  | text (value : Text)
  | other (truth : Bool) (shown : Text)
  deriving DecidableEq

abbrev Block := List (Text × Setting)

def Block.get (block : Block) (key : Text) : Setting := (block.lookup key).getD .missing

def Setting.truth : Setting → Bool
  | missing => false
  | text value => value ≠ []
  | other truth _ => truth

def Setting.shown : Setting → Text
  | missing => "None".toList
  | text value => value
  | other _ shown => shown

/-- What stops the startup; a value of the wrong type stops it with a `TypeError`. -/
inductive StartupError where
  | missingRequired (blockName key : Text)
  | missingSecret (what directKey envKey : Text)
  | environmentNotSet (name what : Text)
  | badBotUser (value : Text)
  | badApprover (value : Text)
  | badRoomId (value : Text)
  | sameUser
  | tooShort (what : Text)
  | sameTokens
  | typeError
  deriving DecidableEq

def StartupError.message (repr : Text → Text) : StartupError → Text
  | missingRequired blockName key =>
    "missing required config: ".toList ++ blockName ++ ['.'] ++ key
  | missingSecret what directKey envKey =>
    "missing ".toList ++ what ++ ": provide ".toList ++ directKey ++ " or ".toList ++ envKey
  | environmentNotSet name what =>
    "environment variable ".toList ++ name ++ " (".toList ++ what ++ ") is not set".toList
  | badBotUser value => "bot_user is not a valid Matrix user id: ".toList ++ repr value
  | badApprover value => "approver is not a valid Matrix user id: ".toList ++ repr value
  | badRoomId value => "room_id is not a valid Matrix room id: ".toList ++ repr value
  | sameUser => "approver and bot_user must differ".toList
  | tooShort what => what ++ " must be at least 32 characters".toList
  | sameTokens =>
    "agent token and transfer token must differ — identical ".toList ++
      "tokens would collapse the D5 content-tool separation".toList
  | typeError => "expected string or bytes-like object".toList

/-- The validated `matrix` block. -/
structure MatrixConfig where
  homeserver : Setting
  botUser : Text
  botToken : Text
  roomId : Text
  approver : Text
  approver_ne_botUser : approver ≠ botUser

/-- The validated `agent` block: a bearer token for each surface. -/
structure AgentConfig where
  token : Text
  transferToken : Text
  token_long : 32 ≤ token.length
  transferToken_long : 32 ≤ transferToken.length
  token_ne_transferToken : token ≠ transferToken

/-- The environments a secret is looked up in: the injected one and the process's own. -/
structure Environments where
  injected : List (Text × Text)
  process : List (Text × Text)

def Environments.find (env : Environments) (name : Text) : Option Text :=
  ((env.injected.lookup name).filter (· ≠ [])).or ((env.process.lookup name).filter (· ≠ []))

/-- `_secret`: a direct value, or the environment variable the block names. -/
def secret (block : Block) (directKey envKey what : Text) (env : Environments)
    (defaultEnv : Text) : Except StartupError Text :=
  let direct := block.get directKey
  if direct.truth then .ok direct.shown
  else
    match block.get envKey with
    | .other true _ => .error .typeError
    | named =>
      let name := if named.truth then named.shown else defaultEnv
      if name = [] then .error (.missingSecret what directKey envKey)
      else
        match env.find name with
        | none => .error (.environmentNotSet name what)
        | some value => .ok value

def require (blockName : Text) (block : Block) (key : Text) : Except StartupError Setting :=
  let value := block.get key
  if value = .missing ∨ value = .text [] then .error (.missingRequired blockName key)
  else .ok value

section Identifiers

variable (isWord : Char → Bool)

/-- `[\w.-]+:[\w.-]+` after the sigil. -/
def identifierRe (sigil : Char) : Regex :=
  let part := Regex.run (fun c => isWord c || c == '.' || c == '-') 1 none
  .sequence [.char (· == sigil), part, .char (· == ':'), part]

def userIdRe : Regex := identifierRe isWord '@'

def roomIdRe : Regex := identifierRe isWord '!'

/-- A match against a value that has to be a text. -/
def checkId (pattern : Regex) (bad : Text → StartupError) : Setting → Except StartupError Text
  | .text value => if (pattern.matchLine value).isSome then .ok value else .error (bad value)
  | _ => .error .typeError

/-- `_matrix`. -/
def matrix (block : Block) (env : Environments) : Except StartupError MatrixConfig := do
  let homeserver ← require "matrix".toList block "homeserver".toList
  let botUser ← require "matrix".toList block "bot_user".toList
  let roomId ← require "matrix".toList block "room_id".toList
  let approver ← require "matrix".toList block "approver".toList
  let botToken ← secret block "bot_token".toList "bot_token_env".toList
    "matrix bot token".toList env "BROKER_MATRIX_TOKEN".toList
  let botUser ← checkId (userIdRe isWord) .badBotUser botUser
  let approver ← checkId (userIdRe isWord) .badApprover approver
  let roomId ← checkId (roomIdRe isWord) .badRoomId roomId
  if hSame : botUser = approver then throw .sameUser
  else return ⟨homeserver, botUser, botToken, roomId, approver, fun h => hSame h.symm⟩

end Identifiers

/-- `_agent`. -/
def agent (block : Block) (env : Environments) : Except StartupError AgentConfig := do
  let token ← secret block "token".toList "token_env".toList "agent token".toList env
    "BROKER_AGENT_TOKEN".toList
  if hToken : token.length < 32 then throw (.tooShort "agent token".toList)
  else
    let transferToken ← secret block "transfer_token".toList "transfer_token_env".toList
      "transfer token".toList env "BROKER_TRANSFER_TOKEN".toList
    if hTransfer : transferToken.length < 32 then throw (.tooShort "transfer token".toList)
    else if hSame : token = transferToken then throw .sameTokens
    else return ⟨token, transferToken, Nat.not_lt.mp hToken, Nat.not_lt.mp hTransfer, hSame⟩

/-! ## Instances -/

structure Instance where
  url : Setting
  username : Setting
  password : Text
  discovery : Bool

inductive InstanceError where
  | noInstances
  | incomplete (name : Text)
  | secret (cause : StartupError)
  deriving DecidableEq

def InstanceError.message (repr : Text → Text) : InstanceError → Text
  | noInstances => "no instances configured".toList
  | incomplete name => "instance ".toList ++ repr name ++ " needs url and username".toList
  | secret cause => cause.message repr

/-- One entry of the mapping, under any name. -/
def instanceEntry (env : Environments) (name : Text) (block : Block) :
    Except InstanceError (Text × Instance) :=
  let url := block.get "url".toList
  let username := block.get "username".toList
  if !url.truth || !username.truth then .error (.incomplete name)
  else
    match secret block "password".toList "password_env".toList
        ("instance ".toList ++ name ++ " app password".toList) env [] with
    | .error cause => .error (.secret cause)
    | .ok password =>
      .ok (name, ⟨url, username, password, (block.get "discovery".toList).truth⟩)

/-- `_instances`. -/
def instances (raw : List (Text × Block)) (env : Environments) :
    Except InstanceError (List (Text × Instance)) :=
  if raw = [] then .error .noInstances
  else raw.mapM fun entry => instanceEntry env entry.1 entry.2

theorem instanceEntry_name {env : Environments} {name : Text} {block : Block}
    {entry : Text × Instance} (h : instanceEntry env name block = .ok entry) : entry.1 = name := by
  rw [instanceEntry] at h
  split at h
  · cases h
  split at h
  · cases h
  · cases h
    rfl

theorem entries_names {env : Environments} {raw : List (Text × Block)}
    {configured : List (Text × Instance)}
    (h : raw.mapM (fun entry => instanceEntry env entry.1 entry.2) = .ok configured) :
    configured.map Prod.fst = raw.map Prod.fst := by
  induction raw generalizing configured with
  | nil =>
    cases h
    rfl
  | cons entry raw ih =>
    rw [List.mapM_cons] at h
    cases hEntry : instanceEntry env entry.1 entry.2 with
    | error cause =>
      rw [hEntry] at h
      cases h
    | ok first =>
      cases hMore : raw.mapM fun entry => instanceEntry env entry.1 entry.2 with
      | error cause =>
        rw [hEntry, hMore] at h
        cases h
      | ok rest =>
        rw [hEntry, hMore] at h
        cases h
        rw [List.map_cons, List.map_cons, ih hMore, instanceEntry_name hEntry]

/-- Every name of the mapping is taken as it is. -/
theorem instances_names {env : Environments} {raw : List (Text × Block)}
    {configured : List (Text × Instance)} (h : instances raw env = .ok configured) :
    configured.map Prod.fst = raw.map Prod.fst := by
  rw [instances] at h
  split at h
  · cases h
  · exact entries_names h

/-! ## Lifecycle -/

/-- An `int` or a `float`; `true` and `false` are the integers 1 and 0. -/
inductive Number where
  | finite (value : ℚ)
  | infinite (negative : Bool)
  | nan
  deriving DecidableEq

/-- `not value <= 0`. -/
def Number.passes : Number → Bool
  | finite value => decide (0 < value)
  | infinite negative => !negative
  | nan => true

inductive LifecycleValue where
  | number (value : Number)
  | other
  deriving DecidableEq

structure LifecycleError where
  key : Text
  deriving DecidableEq

def LifecycleError.message (err : LifecycleError) : Text :=
  "lifecycle.".toList ++ err.key ++ " must be positive".toList

/-- The validated `lifecycle` block. -/
structure LifecycleConfig where
  pendingTimeoutHours : Number
  defaultGrantHours : Number
  pendingTimeoutHours_passes : pendingTimeoutHours.passes = true
  defaultGrantHours_passes : defaultGrantHours.passes = true

/-- The hours under a key; a key that is missing has a default. -/
def hours (block : List (Text × LifecycleValue)) (key : Text) (default : ℚ) :
    Except LifecycleError { value : Number // value.passes = true } :=
  match (block.lookup key).getD (.number (.finite default)) with
  | .number value => if h : value.passes = true then .ok ⟨value, h⟩ else .error ⟨key⟩
  | .other => .error ⟨key⟩

/-- `_lifecycle`. -/
def lifecycle (block : List (Text × LifecycleValue)) : Except LifecycleError LifecycleConfig := do
  let pending ← hours block "pending_timeout_hours".toList 12
  let default ← hours block "default_grant_hours".toList 24
  return ⟨pending.1, default.1, pending.2, default.2⟩

/-- The validated configuration, as far as the grant store depends on it. -/
structure Validated where
  lifecycle : LifecycleConfig
  instances : List Text
  instances_nonempty : instances ≠ []

end AccessBroker.Config
