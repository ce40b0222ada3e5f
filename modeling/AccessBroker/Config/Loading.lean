import AccessBroker.Config

/-! # Loading the configuration

The whole of `Config`: its sections in the order they are validated in, and the logging level,
which is read where it is needed.
-/

namespace AccessBroker.Config
open Py
set_option autoImplicit false

inductive PortValue where
  | missing
  | int (n : Int)
  | bool (b : Bool)
  | emptyText
  | other (shown : Text)
  deriving DecidableEq

structure ServerBlock where
  port : PortValue
  bindHost : Setting

/-- The mapping in the file. A section that is missing is empty. -/
structure Raw where
  matrix : Block
  agent : Block
  server : ServerBlock
  lifecycle : List (Text × LifecycleValue)
  logging : Block
  audit : Block
  instances : List (Text × Block)

inductive ConfigFailure where
  | startup (cause : StartupError)
  | badPort (shown : Text)
  | wildcardHost
  | lifecycle (cause : LifecycleError)
  | instances (cause : InstanceError)
  | badLevel (shown : Text)
  deriving DecidableEq

/-- A `TypeError` is no `ConfigError`. -/
def ConfigFailure.isConfigError : ConfigFailure → Bool
  | startup .typeError | instances (.secret .typeError) => false
  | _ => true

def ConfigFailure.message (repr : Text → Text) : ConfigFailure → Text
  | startup cause => cause.message repr
  | badPort shown => "server.port must be an int in 1-65535, got ".toList ++ shown
  | wildcardHost =>
    "refusing wildcard bind_host: exposure is decided by the host ".toList ++
      "(docker-compose), never by the application (design doc 3.7)".toList
  | lifecycle cause => cause.message
  | instances cause => cause.message repr
  | badLevel shown => "logging.level must be info or debug, got ".toList ++ shown

/-- The validated `server` block; a `bool` is an `int`, and `True` is 1. -/
structure ServerConfig where
  port : PortValue
  bindHost : Option Setting

def PortValue.number : PortValue → Option Int
  | int n => some n
  | bool b => some (if b then 1 else 0)
  | _ => none

def PortValue.shown : PortValue → Text
  | missing => "None".toList
  | int n => decimal n
  | bool b => if b then "True".toList else "False".toList
  | emptyText => "''".toList
  | other shown => shown

/-- `_server`. -/
def server (block : ServerBlock) : Except ConfigFailure ServerConfig :=
  if block.port = .missing ∨ block.port = .emptyText then
    .error (.startup (.missingRequired "server".toList "port".toList))
  else if block.port.number.any fun n => 1 ≤ n ∧ n ≤ 65535 then
    if block.bindHost = .text "0.0.0.0".toList ∨ block.bindHost = .text "::".toList then
      .error .wildcardHost
    else .ok ⟨block.port, if block.bindHost.truth then some block.bindHost else none⟩
  else .error (.badPort block.port.shown)

/-- `_audit`. -/
def auditPath (block : Block) : Except ConfigFailure Setting :=
  let path := block.get "path".toList
  if path.truth then .ok path
  else .error (.startup (.missingRequired "audit".toList "path".toList))

/-- `_logging`; the level is `info` where the key is missing. -/
def loggingLevel (lower : Text → Text) (repr : Setting → Text) (block : Block) :
    Except ConfigFailure Text :=
  let level := (block.lookup "level".toList).getD (.text "info".toList)
  if lower level.shown = "info".toList ∨ lower level.shown = "debug".toList then
    .ok (lower level.shown)
  else .error (.badLevel (repr level))

/-- An instance of `Config`. -/
structure Loaded where
  matrix : MatrixConfig
  agent : AgentConfig
  server : ServerConfig
  lifecycle : LifecycleConfig
  auditPath : Setting
  instances : List (Text × Instance)

/-- `load_config` on a mapping, with the process's own environment. -/
def loadConfig (isWord : Char → Bool) (raw : Raw) (process : List (Text × Text)) :
    Except ConfigFailure Loaded := do
  let env : Environments := ⟨process, process⟩
  let matrix ← (matrix isWord raw.matrix env).mapError .startup
  let agent ← (agent raw.agent env).mapError .startup
  let server ← server raw.server
  let lifecycle ← (lifecycle raw.lifecycle).mapError .lifecycle
  let auditPath ← auditPath raw.audit
  let instances ← (instances raw.instances env).mapError .instances
  return ⟨matrix, agent, server, lifecycle, auditPath, instances⟩

/-- The secrets it holds. -/
def Loaded.secrets (config : Loaded) : List Text :=
  config.instances.map (fun entry => entry.2.password) ++
    [config.matrix.botToken, config.agent.token, config.agent.transferToken]

end AccessBroker.Config
