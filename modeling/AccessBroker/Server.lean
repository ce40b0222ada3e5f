import AccessBroker.MatrixBot
import AccessBroker.Nextcloud

/-! # The tool server

The tools of the two surfaces. `request_access` waits for the room the way the
bot's handlers do, and takes the request back when the room cannot be reached;
the file tools go to the file layer.
-/

namespace AccessBroker.Server
open Py Grants MatrixBot
set_option autoImplicit false

inductive Surface where
  | agent
  | transfer
  deriving DecidableEq

def AGENT_TOOLS : List Text :=
  ["request_access".toList, "check_access".toList, "list_instances".toList, "list".toList,
    "move".toList, "trash".toList, "mkdir".toList]

def TRANSFER_TOOLS : List Text :=
  ["check_access".toList, "read".toList, "write".toList, "checkout".toList, "checkin".toList]

def Surface.tools : Surface → List Text
  | agent => AGENT_TOOLS
  | transfer => TRANSFER_TOOLS

/-- What the surface stamps on the audit records of the content tools. -/
def Surface.principal : Surface → Text
  | agent => "agent".toList
  | transfer => "transfer".toList

/-- A tool call with its arguments. -/
inductive Tool where
  | requestAccess (instanceName : Text) (reason : Option Text) (items : List RawItem)
  | checkAccess (instanceName : Text)
  | listInstances
  | list (instanceName path : Text)
  | read (instanceName path : Text)
  | write (instanceName path content : Text)
  | move (instanceName src dst : Text)
  | trash (instanceName path : Text)
  | mkdir (instanceName path : Text)
  | checkout (instanceName path : Text) (timeout : Int)
  | checkin (instanceName path content lockToken : Text)
  deriving DecidableEq

def Tool.name : Tool → Text
  | requestAccess .. => "request_access".toList
  | checkAccess .. => "check_access".toList
  | listInstances => "list_instances".toList
  | list .. => "list".toList
  | read .. => "read".toList
  | write .. => "write".toList
  | move .. => "move".toList
  | trash .. => "trash".toList
  | mkdir .. => "mkdir".toList
  | checkout .. => "checkout".toList
  | checkin .. => "checkin".toList

/-- The file operation a tool asks the layer for, after its own checks of the arguments;
`decode` is strict base64. -/
def Tool.operation (decode : Text → Option Nextcloud.Bytes) (surface : Surface) :
    Tool → Option (Text × Nextcloud.Operation)
  | list instanceName path => some (instanceName, .list path)
  | read instanceName path => some (instanceName, .read path (some surface.principal))
  | write instanceName path content =>
    (decode content).map fun data => (instanceName, .write path data (some surface.principal))
  | move instanceName src dst => some (instanceName, .move src dst)
  | trash instanceName path => some (instanceName, .trash path)
  | mkdir instanceName path => some (instanceName, .mkdir path)
  | checkout instanceName path timeout =>
    some (instanceName, .checkout path timeout (some surface.principal))
  | checkin instanceName path content lockToken =>
    if lockToken = [] then none
    else (decode content).map fun data =>
      (instanceName, .checkin path data lockToken (some surface.principal))
  | _ => none

section Tools

variable (store : Settings) (clock : Nat → Int)

/-! ## Introspection -/

/-- `_check_access`: the grants the tool lists. -/
def checkAccess (instanceName : Text) : Handler (List GrantRecord) :=
  readStore clock fun now => activeGrants store now (some instanceName)

/-! ## Requests -/

def requestAccess (instanceName : Text) (reason : Option Text) (items : List RawItem) :
    Handler Progress := do
  match ← Effect.attempt (onStore clock fun now =>
      createRequest store now instanceName reason items) with
  | .ok req => return .awaits (.posting req .message .requestAccess)
  | .error (.store cause) =>
    if cause.pyClass = .valueError then return .returns (some (.invalid cause))
    else Effect.raise (.store cause)
  | .error err => Effect.raise err

/-- A request the approver cannot see is rejected before the tool answers. -/
def rollBack (rid : Nat) (cause : SendError) : Handler Progress :=
  if cause.unreachable then do
    let _ ← onStore clock fun now => reject store now rid
    return .returns (some (.unreachable cause.exc))
  else Effect.raise (.send cause)

def resumePosting (req : GrantRecord) (stage : Posting) (outcome : Except SendError Text) :
    Caller → Handler Progress
  | .undo => do
    match ← stage.resume req outcome with
    | some stage' => return .awaits (.posting req stage' .undo)
    | none => return .returns none
  | .requestAccess => do
    match ← Effect.attempt (stage.resume req outcome) with
    | .ok (some stage') => return .awaits (.posting req stage' .requestAccess)
    | .ok none => return .returns (some (.pending req.id))
    | .error (.send cause) => rollBack store clock req.id cause
    | .error err => Effect.raise err

/-! ## After a send -/

def resume (pause : Pause) (outcome : Except SendError Text) : Handler Progress :=
  match pause, outcome with
  | .sending _, .ok _ => return .returns none
  | .posting req stage caller, outcome => resumePosting store clock req stage outcome caller
  | .noticing rid rest, .ok _ => sweepOn rid rest
  | _, .error cause => Effect.raise (.send cause)

end Tools

end AccessBroker.Server
