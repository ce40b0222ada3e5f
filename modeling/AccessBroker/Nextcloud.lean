import AccessBroker.Audit
import AccessBroker.Grants

/-! # The file layer

The file operations, with the path check inside. The transport, the clocks and
the outcomes of the audit writes come from an environment that is asked once for
each of them; a trace keeps what was decided, written and called.
-/

namespace AccessBroker.Nextcloud
open Py Paths Grants Audit
set_option autoImplicit false

abbrev Bytes := List UInt8

/-- The transport's verbs with the arguments they are given. -/
inductive Verb where
  | propfind (path : Text)
  | get (path : Text)
  | put (path : Text) (data : Bytes) (lockToken : Option Text)
  | move (src dst : Text)
  | delete (path : Text)
  | mkcol (path : Text)
  | lock (path : Text) (timeout : Int)
  | unlock (path lockToken : Text)
  deriving DecidableEq

def Verb.paths : Verb → List Text
  | propfind path | get path | put path _ _ | delete path | mkcol path | lock path _
  | unlock path _ => [path]
  | move src dst => [src, dst]

/-- What the layer looks at in the value a verb returns. -/
structure Reply where
  isDict : Bool
  content : Option Bytes
  lockToken : Option Text
  truth : Bool
  deriving DecidableEq

/-- What a verb raises. -/
inductive TransportError where
  | webDav (status : Int) (message : Text)
  | other (exc : Text)
  deriving DecidableEq

inductive LayerError where
  | accessRefused (reason : Text)
  | webDav (status : Int) (message : Text)
  | transport (exc : Text)
  | audit (cause : AuditError)
  | attributeError
  deriving DecidableEq

structure Client where
  password : Option Text
  deriving DecidableEq

structure Layer where
  store : Settings
  clients : List (Text × Client)
  discoveryInstances : List Text
  principal : Option Text

/-- Functions of the platform the layer only calls. -/
structure Platform where
  sha256 : Text → Text
  lower : Text → Text
  repr : Text → Text

/-- The answers to the layer's questions, by the number of questions asked before. -/
structure Environment where
  clock : Nat → Int
  stamp : Nat → Text
  writes : Nat → Write × Write
  reply : Nat → Except TransportError Reply

inductive Event where
  /-- A decision of the path checker, with the instants the grants were read and judged at. -/
  | checked (instanceName path mode : Text) (listed now : Int) (decision : Decision)
  /-- A completed `record`, and the files right after it. -/
  | appended (entry : Entry) (files : Files)
  | appendFailed (entry : Entry) (cause : AuditError)
  | verb (instanceName : Text) (call : Verb)
  deriving DecidableEq

structure World where
  audit : Option AuditState
  asked : Nat
  trace : List Event

abbrev Run := Effect World LayerError

section Operations

variable (platform : Platform) (layer : Layer) (db : Database) (env : Environment)

/-! ## Questions to the environment -/

def now : Run Int :=
  ⟨fun w => (.ok (env.clock w.asked), { w with asked := w.asked + 1 })⟩

def note (event : Event) : Run Unit :=
  Effect.modify fun w => { w with trace := w.trace ++ [event] }

/-- `self._audit.record`. -/
def auditRecord (s : AuditState) (entry : Entry) : Run Unit :=
  ⟨fun w =>
    match (record platform.sha256 (env.stamp w.asked) entry (env.writes w.asked).1
        (env.writes w.asked).2).run s with
    | (.ok (), s') => (.ok (),
        ⟨some s', w.asked + 1, w.trace ++ [.appended entry s'.files]⟩)
    | (.error cause, s') => (.error (.audit cause),
        ⟨some s', w.asked + 1, w.trace ++ [.appendFailed entry cause]⟩)⟩

def callVerb (instanceName : Text) (call : Verb) : Run Reply :=
  ⟨fun w =>
    let called := { w with asked := w.asked + 1, trace := w.trace ++ [.verb instanceName call] }
    match env.reply w.asked with
    | .ok reply => (.ok reply, called)
    | .error (.webDav status message) => (.error (.webDav status message), called)
    | .error (.other exc) => (.error (.transport exc), called)⟩

/-! ## Authorization -/

def forbiddenNames : List Text :=
  ["trashbin".toList, "files_trashbin".toList, "remote.php/dav/trashbin".toList]

/-- The normalized path, the empty path for the root, or `none`. -/
def namespaceGuard (path : Text) : Option Text :=
  match normalizePath path with
  | none => if strip path = [] ∨ strip path = ['/'] then some [] else none
  | some norm =>
    if forbiddenNames.any fun name =>
        platform.lower norm == name || startsWith (platform.lower norm) (name ++ ['/']) then
      none
    else some norm

def refusedEntry (instanceName path operation reason : Text) : Entry :=
  { instanceName, path, operation, grantId := none, decision := "refused".toList, reason,
    principal := layer.principal, failInject := false }

def auditRefusal (instanceName path operation reason : Text) : Run Unit := do
  match (← Effect.get).audit with
  | none => return ()
  | some s =>
    Effect.handle
      (auditRecord platform env s (refusedEntry layer instanceName path operation reason))
      fun _ => return ()

/-- One grant for each item of each active grant on the instance. -/
def grantsAt (listed : Int) (instanceName : Text) : List Grant :=
  (activeGrants layer.store listed (some instanceName) db).flatMap fun rec =>
    rec.items.map fun item => ⟨item.path, item.mode, rec.expiresAt, rec.id⟩

def wall (instanceName norm mode : Text) : Run Decision := do
  let listed ← now env
  let grants := grantsAt layer db listed instanceName
  let instant ← now env
  let decision := checkAccess norm mode grants instant
  note (.checked instanceName norm mode listed instant decision)
  return decision

def unknownInstance (instanceName : Text) : Text :=
  "unknown instance ".toList ++ platform.repr instanceName

def authorized (instanceName path mode : Text) : Run Text :=
  match layer.clients.lookup instanceName with
  | none => do
    auditRefusal platform layer env instanceName path mode (unknownInstance platform instanceName)
    Effect.raise (.accessRefused
      (unknownInstance platform instanceName ++ " (not configured)".toList))
  | some _ =>
    match namespaceGuard platform path with
    | none => do
      auditRefusal platform layer env instanceName path mode "forbidden namespace".toList
      Effect.raise (.accessRefused "path is in a forbidden namespace".toList)
    | some norm => do
      let decision ← wall layer db env instanceName norm mode
      if decision.allowed then return norm
      else
        auditRefusal platform layer env instanceName norm mode decision.reason
        Effect.raise (.accessRefused decision.reason)

def authorizedRead (instanceName norm : Text) : Run Text := do
  let decision ← wall layer db env instanceName norm READ
  if decision.allowed then return norm else Effect.raise (.accessRefused decision.reason)

/-! ## Write before operate -/

def scrubValue (secret message : Text) : Text :=
  if secret ≠ [] ∧ contains secret message then replace secret "[redacted]".toList message
  else message

def scrubErrors (instanceName : Text) (action : Run Reply) : Run Reply :=
  Effect.handle action fun err =>
    match err with
    | .webDav status message =>
      Effect.raise (.webDav status (scrubValue
        (((layer.clients.lookup instanceName).bind Client.password).getD []) message))
    | err => Effect.raise err

def allowedEntry (instanceName path operation reason : Text) (principal : Option Text) : Entry :=
  { instanceName, path, operation, grantId := none, decision := "allowed".toList, reason,
    principal := principal.or layer.principal, failInject := false }

def auditAnd (instanceName path operation reason : Text) (call : Verb) (principal : Option Text) :
    Run Reply := do
  match (← Effect.get).audit with
  | none => scrubErrors layer instanceName (callVerb env instanceName call)
  | some s =>
    auditRecord platform env s (allowedEntry layer instanceName path operation reason principal)
    scrubErrors layer instanceName (callVerb env instanceName call)

/-! ## The operations -/

def list (instanceName path : Text) : Run Reply :=
  match layer.clients.lookup instanceName with
  | none => Effect.raise (.accessRefused
      (unknownInstance platform instanceName ++ " (not configured)".toList))
  | some _ =>
    match namespaceGuard platform path with
    | none => Effect.raise (.accessRefused "path is in a forbidden namespace".toList)
    | some norm =>
      if instanceName ∈ layer.discoveryInstances then
        auditAnd platform layer env instanceName norm "list".toList "discovery".toList
          (.propfind norm) none
      else do
        let norm ← authorizedRead layer db env instanceName norm
        auditAnd platform layer env instanceName norm "list".toList "granted read".toList
          (.propfind norm) none

def read (instanceName path : Text) (principal : Option Text) : Run Reply := do
  let norm ← authorized platform layer db env instanceName path READ
  auditAnd platform layer env instanceName norm "read".toList "granted read".toList (.get norm)
    principal

def write (instanceName path : Text) (data : Bytes) (principal : Option Text) : Run Reply := do
  let norm ← authorized platform layer db env instanceName path WRITE
  auditAnd platform layer env instanceName norm "write".toList "granted write".toList
    (.put norm data none) principal

def moveText (src dst : Text) : Text := src ++ " -> ".toList ++ dst

def move (instanceName src dst : Text) : Run Reply := do
  let normSrc ← authorized platform layer db env instanceName src WRITE
  let normDst ← authorized platform layer db env instanceName dst WRITE
  auditAnd platform layer env instanceName (moveText normSrc normDst) "move".toList
    "granted write".toList (.move normSrc normDst) none

def trash (instanceName path : Text) : Run Reply := do
  let norm ← authorized platform layer db env instanceName path WRITE
  auditAnd platform layer env instanceName norm "trash".toList "granted write".toList
    (.delete norm) none

def mkdir (instanceName path : Text) : Run Reply := do
  let norm ← authorized platform layer db env instanceName path WRITE
  auditAnd platform layer env instanceName norm "mkdir".toList "granted write".toList
    (.mkcol norm) none

/-- The lock token and the content of the locked revision. -/
def checkout (instanceName path : Text) (timeout : Int) (principal : Option Text) :
    Run (Option Text × Option Bytes) := do
  let norm ← authorized platform layer db env instanceName path WRITE
  let result ← auditAnd platform layer env instanceName norm "checkout".toList
    "granted write".toList (.lock norm timeout) principal
  let content ← auditAnd platform layer env instanceName norm "read".toList
    "checkout read".toList (.get norm) principal
  let data := if content.isDict then content.content else none
  if result.isDict then return (result.lockToken, data) else Effect.raise .attributeError

def checkin (instanceName path : Text) (data : Bytes) (lockToken : Text)
    (principal : Option Text) : Run (Bool × Bool) := do
  let norm ← authorized platform layer db env instanceName path WRITE
  let written ← auditAnd platform layer env instanceName norm "checkin".toList
    "granted write".toList (.put norm data (some lockToken)) principal
  let unlocked ← auditAnd platform layer env instanceName norm "checkin-unlock".toList
    "lock released".toList (.unlock norm lockToken) principal
  return (written.truth, unlocked.truth)

/-! ## Calls -/

/-- A call of one of the operations. -/
inductive Operation where
  | list (path : Text)
  | read (path : Text) (principal : Option Text)
  | write (path : Text) (data : Bytes) (principal : Option Text)
  | move (src dst : Text)
  | trash (path : Text)
  | mkdir (path : Text)
  | checkout (path : Text) (timeout : Int) (principal : Option Text)
  | checkin (path : Text) (data : Bytes) (lockToken : Text) (principal : Option Text)
  deriving DecidableEq

inductive Answer where
  | reply (reply : Reply)
  | checkedOut (lockToken : Option Text) (content : Option Bytes)
  | checkedIn (written unlocked : Bool)
  deriving DecidableEq

def Operation.run (instanceName : Text) : Operation → Run Answer
  | .list path => do return .reply (← Nextcloud.list platform layer db env instanceName path)
  | .read path principal => do
    return .reply (← Nextcloud.read platform layer db env instanceName path principal)
  | .write path data principal => do
    return .reply (← Nextcloud.write platform layer db env instanceName path data principal)
  | .move src dst => do
    return .reply (← Nextcloud.move platform layer db env instanceName src dst)
  | .trash path => do return .reply (← Nextcloud.trash platform layer db env instanceName path)
  | .mkdir path => do return .reply (← Nextcloud.mkdir platform layer db env instanceName path)
  | .checkout path timeout principal => do
    let (lockToken, content) ←
      Nextcloud.checkout platform layer db env instanceName path timeout principal
    return .checkedOut lockToken content
  | .checkin path data lockToken principal => do
    let (written, unlocked) ←
      Nextcloud.checkin platform layer db env instanceName path data lockToken principal
    return .checkedIn written unlocked

/-- The layer's own check tool: would this be allowed, and else why not. -/
def checkAccessTool (instanceName path mode : Text) : Run (Bool × Option Text) :=
  ⟨fun w =>
    match (authorized platform layer db env instanceName path mode).run w with
    | (.ok _, w') => (.ok (true, none), w')
    | (.error (.accessRefused reason), w') => (.ok (false, some reason), w')
    | (.error err, w') => (.error err, w')⟩

end Operations

end AccessBroker.Nextcloud
