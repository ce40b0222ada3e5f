import AccessBroker.Grants
import AccessBroker.MatrixBot.Replies

/-! # The approval bot

The room-facing half of the approval plane. A handler runs without interruption
up to the next send to the room, which is where other handlers run; what it
still has to do is a `Pause`. Every reading of the clock asks for its next value.
-/

namespace AccessBroker.MatrixBot
open Py Grants
set_option autoImplicit false

def APPROVE_EMOJI : Text := [Char.ofNat 0x1F44D]

def REJECT_EMOJI : Text := [Char.ofNat 0x1F44E]

def REVOKE_EMOJI : Text := [Char.ofNat 0x1F6C7]

def STATUS_EMOJI : Text := [Char.ofNat 0x1F4CB]

def undoGraceSeconds : Int := 15

/-- What a decision that can still be undone was about. -/
structure UndoWindow where
  deadline : Int
  instanceName : Text
  reason : Text
  items : List Item
  deriving DecidableEq

/-- The store and the bot's memory, which a restart clears. -/
structure Desk where
  db : Database
  swept : List Nat
  undoWindows : List (Nat × UndoWindow)
  /-- How often the clock has been read. -/
  asked : Nat

/-- `difflib` is only called: the closest of the commands to a lowered word. -/
structure Bot where
  approver : Text
  closeMatch : Text → Option Text

/-- The lists behind the status block, and the instant it shows times against. -/
structure Status where
  active : List GrantRecord
  pending : List GrantRecord
  now : Int
  deriving DecidableEq

/-- The room messages, by what their texts are rendered from. -/
inductive Message where
  | request (req : GrantRecord)
  | help
  | unknownCommand (word closest : Text)
  | undoClosed (rid : Nat)
  | noRequest (rid : Nat)
  | cannotApprove (rid : Nat) (cause : GrantError)
  | cannotRevoke (rid : Nat) (cause : GrantError)
  | decision (record : GrantRecord) (verb : Text) (expiry : Option Text) (undo : Bool)
      (status : Status)
  | unknownInstance (name : Text)
  | nothingToRevoke (name : Option Text)
  | revoked (ids : List Nat) (status : Status)
  | summary (status : Status)
  | expired (rid : Nat)
  deriving DecidableEq

/-- What a send raises; `unreachable` tells `ConnectionError`, `RuntimeError` and
`OSError` from the rest. -/
structure SendError where
  unreachable : Bool
  exc : Text
  deriving DecidableEq

inductive BotError where
  | store (cause : GrantError)
  | send (cause : SendError)
  | number (cause : NumberError)
  deriving DecidableEq

/-- The sends of `post_request`; `rest` are the reactions still to be placed. -/
inductive Posting where
  | message
  | reaction (eventId emoji : Text) (rest : List Text)
  deriving DecidableEq

inductive Caller where
  | undo
  | requestAccess
  deriving DecidableEq

/-- The send a handler is waiting for, with what comes after it. -/
inductive Pause where
  | sending (message : Message)
  | posting (req : GrantRecord) (stage : Posting) (caller : Caller)
  | noticing (rid : Nat) (rest : List GrantRecord)
  deriving DecidableEq

/-- The envelope of `request_access`; the last two are errors by their cause. -/
inductive Answer where
  | pending (rid : Nat)
  | invalid (cause : GrantError)
  | unreachable (exc : Text)
  deriving DecidableEq

inductive Progress where
  | awaits (pause : Pause)
  | returns (answer : Option Answer)
  deriving DecidableEq

abbrev Handler := Effect Desk BotError

section Handlers

variable (store : Settings) (bot : Bot) (clock : Nat → Int)

/-! ## The store and the clock -/

def readClock : Handler Int :=
  ⟨fun d => (.ok (clock d.asked), { d with asked := d.asked + 1 })⟩

def onDatabase {α : Type} (op : Effect Database GrantError α) : Handler α :=
  Effect.zoom Desk.db (fun d db => { d with db := db }) .store op

def onStore {α : Type} (op : Int → Effect Database GrantError α) : Handler α := do
  let now ← readClock clock
  onDatabase (op now)

def readStore {α : Type} (view : Int → Database → α) : Handler α := do
  let now ← readClock clock
  return view now (← Effect.get).db

def say (message : Message) : Handler Progress := return .awaits (.sending message)

def readStatus : Handler Status := do
  let active ← readStore clock fun now => activeGrants store now none
  let pending ← readStore clock (pendingRecords store)
  let now ← readClock clock
  return ⟨active, pending, now⟩

/-! ## Posting -/

/-- The next part of `post_request`, after the send it waited for. -/
def Posting.resume (req : GrantRecord) :
    Posting → Except SendError Text → Handler (Option Posting)
  | _, .error cause => Effect.raise (.send cause)
  | message, .ok eventId =>
    return some (.reaction eventId APPROVE_EMOJI [REJECT_EMOJI, REVOKE_EMOJI, STATUS_EMOJI])
  | reaction eventId _ (emoji :: rest), .ok _ => return some (.reaction eventId emoji rest)
  | reaction eventId _ [], .ok _ => do
    onDatabase (recordPosted eventId req.id)
    return none

/-! ## Undo -/

def armUndo (rid : Nat) (record : GrantRecord) : Handler Unit := do
  let now ← readClock clock
  let window : UndoWindow :=
    ⟨now + undoGraceSeconds * second, record.instanceName, record.reason, record.items⟩
  Effect.modify fun d =>
    { d with undoWindows := (rid, window) :: d.undoWindows.filter (·.1 ≠ rid) }

def closeUndo (rid : Nat) : Handler Unit :=
  Effect.modify fun d => { d with undoWindows := d.undoWindows.filter (·.1 ≠ rid) }

def recreate (window : UndoWindow) : Handler Progress := do
  let req ← onStore clock fun now =>
    createRequest store now window.instanceName (some window.reason)
      (window.items.map fun item => ⟨some item.path, some item.mode⟩)
  return .awaits (.posting req .message .undo)

def undo (rid : Nat) : Handler Progress := do
  match (← Effect.get).undoWindows.lookup rid with
  | none => say (.undoClosed rid)
  | some window =>
    let now ← readClock clock
    closeUndo rid
    if window.deadline ≤ now then say (.undoClosed rid) else recreate store clock window

/-! ## Decisions -/

def approveRequest (rid : Nat) (itemNumbers : Option (List Nat)) (expiry : Option Text) :
    Handler Progress := do
  let record ← onStore clock fun now =>
    approve store now rid expiry (itemNumbers.map (·.map fun n => some (n : Int)))
  let status ← readStatus store clock
  say (.decision record "Approved".toList (some (expiry.getD "24h".toList)) false status)

def rejectRequest (rid : Nat) : Handler Progress := do
  let _ ← onStore clock fun now => reject store now rid
  let record ← onStore clock fun now => getRow store now rid
  armUndo clock rid record
  let status ← readStatus store clock
  say (.decision record "Rejected".toList none true status)

def reportRefused (rid : Nat) (err : BotError) : Handler Progress :=
  match err with
  | .store cause =>
    if cause.pyClass = .valueError then say (.cannotApprove rid cause) else Effect.raise err
  | err => Effect.raise err

/-- `_decide`: an approval, or else a rejection. -/
def decideRequest (rid : Nat) (action : Text) (itemNumbers : Option (List Nat))
    (expiry : Option Text) : Handler Progress :=
  Effect.handle
    (if action = "approve".toList then approveRequest store clock rid itemNumbers expiry
      else rejectRequest store clock rid)
    (reportRefused rid)

/-! ## Revocations -/

def PyClass.isRevokeRefusal (raised : PyClass) : Bool :=
  raised = .valueError || raised = .lookupError

def revokeRequest (rid : Nat) : Handler Progress := do
  match ← Effect.attempt (onStore clock fun now => revoke store now rid) with
  | .error (.store cause) =>
    if PyClass.isRevokeRefusal cause.pyClass then say (.cannotRevoke rid cause)
    else Effect.raise (.store cause)
  | .error err => Effect.raise err
  | .ok _ => do
    let record ← onStore clock fun now => getRow store now rid
    armUndo clock rid record
    let status ← readStatus store clock
    say (.decision record "Revoked".toList none true status)

/-- One revocation after the other; a grant that is gone by then is passed over. -/
def revokeEach : List GrantRecord → Handler (List Nat)
  | [] => return []
  | record :: rest => do
    match ← Effect.attempt (onStore clock fun now => revoke store now record.id) with
    | .ok _ => return record.id :: (← revokeEach rest)
    | .error (.store cause) =>
      if PyClass.isRevokeRefusal cause.pyClass then revokeEach rest
      else Effect.raise (.store cause)
    | .error err => Effect.raise err

def revokeMany (instanceName : Option Text) : Handler Progress := do
  let active ← readStore clock fun now => activeGrants store now instanceName
  match instanceName with
  | some name =>
    if active = [] ∧ store.allowedInstances.any (name ∉ ·) then say (.unknownInstance name)
    else finish active
  | none => finish active
where
  finish (active : List GrantRecord) : Handler Progress := do
    let revoked ← revokeEach store clock active
    if revoked = [] then say (.nothingToRevoke instanceName)
    else
      let status ← readStatus store clock
      say (.revoked revoked status)

/-! ## Room events -/

def postSummary : Handler Progress := do
  let status ← readStatus store clock
  say (.summary status)

def handleReaction (sender eventId emoji : Text) : Handler Progress := do
  if sender ≠ bot.approver then return .returns none
  else
    match requestForEvent eventId (← Effect.get).db with
    | none => return .returns none
    | some rid =>
      if emoji = APPROVE_EMOJI then decideRequest store clock rid "approve".toList none none
      else if emoji = REJECT_EMOJI then decideRequest store clock rid "reject".toList none none
      else if emoji = REVOKE_EMOJI then revokeRequest store clock rid
      else if emoji = STATUS_EMOJI then postSummary store clock
      else return .returns none

def closestCommand (word : Text) : Option Text := if word = [] then none else bot.closeMatch word

def teach (text : Text) : Handler Progress :=
  let firstWord := (strip text).takeWhile (· ≠ ' ')
  match closestCommand bot firstWord with
  | some closest => say (.unknownCommand firstWord closest)
  | none => say .help

def handleDecision (action : Text) (rid : Nat) (itemNumbers : Option (List Nat))
    (expiry : Option Text) : Handler Progress := do
  let known ← readStore clock (allRecords store)
  if rid ∉ known.map GrantRecord.id then say (.noRequest rid)
  else if action = "approve".toList then decideRequest store clock rid action itemNumbers expiry
  else if action = "reject".toList then decideRequest store clock rid action none none
  else revokeRequest store clock rid

def handleReply (sender text : Text) : Handler Progress :=
  if sender ≠ bot.approver then return .returns none
  else
    match parseReply text with
    | .error cause => Effect.raise (.number cause)
    | .ok none => teach bot text
    | .ok (some .status) => postSummary store clock
    | .ok (some .revokeAll) => revokeMany store clock none
    | .ok (some (.revokeInstance name)) => revokeMany store clock (some name)
    | .ok (some (.undo rid)) => undo store clock rid
    | .ok (some (.decision action rid itemNumbers expiry)) =>
      handleDecision store clock action rid itemNumbers expiry

/-! ## Sweeping -/

def sweepFrom : List GrantRecord → Handler Progress
  | [] => return .returns none
  | record :: rest => do
    if record.state = .expired ∧ record.id ∉ (← Effect.get).swept then
      return .awaits (.noticing record.id rest)
    else sweepFrom rest

def sweep : Handler Progress := do
  let pending ← readStore clock (pendingRecords store)
  sweepFrom pending

def sweepOn (rid : Nat) (rest : List GrantRecord) : Handler Progress := do
  Effect.modify fun d => { d with swept := rid :: d.swept }
  sweepFrom rest

end Handlers

end AccessBroker.MatrixBot
