import AccessBroker.Library.AutoTable
import AccessBroker.Library.Effect
import AccessBroker.Library.Regex
import AccessBroker.Paths

/-! # The grant store

The SQLite store of access requests and their lifecycle. A request is stored
pending, a decision moves it on, and expiry is only ever a view of the row at
the time it is read. Every operation reads the injected clock once, as `now`.
-/

namespace AccessBroker.Grants
open Py Paths
set_option autoImplicit false

inductive State where
  | pending
  | active
  | expired
  | revoked
  | rejected
  deriving DecidableEq

def State.text : State → Text
  | pending => "pending".toList
  | active => "active".toList
  | expired => "expired".toList
  | revoked => "revoked".toList
  | rejected => "rejected".toList

def decided : List State := [.active, .rejected, .expired, .revoked]

/-- What the store's operations raise, with the values their messages quote. -/
inductive GrantError where
  | emptyReason
  | emptyItems
  | unknownInstance (name : Text)
  | invalidMode (mode : Option Text)
  | invalidPath (path : Option Text)
  | unknownGrant (rid : Nat)
  | alreadyDecided (rid : Nat) (state : State)
  | invalidExpiry (text : Text)
  | expiryNotPositive (text : Text)
  | invalidItemNumber (number : Option Int)
  | duplicateEvent (eventId : Text)
  deriving DecidableEq

inductive PyClass where
  | valueError
  | lookupError
  | integrityError
  deriving DecidableEq

def GrantError.pyClass : GrantError → PyClass
  | unknownGrant _ => .lookupError
  | duplicateEvent _ => .integrityError
  | _ => .valueError

/-- The message of the exception; `repr` is Python's, of a text or of the value that
stood where a text or an integer was expected. -/
def GrantError.message (repr : Option Text → Text) (reprNumber : Option Int → Text) :
    GrantError → Text
  | emptyReason => "reason must be a non-empty string".toList
  | emptyItems => "items must be a non-empty list".toList
  | unknownInstance name => "unknown instance: ".toList ++ repr (some name)
  | invalidMode mode => "invalid mode: ".toList ++ repr mode
  | invalidPath path => "invalid path: ".toList ++ repr path
  | unknownGrant rid => "no grant with id ".toList ++ decimal rid
  | alreadyDecided rid state =>
    "grant ".toList ++ decimal rid ++ " already decided (".toList ++ state.text ++ ")".toList
  | invalidExpiry text => "invalid expiry string: ".toList ++ repr (some text)
  | expiryNotPositive text => "expiry must be positive: ".toList ++ repr (some text)
  | invalidItemNumber number => "invalid item number: ".toList ++ reprNumber number
  | duplicateEvent _ => "UNIQUE constraint failed: posted_messages.event_id".toList

structure Item where
  path : Text
  mode : Text
  deriving DecidableEq

/-- An item as a caller sends it; `none` stands for a missing or non-text value. -/
structure RawItem where
  path : Option Text
  mode : Option Text
  deriving DecidableEq

/-- A row of the grants table. An active row has its expiry written. -/
structure Row where
  instanceName : Text
  reason : Text
  items : List Item
  createdAt : Int
  decidedAt : Option Int
  expiresAt : Option Int
  state : State
  stateSource : Option Text
  active_expires : state = .active → expiresAt ≠ none
  deriving DecidableEq

/-- A row as callers see it, with its effective state. -/
structure GrantRecord where
  id : Nat
  instanceName : Text
  reason : Text
  items : List Item
  state : State
  expiresAt : Option Int
  createdAt : Int
  stateSource : Option Text
  deriving DecidableEq

structure Database where
  grants : AutoTable Row
  posted : List (Text × Nat)

/-- The arguments a store is opened with, the database apart. -/
structure Settings where
  pendingTimeout : Int
  defaultDuration : Int
  allowedInstances : Option (List Text)

def second : Int := 1000000

def defaultPendingTimeout : Int := 12 * 3600 * second

def defaultGrantDuration : Int := 24 * 3600 * second

def Database.empty : Database := ⟨AutoTable.empty 1, []⟩

/-! ## Expiry strings -/

def expiryRe : Regex :=
  .seq (.group 1 (.run isDecimal 1 (some 3)))
    (.group 2 (.choice (.char (· == 'h')) [.char (· == 'm'), .char (· == 'd')]))

def unitSeconds (unit : Text) : Int :=
  if unit = ['h'] then 3600 else if unit = ['m'] then 60 else 86400

def parseExpiry : Option Text → Except GrantError (Option Int)
  | none => .ok none
  | some text =>
    match expiryRe.matchLine (strip text) with
    | none => .error (.invalidExpiry text)
    | some groups =>
      let value := decimalNumber ((groups.lookup 1).getD [])
      if value = 0 then .error (.expiryNotPositive text)
      else .ok (some (value * unitSeconds ((groups.lookup 2).getD []) * second))

/-! ## Reading -/

variable (cfg : Settings) (now : Int)

/-- `_state`: pending rows time out and active rows expire when they are read. -/
def effectiveState (row : Row) : State :=
  match row.state with
  | .pending => if cfg.pendingTimeout ≤ now - row.createdAt then .expired else .pending
  | .active => if row.expiresAt.all (· ≤ now) then .expired else .active
  | state => state

def toRecord (rid : Nat) (row : Row) : GrantRecord where
  id := rid
  instanceName := row.instanceName
  reason := row.reason
  items := row.items
  state := effectiveState cfg now row
  expiresAt := row.expiresAt
  createdAt := row.createdAt
  stateSource :=
    if effectiveState cfg now row = .expired ∧ row.state = .pending then
      some "pending_timeout".toList
    else if effectiveState cfg now row = .expired ∧ row.state = .active then
      some "grant_expiry".toList
    else row.stateSource

def getRow (rid : Nat) : Effect Database GrantError GrantRecord := do
  match (← Effect.get).grants.get? rid with
  | none => Effect.raise (.unknownGrant rid)
  | some row => return toRecord cfg now rid row

def activeGrants (instanceName : Option Text) (db : Database) : List GrantRecord :=
  db.grants.rows.filterMap fun entry =>
    if entry.2.state ≠ .active then none
    else if instanceName.any (· ≠ entry.2.instanceName) then none
    else if effectiveState cfg now entry.2 ≠ .active then none
    else some (toRecord cfg now entry.1 entry.2)

def allRecords (db : Database) : List GrantRecord :=
  db.grants.rows.map fun entry => toRecord cfg now entry.1 entry.2

def pendingRecords (db : Database) : List GrantRecord :=
  (db.grants.rows.filter fun entry => entry.2.state = .pending).map fun entry =>
    toRecord cfg now entry.1 entry.2

def requestForEvent (eventId : Text) (db : Database) : Option Nat := db.posted.lookup eventId

/-! ## Writing -/

def pendingRow (instanceName reason : Text) (items : List Item) : Row where
  instanceName := instanceName
  reason := strip reason
  items := items
  createdAt := now
  decidedAt := none
  expiresAt := none
  state := .pending
  stateSource := none
  active_expires := by simp

def Row.reject (source : Text) (row : Row) : Row :=
  { row with
    state := .rejected
    decidedAt := some now
    stateSource := some source
    active_expires := by simp }

def Row.activate (items : List Item) (expiry : Int) (row : Row) : Row :=
  { row with
    items := items
    state := .active
    decidedAt := some now
    expiresAt := some expiry
    stateSource := some "approval".toList
    active_expires := by simp }

def Row.revoke (row : Row) : Row :=
  { row with
    state := .revoked
    stateSource := some "revocation".toList
    active_expires := by simp }

/-- The restart rule for one row: a stored pending request becomes rejected. -/
def Row.discard (row : Row) : Row :=
  if row.state = .pending then
    { row with
      state := .rejected
      stateSource := some "restart_discard".toList
      active_expires := by simp }
  else row

def updateGrant (rid : Nat) (f : Row → Row) : Effect Database GrantError Unit :=
  Effect.modify fun db => { db with grants := db.grants.modify rid f }

def restartDiscardPending (db : Database) : Database :=
  { db with grants := db.grants.update fun _ row => row.discard }

def cleanItem (item : RawItem) : Except GrantError Item :=
  match item.mode with
  | none => .error (.invalidMode none)
  | some mode =>
    if mode ∉ modes then .error (.invalidMode (some mode))
    else
      match item.path.bind normalizePath with
      | none => .error (.invalidPath item.path)
      | some norm => .ok ⟨norm, mode⟩

def cleanItems : List RawItem → Except GrantError (List Item)
  | [] => .ok []
  | item :: rest => do
    let clean ← cleanItem item
    let cleaned ← cleanItems rest
    return clean :: cleaned

def createRequest (instanceName : Text) (reason : Option Text) (items : List RawItem) :
    Effect Database GrantError GrantRecord := do
  match reason with
  | none => Effect.raise .emptyReason
  | some text =>
    if isBlank text then Effect.raise .emptyReason
    else if items = [] then Effect.raise .emptyItems
    else if cfg.allowedInstances.any (instanceName ∉ ·) then
      Effect.raise (.unknownInstance instanceName)
    else
      match cleanItems items with
      | .error e => Effect.raise e
      | .ok clean =>
        let rid := (← Effect.get).grants.next
        Effect.modify fun db =>
          { db with grants := db.grants.insert (pendingRow now instanceName text clean) }
        getRow cfg now rid

def assertPending (rid : Nat) : Effect Database GrantError Row := do
  match (← Effect.get).grants.get? rid with
  | none => Effect.raise (.unknownGrant rid)
  | some row =>
    if effectiveState cfg now row ∈ decided then
      Effect.raise (.alreadyDecided rid (effectiveState cfg now row))
    else return row

/-- The items picked by 1-based number; `none` in the list is a value that is no integer. -/
def chooseItems (items : List Item) : List (Option Int) → Except GrantError (List Item)
  | [] => .ok []
  | none :: _ => .error (.invalidItemNumber none)
  | some n :: rest =>
    if n < 1 then .error (.invalidItemNumber (some n))
    else
      match items[n.toNat - 1]? with
      | none => .error (.invalidItemNumber (some n))
      | some item => do
        let chosen ← chooseItems items rest
        return item :: chosen

def approve (rid : Nat) (expiry : Option Text) (itemNumbers : Option (List (Option Int))) :
    Effect Database GrantError GrantRecord := do
  let row ← assertPending cfg now rid
  match parseExpiry expiry with
  | .error e => Effect.raise e
  | .ok parsed =>
    let duration := parsed.getD cfg.defaultDuration
    match itemNumbers.elim (.ok row.items) (chooseItems row.items) with
    | .error e => Effect.raise e
    | .ok items =>
      if itemNumbers.isSome ∧ items = [] then
        updateGrant rid (Row.reject now "partial_empty".toList)
        getRow cfg now rid
      else
        updateGrant rid (Row.activate now items (now + duration))
        getRow cfg now rid

def reject (rid : Nat) : Effect Database GrantError GrantRecord := do
  let _ ← assertPending cfg now rid
  updateGrant rid (Row.reject now "rejection".toList)
  getRow cfg now rid

def revoke (rid : Nat) : Effect Database GrantError GrantRecord := do
  match (← Effect.get).grants.get? rid with
  | none => Effect.raise (.unknownGrant rid)
  | some row =>
    match effectiveState cfg now row with
    | .pending =>
      updateGrant rid (Row.reject now "pending_revoke".toList)
      getRow cfg now rid
    | .active =>
      updateGrant rid Row.revoke
      getRow cfg now rid
    | state => Effect.raise (.alreadyDecided rid state)

def recordPosted (eventId : Text) (rid : Nat) : Effect Database GrantError Unit := do
  if ((← Effect.get).posted.lookup eventId).isSome then Effect.raise (.duplicateEvent eventId)
  else Effect.modify fun db => { db with posted := db.posted ++ [(eventId, rid)] }

end AccessBroker.Grants
