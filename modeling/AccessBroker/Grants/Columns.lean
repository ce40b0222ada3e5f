import AccessBroker.Grants.History
import AccessBroker.Library.Calendar
import AccessBroker.Server.Serving

/-! # The columns of the store

The two tables as SQLite holds them: the items as JSON, the times as ISO texts, the state by its
name. Every operation reads back from the texts what it needs, and can fail to.
-/

namespace AccessBroker.Grants.Columns
open Py Paths
set_option autoImplicit false

/-! ## The tables -/

structure TextRow where
  instanceName : Text
  reason : Text
  items : Text
  createdAt : Text
  decidedAt : Option Text
  expiresAt : Option Text
  state : Text
  stateSource : Option Text

structure Tables where
  grants : AutoTable TextRow
  posted : List (Text × Nat)

/-- A row as callers see it, with the name of its effective state. -/
structure TextRecord where
  id : Nat
  instanceName : Text
  reason : Text
  items : List Item
  state : Text
  expiresAt : Option Int
  createdAt : Int
  stateSource : Option Text
  deriving DecidableEq

inductive StoreError where
  /-- What the store raises on purpose. -/
  | refused (e : GrantError)
  | alreadyDecided (rid : Nat) (state : Text)
  /-- `now + duration` is past the year 9999. -/
  | overflow
  | unreadableTime (text : Option Text)
  | unreadableItems (text : Text)
  deriving DecidableEq

def told : GrantError → StoreError
  | .alreadyDecided rid state => .alreadyDecided rid state.text
  | e => .refused e

def Tables.empty : Tables := ⟨AutoTable.empty 1, []⟩

/-! ## Times and items as text -/

/-- Microseconds from the first of January of the year 1 to the epoch. -/
def epoch : Int := 62135596800 * second

def Dated (time : Int) : Prop := Calendar.InRange (time + epoch)

instance (time : Int) : Decidable (Dated time) := inferInstanceAs (Decidable (Calendar.InRange _))

def iso (time : Int) : Text := Calendar.print (time + epoch)

def fromIso (text : Text) : Except StoreError Int :=
  match Calendar.read text with
  | none => .error (.unreadableTime (some text))
  | some time => .ok (time - epoch)

def pathKey : Json.Str := Json.codes "path".toList

def modeKey : Json.Str := Json.codes "mode".toList

/-- The members stand in the order they were written in. -/
def itemValue (item : Item) : Json.Value :=
  .obj [(pathKey, .ofText item.path), (modeKey, .ofText item.mode)]

def dumpItems (items : List Item) : Text := Json.dumps (.arr (items.map itemValue))

def textMember (key : Json.Str) (members : Json.Dict) : Option Text :=
  match members.lookup key with
  | some (.str s) => Server.text? s
  | _ => none

def readItem : Json.Value → Option Item
  | .obj members => do return ⟨← textMember pathKey members, ← textMember modeKey members⟩
  | _ => none

/-- `json.loads(row["items"])`, for the items that the store writes. -/
def loadItems (text : Text) : Except StoreError (List Item) :=
  match Json.loads .verbatim text with
  | some (.arr values) =>
    match values.mapM readItem with
    | some items => .ok items
    | none => .error (.unreadableItems text)
  | _ => .error (.unreadableItems text)

/-! ## Reading -/

variable (cfg : Settings) (now : Int)

/-- `_state`, on the texts of a row. -/
def stateOf (row : TextRow) : Except StoreError Text :=
  if row.state = State.pending.text then do
    let created ← fromIso row.createdAt
    return if cfg.pendingTimeout ≤ now - created then State.expired.text else State.pending.text
  else if row.state = State.active.text then
    match row.expiresAt with
    | none => .error (.unreadableTime none)
    | some text => do
      let expires ← fromIso text
      return if expires ≤ now then State.expired.text else State.active.text
  else .ok row.state

/-- An empty text is as good as none here. -/
def expiryOf (row : TextRow) : Except StoreError (Option Int) :=
  match row.expiresAt with
  | none | some [] => .ok none
  | some text => do return some (← fromIso text)

/-- `_get_row`, of a row that is found. -/
def recordOf (rid : Nat) (row : TextRow) : Except StoreError TextRecord := do
  let effective ← stateOf cfg now row
  let source :=
    if effective = State.expired.text ∧ row.state = State.pending.text then
      some "pending_timeout".toList
    else if effective = State.expired.text ∧ row.state = State.active.text then
      some "grant_expiry".toList
    else row.stateSource
  let items ← loadItems row.items
  let expiresAt ← expiryOf row
  let createdAt ← fromIso row.createdAt
  return ⟨rid, row.instanceName, row.reason, items, effective, expiresAt, createdAt, source⟩

def getRow (rid : Nat) (t : Tables) : Except StoreError TextRecord :=
  match t.grants.get? rid with
  | none => .error (.refused (.unknownGrant rid))
  | some row => recordOf cfg now rid row

def activeGrants (instanceName : Option Text) (t : Tables) : Except StoreError (List TextRecord) := do
  let rows := t.grants.rows.filter fun entry =>
    entry.2.state = State.active.text ∧ instanceName.all (· = entry.2.instanceName)
  let records ← rows.mapM fun entry => recordOf cfg now entry.1 entry.2
  return records.filter (·.state = State.active.text)

def allRecords (t : Tables) : Except StoreError (List TextRecord) :=
  t.grants.rows.mapM fun entry => recordOf cfg now entry.1 entry.2

def pendingRecords (t : Tables) : Except StoreError (List TextRecord) :=
  (t.grants.rows.filter fun entry => entry.2.state = State.pending.text).mapM fun entry =>
    recordOf cfg now entry.1 entry.2

def requestForEvent (eventId : Text) (t : Tables) : Option Nat := t.posted.lookup eventId

/-! ## Writing -/

def readTables {α : Type} (f : Tables → Except StoreError α) : Effect Tables StoreError α := do
  match f (← Effect.get) with
  | .error e => Effect.raise e
  | .ok a => return a

def updateGrant (rid : Nat) (f : TextRow → TextRow) : Effect Tables StoreError Unit :=
  Effect.modify fun t => { t with grants := t.grants.modify rid f }

def insertedRow (instanceName reason : Text) (items : List Item) : TextRow where
  instanceName := instanceName
  reason := strip reason
  items := dumpItems items
  createdAt := iso now
  decidedAt := none
  expiresAt := none
  state := State.pending.text
  stateSource := none

def TextRow.reject (source : Text) (row : TextRow) : TextRow :=
  { row with
    state := State.rejected.text
    decidedAt := some (iso now)
    stateSource := some source }

def TextRow.activate (items : List Item) (expiry : Int) (row : TextRow) : TextRow :=
  { row with
    items := dumpItems items
    state := State.active.text
    decidedAt := some (iso now)
    expiresAt := some (iso expiry)
    stateSource := some "approval".toList }

def TextRow.revoke (row : TextRow) : TextRow :=
  { row with
    state := State.revoked.text
    stateSource := some "revocation".toList }

def TextRow.discard (row : TextRow) : TextRow :=
  if row.state = State.pending.text then
    { row with
      state := State.rejected.text
      stateSource := some "restart_discard".toList }
  else row

def restartDiscardPending (t : Tables) : Tables :=
  { t with grants := t.grants.update fun _ row => row.discard }

def createRequest (instanceName : Text) (reason : Option Text) (items : List RawItem) :
    Effect Tables StoreError TextRecord := do
  match reason with
  | none => Effect.raise (.refused .emptyReason)
  | some text =>
    if isBlank text then Effect.raise (.refused .emptyReason)
    else if items = [] then Effect.raise (.refused .emptyItems)
    else if cfg.allowedInstances.any (instanceName ∉ ·) then
      Effect.raise (.refused (.unknownInstance instanceName))
    else
      match cleanItems items with
      | .error e => Effect.raise (told e)
      | .ok clean =>
        let rid := (← Effect.get).grants.next
        Effect.modify fun t =>
          { t with grants := t.grants.insert (insertedRow now instanceName text clean) }
        readTables (getRow cfg now rid)

def findRow (rid : Nat) (t : Tables) : Except StoreError TextRow :=
  match t.grants.get? rid with
  | none => .error (.refused (.unknownGrant rid))
  | some row => .ok row

def assertPending (rid : Nat) (t : Tables) : Except StoreError TextRow := do
  let row ← findRow rid t
  let state ← stateOf cfg now row
  if state ∈ decided.map State.text then .error (.alreadyDecided rid state) else return row

def approve (rid : Nat) (expiry : Option Text) (itemNumbers : Option (List (Option Int))) :
    Effect Tables StoreError TextRecord := do
  let row ← readTables (assertPending cfg now rid)
  match parseExpiry expiry with
  | .error e => Effect.raise (told e)
  | .ok parsed =>
    let duration := parsed.getD cfg.defaultDuration
    match loadItems row.items with
    | .error e => Effect.raise e
    | .ok stored =>
      match itemNumbers.elim (.ok stored) (chooseItems stored) with
      | .error e => Effect.raise (told e)
      | .ok items =>
        if itemNumbers.isSome ∧ items = [] then
          updateGrant rid (TextRow.reject now "partial_empty".toList)
          readTables (getRow cfg now rid)
        else if Dated (now + duration) then
          updateGrant rid (TextRow.activate now items (now + duration))
          readTables (getRow cfg now rid)
        else Effect.raise .overflow

def reject (rid : Nat) : Effect Tables StoreError TextRecord := do
  let _ ← readTables (assertPending cfg now rid)
  updateGrant rid (TextRow.reject now "rejection".toList)
  readTables (getRow cfg now rid)

def revoke (rid : Nat) : Effect Tables StoreError TextRecord := do
  let row ← readTables (findRow rid)
  match stateOf cfg now row with
  | .error e => Effect.raise e
  | .ok effective =>
    if effective = State.pending.text then
      updateGrant rid (TextRow.reject now "pending_revoke".toList)
      readTables (getRow cfg now rid)
    else if effective = State.active.text then
      updateGrant rid TextRow.revoke
      readTables (getRow cfg now rid)
    else Effect.raise (.alreadyDecided rid effective)

/-- `posted_messages.event_id` is a key. -/
def recordPosted (eventId : Text) (rid : Nat) : Effect Tables StoreError Unit := do
  if ((← Effect.get).posted.lookup eventId).isSome then
    Effect.raise (.refused (.duplicateEvent eventId))
  else Effect.modify fun t => { t with posted := t.posted ++ [(eventId, rid)] }

def run : Operation → Effect Tables StoreError (Option TextRecord)
  | .createRequest instanceName reason items => do
    return some (← createRequest cfg now instanceName reason items)
  | .approve rid expiry itemNumbers => do return some (← approve cfg now rid expiry itemNumbers)
  | .reject rid => do return some (← reject cfg now rid)
  | .revoke rid => do return some (← revoke cfg now rid)
  | .recordPosted eventId rid => do
    recordPosted eventId rid
    return none
  | .restart => do
    Effect.modify restartDiscardPending
    return none

/-! ## Runs -/

structure Event where
  time : Int
  op : Operation
  result : Except StoreError (Option TextRecord)

/-- The clock is a `datetime`. -/
structure Session where
  tables : Tables
  now : Int
  events : List Event
  dated : Dated now

def Session.step (s : Session) : Act → Session
  | .tick elapsed =>
    if h : Dated (s.now + elapsed) then { s with now := s.now + elapsed, dated := h } else s
  | .call op =>
    let outcome := (run cfg s.now op).run s.tables
    { s with tables := outcome.2, events := s.events ++ [⟨s.now, op, outcome.1⟩] }

end AccessBroker.Grants.Columns
