import AccessBroker.Config
import AccessBroker.Library.Machine
import AccessBroker.Server

/-! # The running broker

The process of `run.py` with everything that reaches it: tool calls on the two
surfaces, the events of the room as the listener dispatches them, sweeps, the
outcomes of sends that handlers wait for, and restarts. Any order of these is a
run.
-/

namespace AccessBroker.System
open Py Grants MatrixBot Server
set_option autoImplicit false

/-- What `wire_components` puts together, and the code it only calls. -/
structure Wiring where
  platform : Nextcloud.Platform
  floats : Json.FloatFormat
  closeMatch : Text → Option Text
  decode : Text → Option Nextcloud.Bytes
  layer : Nextcloud.Layer
  matrix : Config.MatrixConfig

def Wiring.bot (w : Wiring) : Bot := ⟨w.matrix.approver, w.closeMatch⟩

inductive Content where
  | reaction (reactsTo key : Text)
  | message (body : Text)
  deriving DecidableEq

/-- An event of a room; an empty `eventId` stands for a missing one. -/
structure RoomEvent where
  roomId : Text
  eventId : Text
  sender : Text
  content : Content
  deriving DecidableEq

/-- What is on disk, and what the process holds in memory if one runs. -/
structure Broker where
  desk : Desk
  files : Audit.Files
  writer : Option Audit.AuditLog
  trace : List Nextcloud.Event
  seen : List Text
  tasks : List Pause

inductive Act where
  /-- Time passes, by a reading of the clock that nobody uses. -/
  | wait
  | call (surface : Surface) (tool : Tool)
  | event (event : RoomEvent)
  | sweep
  /-- The send the task with this index waits for has ended. -/
  | resume (index : Nat) (outcome : Except SendError Text)
  | restart
  deriving DecidableEq

section Steps

variable (w : Wiring) (env : Nextcloud.Environment)

def Broker.start : Broker := ⟨⟨Database.empty, [], [], 0⟩, ⟨none, none⟩, none, [], [], []⟩

def Broker.perform (s : Broker) (handler : Handler Progress) : Broker :=
  match handler.run s.desk with
  | (.ok (.awaits pause), desk) => { s with desk := desk, tasks := s.tasks ++ [pause] }
  | (_, desk) => { s with desk := desk }

def Broker.operate (s : Broker) (writer : Audit.AuditLog) (instanceName : Text)
    (op : Nextcloud.Operation) : Broker :=
  let world := ((op.run w.platform w.layer s.desk.db env instanceName).run
    ⟨some ⟨writer, s.files⟩, s.desk.asked, s.trace⟩).2
  { s with
    desk := { s.desk with asked := world.asked }
    files := (world.audit.map Audit.AuditState.files).getD s.files
    writer := world.audit.map Audit.AuditState.writer
    trace := world.trace }

/-- A surface dispatches only the tools that are registered on it. -/
def Broker.call (s : Broker) (writer : Audit.AuditLog) (surface : Surface) (tool : Tool) :
    Broker :=
  if tool.name ∉ surface.tools then s
  else
    match tool with
    | .requestAccess instanceName reason items =>
      s.perform (requestAccess w.layer.store env.clock instanceName reason items)
    | .checkAccess instanceName => s.perform do
      let _ ← checkAccess w.layer.store env.clock instanceName
      return .returns none
    | tool =>
      match tool.operation w.decode surface with
      | none => s
      | some (instanceName, op) => s.operate w env writer instanceName op

def Broker.see (s : Broker) (eventId : Text) : Broker :=
  if eventId ≠ [] then { s with seen := eventId :: s.seen } else s

/-- Reactions are handled whoever sends them; the bot's own messages are no commands. -/
def Broker.dispatch (s : Broker) (sender : Text) : Content → Broker
  | .reaction reactsTo key =>
    s.perform (handleReaction w.layer.store w.bot env.clock sender reactsTo key)
  | .message body =>
    if sender = w.matrix.botUser then s
    else s.perform (handleReply w.layer.store w.bot env.clock sender body)

/-- `on_event`: one room, and each event id once. -/
def Broker.onEvent (s : Broker) (event : RoomEvent) : Broker :=
  if event.roomId ≠ w.matrix.roomId then s
  else if event.eventId ≠ [] ∧ event.eventId ∈ s.seen then s
  else (s.see event.eventId).dispatch w env event.sender event.content

/-- The audit log is opened first; if that fails, no process runs. -/
def Broker.restart (s : Broker) : Broker :=
  match Audit.AuditLog.open w.floats [] s.files with
  | .error _ => { s with writer := none, tasks := [] }
  | .ok writer =>
    { s with
      desk := ⟨restartDiscardPending s.desk.db, [], [], s.desk.asked⟩
      writer := some writer
      seen := []
      tasks := [] }

def Broker.wait (s : Broker) : Broker :=
  { s with desk := { s.desk with asked := s.desk.asked + 1 } }

def Broker.handle (s : Broker) (writer : Audit.AuditLog) : Act → Broker
  | .wait => s.wait
  | .call surface tool => s.call w env writer surface tool
  | .event event => s.onEvent w env event
  | .sweep => s.perform (sweep w.layer.store env.clock)
  | .resume index outcome =>
    match s.tasks[index]? with
    | none => s
    | some pause => { s with tasks := s.tasks.eraseIdx index }.perform
        (Server.resume w.layer.store env.clock pause outcome)
  | .restart => s.restart w

def Broker.step (s : Broker) (act : Act) : Broker :=
  match s.writer with
  | some writer => s.handle w env writer act
  | none =>
    match act with
    | .restart => s.restart w
    | .wait => s.wait
    | _ => s

def Broker.active (s : Broker) : List GrantRecord :=
  activeGrants w.layer.store (env.clock s.desk.asked) none s.desk.db

end Steps

end AccessBroker.System
