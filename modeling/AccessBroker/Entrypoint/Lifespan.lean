import AccessBroker.Library.Machine
import AccessBroker.Library.Text

/-! # The lifespan of the surfaces

`PathDispatch` starts every surface behind the port and stops every one, each through a driver
with two queues: what the surface is given and what it replies. The surfaces run as tasks of
their own, between any two steps of the dispatcher.
-/

namespace AccessBroker.Entrypoint
open Py
set_option autoImplicit false

/-- A message of a surface: what stands under `type`, and how an f-string shows it. -/
structure Message where
  type : Option Text
  shown : Text
  deriving DecidableEq

inductive Task where
  | running
  | returned
  | raised (exc : Text)
  deriving DecidableEq

/-- `_LifespanDriver`. The last task is `_task`; `received` and `replied` are all that the
surface took from the one queue and put on the other. -/
structure Driver where
  incoming : List Text
  outgoing : List Message
  tasks : List Task
  received : List Text
  replied : List Message

/-- Where `PathDispatch` is: the number is the driver whose reply or end it waits for. -/
inductive Phase where
  | receiving
  | starting (index : Nat)
  | stopping (index : Nat)
  | joining (index : Nat)
  | returned
  | raised (exc : Text)
  deriving DecidableEq

/-- What goes to the server. -/
inductive Sent where
  | startupComplete
  | startupFailed (message : Text)
  | shutdownComplete
  deriving DecidableEq

structure Lifespan where
  drivers : List Driver
  phase : Phase
  sent : List Sent

inductive LifespanAct where
  /-- The server's next message, of this type. -/
  | receive (type : Text)
  /-- The dispatcher goes on, if what it waits for is there. -/
  | go
  /-- A task of a surface takes its next message, replies, or ends. -/
  | take (index task : Nat)
  | reply (index task : Nat) (message : Message)
  | finish (index task : Nat) (outcome : Except Text Unit)
  deriving DecidableEq

def startupType : Text := "lifespan.startup".toList

def shutdownType : Text := "lifespan.shutdown".toList

def startupCompleteType : Text := "lifespan.startup.complete".toList

def Driver.new : Driver := ⟨[], [], [], [], []⟩

def Lifespan.start (surfaces : Nat) : Lifespan := ⟨List.replicate surfaces .new, .receiving, []⟩

def Driver.startup (driver : Driver) : Driver :=
  { driver with
    incoming := driver.incoming ++ [startupType]
    tasks := driver.tasks ++ [.running] }

def Driver.shutdown (driver : Driver) : Driver :=
  { driver with incoming := driver.incoming ++ [shutdownType] }

/-- The text of the exception that a reply other than `startup.complete` raises. -/
def Message.failure (reply : Message) : Text :=
  match reply.type with
  | none => "'type'".toList
  | some _ => "surface lifespan startup failed: ".toList ++ reply.shown

namespace Lifespan

/-- The loop over `driver.startup()`, from a driver on. -/
def startFrom (s : Lifespan) (index : Nat) : Lifespan :=
  if index < s.drivers.length then
    { s with phase := .starting index, drivers := s.drivers.modify index Driver.startup }
  else { s with phase := .receiving, sent := s.sent ++ [.startupComplete] }

/-- The loop over `driver.shutdown()`, which does nothing with a driver that was not started. -/
def stopFrom (s : Lifespan) (index : Nat) : Lifespan :=
  match (s.drivers.drop index).findIdx? fun driver => !driver.tasks.isEmpty with
  | some ahead =>
    { s with
      phase := .stopping (index + ahead)
      drivers := s.drivers.modify (index + ahead) Driver.shutdown }
  | none => { s with phase := .returned, sent := s.sent ++ [.shutdownComplete] }

def pop (s : Lifespan) (index : Nat) : Lifespan :=
  { s with drivers := s.drivers.modify index fun driver =>
      { driver with outgoing := driver.outgoing.tail } }

def go (s : Lifespan) : Lifespan :=
  match s.phase with
  | .starting index =>
    match (s.drivers[index]?).bind fun driver => driver.outgoing.head? with
    | none => s
    | some reply =>
      if reply.type = some startupCompleteType then (s.pop index).startFrom (index + 1)
      else { s.pop index with phase := .returned, sent := s.sent ++ [.startupFailed reply.failure] }
  | .stopping index =>
    match (s.drivers[index]?).bind fun driver => driver.outgoing.head? with
    | none => s
    | some _ => { s.pop index with phase := .joining index }
  | .joining index =>
    match (s.drivers[index]?).bind fun driver => driver.tasks.getLast? with
    | some .returned => s.stopFrom (index + 1)
    | some (.raised exc) => { s with phase := .raised exc }
    | _ => s
  | _ => s

/-- Only a task that runs does anything. -/
def onTask (s : Lifespan) (index task : Nat) (f : Driver → Driver) : Lifespan :=
  { s with drivers := s.drivers.modify index fun driver =>
      if driver.tasks[task]? = some .running then f driver else driver }

def step (s : Lifespan) : LifespanAct → Lifespan
  | .receive type =>
    if s.phase ≠ .receiving then s
    else if type = startupType then s.startFrom 0
    else if type = shutdownType then s.stopFrom 0
    else s
  | .go => s.go
  | .take index task => s.onTask index task fun driver =>
    { driver with
      incoming := driver.incoming.tail
      received := driver.received ++ driver.incoming.take 1 }
  | .reply index task message => s.onTask index task fun driver =>
    { driver with
      outgoing := driver.outgoing ++ [message]
      replied := driver.replied ++ [message] }
  | .finish index task outcome => s.onTask index task fun driver =>
    { driver with
      tasks := driver.tasks.set task
        (match outcome with
          | .ok () => .returned
          | .error exc => .raised exc) }

end Lifespan

end AccessBroker.Entrypoint
