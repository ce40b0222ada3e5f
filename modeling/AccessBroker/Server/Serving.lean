import AccessBroker.Library.Base64
import AccessBroker.Cli.Transfers
import AccessBroker.Server.Envelopes

/-! # The transfer surface

What the content tools answer a transfer's tool calls with, and how much of it arrives. The
arguments and the answer cross the wire as JSON.
-/

namespace AccessBroker.Server
open Py Nextcloud
set_option autoImplicit false

/-- The text of a `str` without lone surrogates. -/
def text? (s : Json.Str) : Option Text :=
  if s.all fun u => decide u.isValidChar then some (s.map Char.ofNat) else none

/-- The tool that is called, if the arguments have the types it declares. -/
def transferTool (instanceName : Text) : Cli.ToolCall → Option Tool
  | .read path => some (.read instanceName path)
  | .write path content => some (.write instanceName path (Base64.encode content))
  | .checkout path timeout => some (.checkout instanceName path timeout)
  | .checkin path content (.str lockToken) =>
    (text? lockToken).map fun lockToken =>
      .checkin instanceName path (Base64.encode content) lockToken
  | .checkin _ _ _ => none

/-- What a tool says of arguments that it does not take itself. -/
def argumentError : Tool → Failure
  | .checkin _ _ _ [] => error "lock_token is required for checkin".toList
  | _ => error "content must be base64".toList

/-! ## Answers -/

/-- The verbs of the adapter return `{"ok": True}`, `get` with the content that `read` encodes. -/
def resultJson : Nextcloud.Answer → Json.Value
  | .reply reply =>
    match reply.isDict, reply.content with
    | true, some content =>
      .obj [(Json.codes "content_b64".toList, .ofText (Base64.encode content))]
    | _, _ => .obj [(Json.codes "ok".toList, .bool true)]
  | .checkedOut lockToken content =>
    let ok := (Json.codes "ok".toList, .bool true)
    let lockToken := (Json.codes "lock_token".toList, (lockToken.map Json.Value.ofText).getD .null)
    match content with
    | some content => .obj [(Json.codes "content".toList, .null),
        (Json.codes "content_b64".toList, .ofText (Base64.encode content)), lockToken, ok]
    | none => .obj [(Json.codes "content".toList, .null), lockToken, ok]
  | .checkedIn written unlocked => .obj [(Json.codes "ok".toList, .bool true),
      (Json.codes "unlocked".toList, .bool unlocked), (Json.codes "written".toList, .bool written)]

def Failure.json (failure : Failure) : Json.Dict :=
  [(Json.codes failure.key, .ofText failure.message),
    (Json.codes "status".toList, .ofText failure.status)]

def Envelope.json : Envelope → Json.Dict
  | .ok result => [(Json.codes "result".toList, resultJson result),
      (Json.codes "status".toList, .ofText "ok".toList)]
  | .failed failure => failure.json

/-! ## The broker -/

/-- An answer of a tool that reports success. -/
def Succeeds (out : Json.Value) : Prop :=
  ∃ dict, out = .obj dict ∧ Cli.isText "ok".toList (Cli.field dict "status".toList .null) = true

/-- The process behind the surface, with the grants there are at each call. What the server
framework answers to arguments of the wrong type is no success. -/
structure Broker where
  platform : Nextcloud.Platform
  layer : Layer
  env : Environment
  db : Nat → Grants.Database
  exceptions : Exceptions
  logPath : Text
  rejects : Cli.ToolCall → Except Cli.Failure Json.Value
  rejects_not : ∀ call out, rejects call = .ok out → ¬ Succeeds out

/-- What becomes of the answer to a call. One that is lost can have been served before. -/
inductive Delivery where
  | delivered
  | lost (served : Bool) (failure : Cli.Failure)

namespace Broker

variable (broker : Broker) (instanceName : Text)

def runTool (k : Nat) (tool : Tool) (w : World) : Envelope × World :=
  match tool.operation Base64.decode .transfer with
  | none => (.failed (argumentError tool), w)
  | some (instanceName, operation) =>
    let (result, w') := (operation.run broker.platform broker.layer (broker.db k) broker.env
      instanceName).run w
    (op broker.exceptions broker.logPath broker.layer.clients result, w')

def serve (k : Nat) (call : Cli.ToolCall) (w : World) : Except Cli.Failure Json.Value × World :=
  match transferTool instanceName call with
  | none => (broker.rejects call, w)
  | some tool =>
    let (envelope, w') := broker.runTool k tool w
    (.ok (.obj envelope.json), w')

def deliver (k : Nat) (call : Cli.ToolCall) (w : World) :
    Delivery → Except Cli.Failure Json.Value × World
  | .delivered => broker.serve instanceName k call w
  | .lost served failure =>
    (.error failure, if served then (broker.serve instanceName k call w).2 else w)

/-- The calls are answered by the broker, one after the other, from call `k` on. -/
def Serves (deliveries : Nat → Delivery) (answer : Nat → Except Cli.Failure Json.Value) :
    Nat → List Cli.ToolCall → World → World → Prop
  | _, [], w, w' => w' = w
  | k, call :: calls, w, w' =>
    answer k = (broker.deliver instanceName k call w (deliveries k)).1 ∧
      Serves deliveries answer (k + 1) calls
        (broker.deliver instanceName k call w (deliveries k)).2 w'

end Broker

/-! ## Which calls succeed -/

theorem text?_codes (text : Text) : text? (Json.codes text) = some text := by
  have hValid : (Json.codes text).all (fun u => decide u.isValidChar) = true := by
    simp only [Json.codes, List.all_map, List.all_eq_true]
    exact fun c _ => decide_eq_true c.valid
  have hMap : (Json.codes text).map Char.ofNat = text := by
    rw [Json.codes, List.map_map]
    exact (List.map_congr_left fun c _ => Char.ofNat_toNat c).trans (List.map_id _)
  rw [text?, if_pos hValid, hMap]

theorem text?_ne_nil {s : Json.Str} {text : Text} (h : text? s = some text) (hs : s ≠ []) :
    text ≠ [] := by
  rw [text?] at h
  split at h
  · cases h
    exact fun hNil => hs (List.map_eq_nil_iff.mp hNil)
  · cases h

theorem succeeds_ok (result : Nextcloud.Answer) : Succeeds (.obj (Envelope.ok result).json) :=
  ⟨_, rfl, rfl⟩

theorem not_succeeds_refusal (reason : Text) : ¬ Succeeds (.obj (refusal reason).json) := by
  rintro ⟨_, ⟨⟩, hOk⟩
  cases hOk

theorem not_succeeds_error (message : Text) : ¬ Succeeds (.obj (error message).json) := by
  rintro ⟨_, ⟨⟩, hOk⟩
  cases hOk

theorem not_succeeds_caught (exceptions : Exceptions) (logPath : Text)
    (clients : List (Text × Client)) (err : LayerError) :
    ¬ Succeeds (.obj (caught exceptions logPath clients err).json) := by
  unfold caught
  split
  · exact not_succeeds_refusal _
  · exact not_succeeds_error _
  · exact not_succeeds_error _
  · exact not_succeeds_error _
  · split
    · exact not_succeeds_refusal _
    all_goals exact not_succeeds_error _
  · exact not_succeeds_error _

theorem not_succeeds_argumentError (tool : Tool) : ¬ Succeeds (.obj (argumentError tool).json) := by
  unfold argumentError
  split <;> exact not_succeeds_error _

/-- The file operation that a tool call comes down to. -/
def asked (instanceName : Text) (call : Cli.ToolCall) : Option (Text × Nextcloud.Operation) :=
  (transferTool instanceName call).bind fun tool => tool.operation Base64.decode .transfer

theorem asked_read (instanceName path : Text) : asked instanceName (.read path) =
    some (instanceName, .read path (some Surface.transfer.principal)) := rfl

theorem asked_write (instanceName path : Text) (data : Bytes) :
    asked instanceName (.write path data) =
      some (instanceName, .write path data (some Surface.transfer.principal)) := by
  rw [asked, transferTool, Option.bind_some, Tool.operation, Base64.decode_encode]
  rfl

theorem asked_checkin (instanceName path : Text) (data : Bytes) {lockToken : Json.Value}
    {operation : Text × Nextcloud.Operation} :
    asked instanceName (.checkin path data lockToken) = some operation ↔
      ∃ s token, lockToken = .str s ∧ text? s = some token ∧ token ≠ [] ∧
        operation = (instanceName, .checkin path data token (some Surface.transfer.principal)) := by
  cases lockToken with
  | str s =>
    rw [asked, transferTool]
    cases hToken : text? s with
    | none => simp [hToken]
    | some token =>
      rw [Option.map_some, Option.bind_some, Tool.operation, Base64.decode_encode]
      by_cases hEmpty : token = []
      · simp [hEmpty, hToken]
      · simp [hEmpty, hToken, eq_comm]
  | null | bool | int | float | arr | obj => simp [asked, transferTool]

namespace Broker

variable {broker : Broker} {instanceName : Text} {k : Nat} {call : Cli.ToolCall} {w w' : World}

theorem serve_returns {operation : Text × Nextcloud.Operation} {result : Nextcloud.Answer}
    (hAsked : asked instanceName call = some operation)
    (hRun : (operation.2.run broker.platform broker.layer (broker.db k) broker.env
      operation.1).run w = (.ok result, w')) :
    broker.serve instanceName k call w = (.ok (.obj (Envelope.ok result).json), w') := by
  obtain ⟨tool, hTool, hOperation⟩ := Option.bind_eq_some_iff.mp hAsked
  simp only [serve, hTool, runTool, hOperation, hRun, op]

/-- What succeeds is an operation that returns. -/
theorem serve_succeeds {out : Json.Value}
    (h : (broker.serve instanceName k call w).1 = .ok out) (hOk : Succeeds out) :
    ∃ operation result, asked instanceName call = some operation ∧
      (operation.2.run broker.platform broker.layer (broker.db k) broker.env operation.1).run w =
        (.ok result, (broker.serve instanceName k call w).2) ∧
      out = .obj (Envelope.ok result).json := by
  cases hTool : transferTool instanceName call with
  | none =>
    simp only [serve, hTool] at h
    exact absurd hOk (broker.rejects_not call out h)
  | some tool =>
    cases hOperation : tool.operation Base64.decode .transfer with
    | none =>
      simp only [serve, hTool, runTool, hOperation, Except.ok.injEq] at h
      rw [← h] at hOk
      exact absurd hOk (not_succeeds_argumentError tool)
    | some operation =>
      have hAsked : asked instanceName call = some operation := by
        rw [asked, hTool, Option.bind_some, hOperation]
      rcases hRun : (operation.2.run broker.platform broker.layer (broker.db k) broker.env
          operation.1).run w with ⟨err | result, w'⟩
      · simp only [serve, hTool, runTool, hOperation, hRun, op, Except.ok.injEq] at h
        rw [← h] at hOk
        exact absurd hOk (not_succeeds_caught _ _ _ err)
      · rw [serve_returns hAsked hRun] at h ⊢
        cases h
        exact ⟨operation, result, hAsked, hRun, rfl⟩

/-- Only what is delivered succeeds. -/
theorem deliver_ok {delivery : Delivery} {out : Json.Value}
    (h : (broker.deliver instanceName k call w delivery).1 = .ok out) :
    delivery = .delivered := by
  cases delivery with
  | delivered => rfl
  | lost served failure => cases h

end Broker

end AccessBroker.Server
