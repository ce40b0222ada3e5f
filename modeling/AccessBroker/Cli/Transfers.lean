import AccessBroker.Cli

/-! # Transfers

The commands that move a file between the broker and the local host, up to the line
they print, and the client that carries their tool calls as JSON-RPC.
-/

namespace AccessBroker.Cli
open Py
set_option autoImplicit false

/-! ## The client -/

/-- What `json.loads` raises: a `JSONDecodeError`, or else. -/
inductive LoadError where
  | decode (exc : Text)
  | other (exc : Text)

/-- How a POST ends. Anything else that it raises is `broken`; `session` is the header that the
client echoes. -/
inductive Reply where
  | answered (session : Option Text) (body : Text)
  | httpError (code : Int)
  | unreachable (reason : Text)
  | broken (exc : Text)

/-- The session, and how often it has posted. -/
structure McpClient where
  sessionId : Option Text
  posts : Nat

section Client

variable (platform : Platform) (loads : Json.Str → Except LoadError Json.Value)
  (replies : Nat → Reply)

def isResponse (dict : Json.Dict) : Bool :=
  (dict.get? "id".toList).isSome || (dict.get? "result".toList).isSome

def responseLine : List Text → Except Failure (Option Json.Value)
  | [] => .ok none
  | line :: lines =>
    match loads (Json.codes line) with
    | .ok (.obj dict) => if isResponse dict then .ok (some (.obj dict)) else responseLine lines
    | .ok _ | .error (.decode _) => responseLine lines
    | .error (.other exc) => .error (.escaped exc)

def dataLines (text : Text) : List Text :=
  ((nonblankLines text).filter fun line => startsWith line "data:".toList).map fun line =>
    strip (line.drop 5)

def parseEnvelope (body : Text) : Except Failure Json.Value :=
  let text := strip body
  if startsWith text ['{'] then
    match loads (Json.codes text) with
    | .ok envelope => .ok envelope
    | .error (.decode exc) => .error (.cli ("broker response is not valid JSON: ".toList ++ exc))
    | .error (.other exc) => .error (.escaped exc)
  else if dataLines text = [] then
    .error (.cli "unparseable broker response (no JSON, no SSE data)".toList)
  else
    match responseLine loads (dataLines text).reverse with
    | .ok (some envelope) => .ok envelope
    | .ok none => .error (.cli "no JSON-RPC response in SSE stream".toList)
    | .error failure => .error failure

/-- `json.loads(inner)` of the first content part. -/
def innerValue (inner : Json.Value) : Except Failure Json.Value :=
  match inner with
  | .str text =>
    match loads text with
    | .ok value => .ok value
    | .error (.decode _) => .ok (.obj [(Json.codes "raw".toList, inner)])
    | .error (.other exc) => .error (.escaped exc)
  | _ => .error (.escaped "TypeError".toList)

def toolResult (result : Json.Dict) : Except Failure Json.Value :=
  match field result "content".toList .null with
  | .arr (first :: _) => do
    let inner := field (← members first) "text".toList .null
    if truth inner then innerValue loads inner else return .obj result
  | _ => .ok (.obj result)

/-- `_parse_response`. -/
def parseResponse (body : Text) : Except Failure Json.Value := do
  let envelope ← members (← parseEnvelope loads body)
  let error := field envelope "error".toList .null
  if truth error then throw (.cli ("broker rpc error: ".toList ++ platform.shown error))
  else
    match field envelope "result".toList (.obj []) with
    | .obj result => toolResult loads result
    | _ => return .obj []

/-- `_post`. -/
def post (expectSession : Bool) (client : McpClient) : Except Failure Json.Value × McpClient :=
  let sent := { client with posts := client.posts + 1 }
  match replies client.posts with
  | .answered session body =>
    (parseResponse platform loads body,
      if expectSession then { sent with sessionId := session } else sent)
  | .httpError code =>
    if code = 401 then
      (.error (.cli ("broker rejected the transfer token (401); check ".toList ++
        "BROKER_TRANSFER_TOKEN against the /transfer surface token".toList)), sent)
    else (.error (.cli ("broker HTTP ".toList ++ decimal code)), sent)
  | .unreachable reason => (.error (.cli ("broker unreachable: ".toList ++ reason)), sent)
  | .broken exc => (.error (.escaped exc), sent)

/-- `call_tool`, which initializes a session first. -/
def McpClient.callTool (client : McpClient) : Except Failure Json.Value × McpClient :=
  match client.sessionId with
  | some _ => post platform loads replies false client
  | none =>
    match post platform loads replies true client with
    | (.ok _, client') => post platform loads replies false client'
    | (.error failure, client') => (.error failure, client')

def clientAfter : Nat → McpClient
  | 0 => ⟨none, 0⟩
  | calls + 1 => ((clientAfter calls).callTool platform loads replies).2

def answers (call : Nat) : Except Failure Json.Value :=
  ((clientAfter platform loads replies call).callTool platform loads replies).1

end Client

/-! ## Commands -/

inductive Transfer where
  | fetch (path : Text)
  | push (path : Text) (fromFile : Option Bytes) (force : Bool) (expectSize : Option Int)
      (expectSha : Option Text)
  | checkout (path : Text) (timeout : Int)
  | checkin (path : Text) (manifestSha : Option Text) (fromFile : Option Bytes)

section Commands

variable (platform : Platform) (instanceName : Text) (inv : Invocation)

/-- The read-back of a push: whatever is wrong with it, the exit code is the same. -/
def readBack (path : Text) (data : Bytes) : Run Outcome := do
  match ← Effect.attempt (do lift (readReply platform (← callTool inv (.read path)))) with
  | .ok back =>
    if platform.sha256 back ≠ platform.sha256 data then return exits EXIT_VERIFICATION
    else return ⟨EXIT_OK, some (.pushed (platform.sha256 data) data.length)⟩
  | .error (.cli _) => return exits EXIT_VERIFICATION
  | .error failure => Effect.raise failure

/-- The statuses of a write are told apart as those of a checkin are. None of the options
`--force`, `--expect-size` and `--expect-sha` is looked at. -/
def cmdPush (path : Text) (fromFile : Option Bytes) : Run Outcome := connected inv do
  match fromFile with
  | none => return exits EXIT_LOCAL
  | some data =>
    if !inv.lockFree then return exits EXIT_LOCAL
    else
      match ← lift (checkinStatus (← callTool inv (.write path data))) with
      | some code => return exits code
      | none => readBack platform inv path data

def transfer : Transfer → Run Outcome
  | .fetch path => cmdFetch platform instanceName inv path
  | .push path fromFile _ _ _ => cmdPush platform inv path fromFile
  | .checkout path timeout => cmdCheckout platform instanceName inv path timeout
  | .checkin path manifestSha fromFile => cmdCheckin platform inv path manifestSha fromFile

/-- A `str` that UTF-8 can encode. -/
def encodable (s : Json.Str) : Bool := s.all fun u => !Json.isHigh u && !Json.isLow u

/-- What is no `str` is printed by its `repr`, which is ASCII where UTF-8 has no encoding. -/
def printable : Json.Value → Bool
  | .str s => encodable s
  | _ => true

/-- The line has no other text of the broker's in it than the lock token. What the command line gave
is taken to be valid Unicode: the surrogates that `argv` has for other bytes are left out. -/
def Report.printable : Report → Bool
  | .checkedOut _ _ lockToken => Cli.printable lockToken
  | _ => true

/-- `print`, the last thing a command does. -/
def printed (outcome : Outcome) : Except Failure Outcome :=
  if outcome.report.all Report.printable then .ok outcome
  else .error (.escaped "UnicodeEncodeError".toList)

def runTransfer (t : Transfer) : Run Outcome := do
  let outcome ← catching (transfer platform instanceName inv t) pure
  lift (printed outcome)

end Commands

end AccessBroker.Cli
