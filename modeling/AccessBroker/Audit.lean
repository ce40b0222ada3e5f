import AccessBroker.Library.Effect
import AccessBroker.Library.Json.Documents
import AccessBroker.Library.Scan

/-! # The audit log

The append-only, hash-chained log and its checkpoint sidecar. The hash is a
parameter, and so is the conversion of floats, which only lines that somebody
else wrote can hold. The operating system decides at each write how far it gets.
-/

namespace AccessBroker.Audit
open Py Json
set_option autoImplicit false

def GENESIS : Text := List.replicate 64 '0'

def chainedFields : List Text :=
  ["timestamp".toList, "instance".toList, "path".toList, "operation".toList, "grant_id".toList,
    "decision".toList, "reason".toList, "principal".toList]

/-- The log file and its `.head` sidecar; `none` is a file that does not exist. -/
structure Files where
  log : Option Text
  head : Option Text
  deriving DecidableEq

/-- How one write to a file ends. A failing one has put a part of the text there. -/
inductive Write where
  | completes
  | notOpened (exc : Text)
  | fails (written : Nat) (exc : Text)
  deriving DecidableEq

def Write.failure : Write → Option Text
  | completes => none
  | notOpened exc => some exc
  | fails _ exc => some exc

/-- `open(path, "a")` and a write. -/
def Write.append (text : Text) (file : Option Text) : Write → Option Text
  | completes => some (file.getD [] ++ text)
  | notOpened _ => file
  | fails written _ => some (file.getD [] ++ text.take written)

/-- `open(path, "w")` and a write. -/
def Write.replace (text : Text) (file : Option Text) : Write → Option Text
  | completes => some text
  | notOpened _ => file
  | fails written _ => some (text.take written)

/-- The causes of `LogWriteError`. -/
inductive LogWriteError where
  | injected
  | appendFailed (exc : Text)
  | checkpointFailed (exc : Text)
  | tailUnreadable
  deriving DecidableEq

inductive AuditError where
  | logWriteError (cause : LogWriteError)
  | secretInField
  | integerTooLong
  /-- The last line is a document that has no keys. -/
  | notSubscriptable
  deriving DecidableEq

def LogWriteError.message (path : Text) : LogWriteError → Text
  | injected => "injected write failure".toList
  | appendFailed exc => "audit write failed: ".toList ++ exc
  | checkpointFailed exc => "audit checkpoint write failed: ".toList ++ exc
  | tailUnreadable =>
    "audit log tail unreadable at ".toList ++ path ++
      ": verify and resolve before continuing".toList

/-- The writer in memory. The digest it recovers from a file can be any value. -/
structure AuditLog where
  secrets : List Text
  prevSha256 : Value
  lines : Nat

structure AuditState where
  writer : AuditLog
  files : Files

/-- The arguments of one `record` call. -/
structure Entry where
  instanceName : Text
  path : Text
  operation : Text
  grantId : Option Int
  decision : Text
  reason : Text
  principal : Option Text
  failInject : Bool
  deriving DecidableEq

def nullable (value : Option Value) : Value := value.getD .null

section Hash

variable (sha256 : Text → Text) (floats : FloatFormat)

def chainPayload (record : Dict) : Text := dumps (.obj (record.restrict chainedFields))

def digest (record : Dict) : Text := sha256 (chainPayload record)

/-! ## Opening -/

def loadLastHash : Option Text → Except AuditError (Value × Nat)
  | none => .ok (.ofText GENESIS, 0)
  | some raw =>
    match (nonblankLines raw).getLast? with
    | none => .ok (.ofText GENESIS, 0)
    | some last =>
      match loads floats last with
      | none => .error (.logWriteError .tailUnreadable)
      | some (.obj record) =>
        match Dict.get? record "sha256".toList with
        | none => .error (.logWriteError .tailUnreadable)
        | some sha => .ok (sha, (nonblankLines raw).length)
      | some _ => .error .notSubscriptable

def AuditLog.open (secrets : List Text) (files : Files) : Except AuditError AuditLog := do
  let (prev, lines) ← loadLastHash floats files.log
  return ⟨secrets.filter (· ≠ []), prev, lines⟩

/-! ## Recording -/

def checkSecrets (log : AuditLog) (e : Entry) : Bool :=
  [e.instanceName, e.path, e.operation, e.decision, e.reason].any fun value =>
    log.secrets.any fun secret => contains secret value

/-- The entry as a dict, before the chain fields. -/
def entryRecord (timestamp : Text) (e : Entry) : Dict :=
  let entry := Dict.ofPairs [
    (codes "timestamp".toList, .ofText timestamp),
    (codes "instance".toList, .ofText e.instanceName),
    (codes "path".toList, .ofText e.path),
    (codes "operation".toList, .ofText e.operation),
    (codes "grant_id".toList, nullable (e.grantId.map .int)),
    (codes "decision".toList, .ofText e.decision),
    (codes "reason".toList, .ofText e.reason)]
  match e.principal with
  | none => entry
  | some principal => entry.set (codes "principal".toList) (.ofText principal)

def lineRecord (prev : Value) (timestamp : Text) (e : Entry) : Dict :=
  let entry := entryRecord timestamp e
  (entry.set (codes "prev_sha256".toList) prev).set (codes "sha256".toList)
    (.ofText (digest sha256 entry))

def headRecord (sha : Value) (lines : Nat) : Dict :=
  Dict.ofPairs [(codes "sha256".toList, sha), (codes "lines".toList, .int lines)]

/-- The integers `json` refuses to print. -/
def tooLong (n : Int) : Bool := maxIntDigits < (Nat.toDigits 10 n.natAbs).length

def recordLine (prev : Value) (timestamp : Text) (e : Entry) : Text :=
  dumps (.obj (lineRecord sha256 prev timestamp e)) ++ ['\n']

/-- What is printed into the opened sidecar; an unprintable count leaves it empty. -/
def headText (sha : Value) (lines : Nat) : Text :=
  if tooLong lines then [] else dumps (.obj (headRecord sha lines)) ++ ['\n']

def AuditLog.advance (log : AuditLog) (sha : Value) : AuditLog :=
  { log with prevSha256 := sha, lines := log.lines + 1 }

def record (timestamp : Text) (e : Entry) (append checkpoint : Write) :
    Effect AuditState AuditError Unit := do
  let log := (← Effect.get).writer
  if checkSecrets log e then Effect.raise .secretInField
  else if e.grantId.any tooLong then Effect.raise .integerTooLong
  else if e.failInject then Effect.raise (.logWriteError .injected)
  else
    let sha := Value.ofText (digest sha256 (entryRecord timestamp e))
    let line := recordLine sha256 log.prevSha256 timestamp e
    Effect.modify fun s => { s with files.log := append.append line s.files.log }
    match append.failure with
    | some exc => Effect.raise (.logWriteError (.appendFailed exc))
    | none =>
      Effect.modify fun s => { s with writer := s.writer.advance sha }
      let head := headText sha (log.lines + 1)
      Effect.modify fun s => { s with files.head := checkpoint.replace head s.files.head }
      match checkpoint.failure with
      | some exc => Effect.raise (.logWriteError (.checkpointFailed exc))
      | none => if tooLong (log.lines + 1) then Effect.raise .integerTooLong else return ()

/-! ## Verifying -/

inductive LineFault where
  | notJson
  | prevMismatch
  | hashMismatch
  deriving DecidableEq

/-- How the walk stops at a line: a reported fault, or the attribute error of a
document that is no dict. -/
inductive Stop where
  | fault (fault : LineFault)
  | attributeError
  deriving DecidableEq

def isText (value : Option Value) (t : Text) : Bool :=
  match value with
  | some (.str s) => s == codes t
  | _ => false

def equalsNat (value : Option Value) (n : Nat) : Bool :=
  match value with
  | some (.int k) => k == n
  | some (.bool b) => n == if b then 1 else 0
  | some (.float repr) => floats.asInt repr == some (n : Int)
  | _ => false

/-- One line of the walk: from the digest of the line before to its own. -/
def checkLine (prev line : Text) : Except Stop Text :=
  match loads floats line with
  | none => .error (.fault .notJson)
  | some (.obj record) =>
    if isText (Dict.get? record "prev_sha256".toList) prev = false then .error (.fault .prevMismatch)
    else if isText (Dict.get? record "sha256".toList) (digest sha256 record) = false then
      .error (.fault .hashMismatch)
    else .ok (digest sha256 record)
  | some _ => .error .attributeError

def walk (lines : List Text) : Except (Nat × Stop) Text :=
  Scan.scan (checkLine sha256 floats) GENESIS 1 lines

inductive ChainError where
  | noSuchFile
  | line (number : Nat) (fault : LineFault)
  | checkpointUnreadable
  | checkpointMismatch
  | lineCount (recorded : Option Value) (actual : Nat)

def LineFault.message : LineFault → Text
  | notJson => "not valid JSON".toList
  | prevMismatch => "chain break (prev mismatch)".toList
  | hashMismatch => "record hash mismatch (edited?)".toList

def ChainError.message (path : Text) (str : Option Value → Text) : ChainError → Text
  | noSuchFile => "no such file: ".toList ++ path
  | line number fault => "line ".toList ++ decimal number ++ ": ".toList ++ fault.message
  | checkpointUnreadable => "checkpoint unreadable".toList
  | checkpointMismatch => "checkpoint mismatch: log truncated or checkpoint tampered".toList
  | lineCount recorded actual =>
    "checkpoint line count ".toList ++ str recorded ++ " != actual ".toList ++ decimal actual ++
      " (truncated?)".toList

structure ChainResult where
  ok : Bool
  error : Option ChainError
  lines : Nat

inductive VerifyError where
  | attributeError

def checkHead (prev : Text) (count : Nat) : Option Text → Except VerifyError ChainResult
  | none => .ok ⟨true, none, count⟩
  | some raw =>
    match loads floats (strip raw) with
    | none => .ok ⟨false, some .checkpointUnreadable, 0⟩
    | some (.obj head) =>
      if isText (Dict.get? head "sha256".toList) prev = false then
        .ok ⟨false, some .checkpointMismatch, 0⟩
      else if equalsNat floats (Dict.get? head "lines".toList) count = false then
        .ok ⟨false, some (.lineCount (Dict.get? head "lines".toList) count), 0⟩
      else .ok ⟨true, none, count⟩
    | some _ => .error .attributeError

def verifyChain (files : Files) : Except VerifyError ChainResult :=
  match files.log with
  | none => .ok ⟨false, some .noSuchFile, 0⟩
  | some raw =>
    match walk sha256 floats (nonblankLines raw) with
    | .error (_, .attributeError) => .error .attributeError
    | .error (number, .fault fault) => .ok ⟨false, some (.line number fault), number⟩
    | .ok prev => checkHead floats prev (nonblankLines raw).length files.head

/-- `verify_chain(path).ok` is `True`. -/
def accepts (files : Files) : Bool :=
  match verifyChain sha256 floats files with
  | .ok result => result.ok
  | .error _ => false

theorem accepts_of_verify {files : Files} {result : ChainResult}
    (h : verifyChain sha256 floats files = .ok result) :
    accepts sha256 floats files = result.ok := by rw [accepts, h]

end Hash

end AccessBroker.Audit
