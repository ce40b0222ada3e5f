import AccessBroker.Library.Text

/-! # Python logging

Loggers form a tree by their dotted names. A logger's filters see the records
that are logged on it; the handlers of its ancestors see them too, as far up as
the loggers propagate.
-/

namespace Py.Logging
set_option autoImplicit false

/-- The components of a dotted name, the innermost first. -/
abbrev LoggerName := List Text

def LoggerName.dotted (name : LoggerName) : Text := ['.'].intercalate name.reverse

/-- `args` is what `%` with the arguments makes of a text, or fails to; the traceback in
`excInfo` is missing when it cannot be formatted. -/
structure LogRecord where
  name : LoggerName
  levelno : Nat
  levelname : Text
  asctime : Text
  msg : Text
  args : Option (Text → Option Text)
  excInfo : Option (Option Text)
  stackInfo : Option Text

def LogRecord.getMessage (record : LogRecord) : Option Text :=
  match record.args with
  | none => some record.msg
  | some render => render record.msg

structure Logger (φ η : Type) where
  level : Nat
  filters : List φ
  handlers : List η
  propagate : Bool

/-- As `getLogger` makes it. -/
def Logger.plain {φ η : Type} : Logger φ η := ⟨0, [], [], true⟩

abbrev Loggers (φ η : Type) := LoggerName → Logger φ η

section Tree

variable {φ η : Type} (apply : φ → LogRecord → Option LogRecord) (loggers : Loggers φ η)

/-- The level of the nearest ancestor that has one. -/
def effectiveLevel : LoggerName → Nat
  | [] => (loggers []).level
  | child :: parent =>
    let level := (loggers (child :: parent)).level
    if level ≠ 0 then level else effectiveLevel parent

/-- `callHandlers`. -/
def receivers : LoggerName → List η
  | [] => (loggers []).handlers
  | child :: parent =>
    let logger := loggers (child :: parent)
    logger.handlers ++ if logger.propagate then receivers parent else []

/-- The handlers that receive a record, with the record they receive. -/
def log (record : LogRecord) : List (η × LogRecord) :=
  if record.levelno < effectiveLevel loggers record.name then []
  else
    match (loggers record.name).filters.foldlM (fun record f => apply f record) record with
    | none => []
    | some filtered => (receivers loggers record.name).map (·, filtered)

end Tree

/-! ## Formatting -/

/-- Text on a line of its own. -/
def addLine (text more : Text) : Text :=
  if more = [] then text
  else if text.getLast? = some '\n' then text ++ more
  else text ++ '\n' :: more

/-- `formatException`: the traceback without its last line break. -/
def chomp (text : Text) : Text := if text.getLast? = some '\n' then text.dropLast else text

/-- `Formatter.format`; `formatMessage` puts the format's fields together. -/
def format (formatMessage : LogRecord → Text → Text) (record : LogRecord) : Option Text := do
  let line := formatMessage record (← record.getMessage)
  let line ← match record.excInfo with
    | none => some line
    | some none => none
    | some (some text) => some (addLine line (chomp text))
  return addLine line (record.stackInfo.getD [])

/-- `StreamHandler.emit`; what cannot be formatted is reported instead. -/
def emit (formatMessage : LogRecord → Text → Text) (report : LogRecord → Text)
    (record : LogRecord) : Text :=
  match format formatMessage record with
  | some line => line ++ ['\n']
  | none => report record

end Py.Logging
