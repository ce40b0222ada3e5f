import AccessBroker.Library.Logging

/-! # The broker's log

`setup_logging` gives the logger `broker` a handler and a filter that takes the
configured secrets out of the records.
-/

namespace AccessBroker.LoggingSetup
open Py Py.Logging
set_option autoImplicit false

structure SecretScrubFilter where
  secrets : List Text

def SecretScrubFilter.init (secrets : List Text) : SecretScrubFilter :=
  ⟨secrets.filter (· ≠ [])⟩

def scrub (secrets : List Text) (text : Text) : Text :=
  secrets.foldl (fun text secret =>
    if contains secret text then replace secret "[redacted]".toList text else text) text

/-- The message, once scrubbed, is what `getMessage` returns from then on. The traceback
moves into it when it has to be scrubbed, and stays beside it when that fails. -/
def SecretScrubFilter.filter (f : SecretScrubFilter) (record : LogRecord) : LogRecord :=
  match record.getMessage with
  | none => record
  | some message =>
    let scrubbed := scrub f.secrets message
    let record :=
      if scrubbed ≠ message then { record with msg := scrubbed, args := none } else record
    match record.excInfo with
    | none => record
    | some none =>
      { record with msg := scrubbed ++ " | (exc-scrub-failed)".toList, args := none }
    | some (some text) =>
      let clean := scrub f.secrets text
      if clean ≠ text then
        { record with
          excInfo := none
          msg := scrubbed ++ " | scrubbed-exc: ".toList ++ clean.drop (clean.length - 2000)
          args := none }
      else record

/-- What `filter` returns, with the record as it leaves it: no path returns `False`. -/
def SecretScrubFilter.call (f : SecretScrubFilter) (record : LogRecord) : Bool × LogRecord :=
  (true, f.filter record)

/-- The one handler there is. -/
inductive Handler where
  | stream
  deriving DecidableEq

abbrev BrokerLogger := Logger SecretScrubFilter Handler

def DEBUG : Nat := 10

def INFO : Nat := 20

def threshold (level : Text) : Nat :=
  if level.map Char.toLower = "debug".toList then DEBUG else INFO

def setupLogging (level : Text) (secrets : List Text) (logger : BrokerLogger) : BrokerLogger where
  level := threshold level
  filters := [.init secrets]
  handlers := if logger.handlers = [] then [.stream] else logger.handlers
  propagate := false

def brokerName : LoggerName := ["broker".toList]

/-- Every other logger is left as `getLogger` made it. -/
def loggers (broker : BrokerLogger) : Loggers SecretScrubFilter Handler := fun name =>
  if name = brokerName then broker else .plain

/-- The level and the secrets of each call of `setup_logging` so far. -/
def configured (setups : List (Text × List Text)) : BrokerLogger :=
  setups.foldl (fun logger setup => setupLogging setup.1 setup.2 logger) .plain

/-- `"%(asctime)s %(levelname)s %(name)s %(message)s"`. -/
def formatMessage (record : LogRecord) (message : Text) : Text :=
  record.asctime ++ ' ' :: (record.levelname ++ ' ' :: (record.name.dotted ++ ' ' :: message))

def emitted (report : LogRecord → Text) (setups : List (Text × List Text))
    (record : LogRecord) : List Text :=
  (log (fun f record => some (f.filter record)) (loggers (configured setups)) record).map
    fun received => emit formatMessage report received.2

end AccessBroker.LoggingSetup
