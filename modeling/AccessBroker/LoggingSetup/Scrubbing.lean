import AccessBroker.Library.Redaction
import AccessBroker.LoggingSetup

/-! # Which lines of the log are free of secrets

The filter cleans what is logged on `broker` itself. A record of a descendant
reaches the same handler as it was logged.
-/

namespace AccessBroker.LoggingSetup
open Py Py.Logging
set_option autoImplicit false

/-! ## Secrets and clean texts -/

/-- The fixed texts that scrubbing puts into a message. -/
def markers : List Text :=
  ["[redacted]".toList, " | scrubbed-exc: ".toList, " | (exc-scrub-failed)".toList]

structure Plain (secret : Text) : Prop where
  nonempty : secret ≠ []
  unopened : '[' ∉ secret
  unclosed : ']' ∉ secret
  unspaced : ∀ c ∈ secret, isSpace c = false
  unmarked : ∀ marker ∈ markers, contains secret marker = false

def Clean (secrets : List Text) (text : Text) : Prop :=
  ∀ secret ∈ secrets, contains secret text = false

instance (secrets : List Text) (text : Text) : Decidable (Clean secrets text) :=
  inferInstanceAs (Decidable (∀ secret ∈ secrets, contains secret text = false))

section Clean

variable {secrets : List Text} {report : LogRecord → Text} (hSecrets : ∀ secret ∈ secrets, Plain secret)

theorem Plain.apart {secret : Text} (h : Plain secret) : Apart "redacted".toList secret := by
  refine ⟨h.unopened, h.unclosed, fun hInfix => ?_⟩
  have hMarker := contains_eq_false_iff.mp (h.unmarked "[redacted]".toList (by simp [markers]))
  exact hMarker (hInfix.trans ⟨['['], [']'], by decide +kernel⟩)

include hSecrets

theorem clean_append_cons {before after : Text} {c : Char} (hSpace : isSpace c = true) :
    Clean secrets (before ++ c :: after) ↔ Clean secrets before ∧ Clean secrets after := by
  have hOne (secret : Text) (hSecret : secret ∈ secrets) :
      contains secret (before ++ c :: after) = false ↔
        contains secret before = false ∧ contains secret after = false := by
    have hc : c ∉ secret := fun hMem =>
      absurd ((hSecrets secret hSecret).unspaced c hMem) (by rw [hSpace]; decide)
    simp only [contains_eq_false_iff, infix_append_cons_iff hc, not_or]
  constructor
  · intro h
    exact ⟨fun secret hSecret => ((hOne secret hSecret).mp (h secret hSecret)).1,
      fun secret hSecret => ((hOne secret hSecret).mp (h secret hSecret)).2⟩
  · rintro ⟨hBefore, hAfter⟩ secret hSecret
    exact (hOne secret hSecret).mpr ⟨hBefore secret hSecret, hAfter secret hSecret⟩

theorem clean_nil : Clean secrets [] := by
  intro secret hSecret
  rw [contains_eq_false_iff]
  exact fun h => (hSecrets secret hSecret).nonempty (List.eq_nil_of_infix_nil h)

theorem clean_cons {after : Text} {c : Char} (hSpace : isSpace c = true) :
    Clean secrets (c :: after) ↔ Clean secrets after := by
  have hSplit : Clean secrets ([] ++ c :: after) ↔ Clean secrets [] ∧ Clean secrets after :=
    clean_append_cons hSecrets hSpace
  exact hSplit.trans (and_iff_right (clean_nil hSecrets))

omit hSecrets in
theorem Clean.of_infix {text part : Text} (h : Clean secrets text) (hPart : part <:+: text) :
    Clean secrets part := by
  intro secret hSecret
  have hWhole := contains_eq_false_iff.mp (h secret hSecret)
  exact contains_eq_false_iff.mpr fun hInfix => hWhole (hInfix.trans hPart)

theorem clean_markers {marker : Text} (h : marker ∈ markers) : Clean secrets marker :=
  fun secret hSecret => (hSecrets secret hSecret).unmarked marker h

/-! ## Scrubbing -/

omit hSecrets in
theorem scrub_eq_redact (secrets : List Text) (text : Text) :
    scrub secrets text = redact "redacted".toList secrets text :=
  (redact_eq_contained "redacted".toList secrets text).symm

theorem clean_scrub (text : Text) : Clean secrets (scrub secrets text) := by
  have hNonempty : [] ∉ secrets := fun hMem => (hSecrets [] hMem).nonempty rfl
  intro secret hSecret
  rw [scrub_eq_redact, contains_eq_false_iff]
  exact (hSecrets secret hSecret).apart.redacted hNonempty hSecret text

theorem init_secrets : (SecretScrubFilter.init secrets).secrets = secrets :=
  List.filter_eq_self.mpr fun secret hSecret =>
    decide_eq_true (hSecrets secret hSecret).nonempty

/-! ## Lines -/

theorem clean_addLine {text more : Text} :
    Clean secrets (addLine text more) ↔ Clean secrets text ∧ Clean secrets more := by
  unfold addLine
  split
  · rename_i hNil
    rw [hNil]
    exact (and_iff_left (clean_nil hSecrets)).symm
  split
  · rename_i hLast
    obtain ⟨body, rfl⟩ := List.getLast?_eq_some_iff.mp hLast
    rw [List.append_assoc, List.singleton_append, clean_append_cons hSecrets (by decide),
      clean_append_cons hSecrets (by decide)]
    exact and_congr (and_iff_left (clean_nil hSecrets)).symm Iff.rfl
  · exact clean_append_cons hSecrets (by decide)

theorem clean_chomp {text : Text} : Clean secrets (chomp text) ↔ Clean secrets text := by
  unfold chomp
  split
  · rename_i hLast
    obtain ⟨body, rfl⟩ := List.getLast?_eq_some_iff.mp hLast
    rw [List.dropLast_concat, clean_append_cons hSecrets (by decide)]
    exact (and_iff_left (clean_nil hSecrets)).symm
  · exact Iff.rfl

/-- What stands before the message, and after the traceback. -/
def surroundings (record : LogRecord) : List Text :=
  [record.asctime, record.levelname, record.name.dotted, record.stackInfo.getD []]

omit hSecrets in
theorem format_eq {record : LogRecord} {message : Text} {exc : Option Text}
    (hMessage : record.getMessage = some message) (hExc : record.excInfo = exc.map some) :
    format formatMessage record = some (addLine
      (addLine (formatMessage record message) (chomp (exc.getD []))) (record.stackInfo.getD [])) := by
  cases exc with
  | none => simp [format, hMessage, hExc, chomp, addLine]
  | some text => simp [format, hMessage, hExc]

theorem clean_emit {record : LogRecord} {message : Text} {exc : Option Text}
    (hMessage : record.getMessage = some message) (hExc : record.excInfo = exc.map some) :
    Clean secrets (emit formatMessage report record) ↔
      (∀ text ∈ surroundings record, Clean secrets text) ∧ Clean secrets message ∧
        Clean secrets (exc.getD []) := by
  have hSpace : isSpace ' ' = true := by decide
  rw [emit, format_eq hMessage hExc]
  dsimp only
  rw [clean_append_cons hSecrets (by decide), clean_addLine hSecrets, clean_addLine hSecrets,
    clean_chomp hSecrets, formatMessage, clean_append_cons hSecrets hSpace,
    clean_append_cons hSecrets hSpace, clean_append_cons hSecrets hSpace]
  simp only [surroundings, List.forall_mem_cons, List.not_mem_nil, false_imp_iff, implies_true,
    clean_nil hSecrets, and_true]
  tauto

/-! ## Filtering -/

omit hSecrets in
theorem scrubbed_record (record : LogRecord) {message : Text}
    (hMessage : record.getMessage = some message) {record' : LogRecord}
    (h : record' = if scrub secrets message ≠ message then
      { record with msg := scrub secrets message, args := none } else record) :
    record'.getMessage = some (scrub secrets message) ∧ record'.excInfo = record.excInfo ∧
      surroundings record' = surroundings record := by
  subst h
  split
  · exact ⟨rfl, rfl, rfl⟩
  · rename_i hSame
    exact ⟨by rw [hMessage, not_not.mp hSame], rfl, rfl⟩

theorem clean_inlined {message clean : Text} (hMessage : Clean secrets message)
    (hClean : Clean secrets clean) :
    Clean secrets (message ++ " | scrubbed-exc: ".toList ++ clean.drop (clean.length - 2000)) := by
  have hSpace : isSpace ' ' = true := by decide
  have hSpaces : " | scrubbed-exc: ".toList = ' ' :: ("| scrubbed-exc:".toList ++ [' ']) := by
    decide +kernel
  have hMarker : Clean secrets " | scrubbed-exc: ".toList :=
    clean_markers hSecrets (by simp [markers])
  rw [hSpaces, clean_cons hSecrets hSpace, clean_append_cons hSecrets hSpace] at hMarker
  rw [hSpaces, List.append_assoc, List.cons_append, List.append_assoc, List.singleton_append,
    clean_append_cons hSecrets hSpace, clean_append_cons hSecrets hSpace]
  exact ⟨hMessage, hMarker.1, hClean.of_infix (List.drop_suffix _ _).isInfix⟩

/-- The filter leaves a clean message, and a clean traceback if it leaves one. -/
theorem filter_clean {record : LogRecord} {message : Text} {exc : Option Text}
    (hMessage : record.getMessage = some message) (hExc : record.excInfo = exc.map some) :
    ∃ message' exc',
      ((SecretScrubFilter.init secrets).filter record).getMessage = some message' ∧
      ((SecretScrubFilter.init secrets).filter record).excInfo = Option.map some exc' ∧
      surroundings ((SecretScrubFilter.init secrets).filter record) = surroundings record ∧
      Clean secrets message' ∧ Clean secrets (exc'.getD []) := by
  unfold SecretScrubFilter.filter
  rw [hMessage, init_secrets hSecrets]
  dsimp only
  generalize hScrubbed : (if scrub secrets message ≠ message then
      { record with msg := scrub secrets message, args := none } else record) = record'
  obtain ⟨hMessage', hExc', hAround⟩ := scrubbed_record record hMessage hScrubbed.symm
  have hCleanMessage := clean_scrub hSecrets message
  cases exc with
  | none =>
    rw [hExc'.trans hExc]
    exact ⟨_, none, hMessage', hExc'.trans hExc, hAround, hCleanMessage, clean_nil hSecrets⟩
  | some text =>
    rw [hExc'.trans hExc]
    have hCleanText := clean_scrub hSecrets text
    dsimp only [Option.map_some]
    split
    · exact ⟨_, none, rfl, rfl, hAround, clean_inlined hSecrets hCleanMessage hCleanText,
        clean_nil hSecrets⟩
    · rename_i hSame
      rw [not_not.mp hSame] at hCleanText
      exact ⟨_, some text, hMessage', hExc'.trans hExc, hAround, hCleanMessage, hCleanText⟩

/-- A traceback that could not be formatted stays attached; the message tells of it. -/
theorem filter_unformatted {record : LogRecord} {message : Text}
    (hMessage : record.getMessage = some message) (hExc : record.excInfo = some none) :
    (SecretScrubFilter.init secrets).filter record =
      { record with
        msg := scrub secrets message ++ " | (exc-scrub-failed)".toList
        args := none } := by
  rw [SecretScrubFilter.filter, hMessage, init_secrets hSecrets]
  by_cases hSame : scrub secrets message ≠ message
  · simp only [if_pos hSame, hExc]
  · simp only [if_neg hSame, hExc]

theorem clean_unformatted {message : Text} (hMessage : Clean secrets message) :
    Clean secrets (message ++ " | (exc-scrub-failed)".toList) := by
  have hSpace : isSpace ' ' = true := by decide
  have hSpaces : " | (exc-scrub-failed)".toList = ' ' :: "| (exc-scrub-failed)".toList := by
    decide +kernel
  have hMarker : Clean secrets " | (exc-scrub-failed)".toList :=
    clean_markers hSecrets (by simp [markers])
  rw [hSpaces, clean_cons hSecrets hSpace] at hMarker
  rw [hSpaces, clean_append_cons hSecrets hSpace]
  exact ⟨hMessage, hMarker⟩

theorem clean_emit_filter {record : LogRecord} {message : Text} {exc : Option Text}
    (hMessage : record.getMessage = some message) (hExc : record.excInfo = exc.map some) :
    Clean secrets (emit formatMessage report ((SecretScrubFilter.init secrets).filter record)) ↔
      ∀ text ∈ surroundings record, Clean secrets text := by
  obtain ⟨message', exc', hMessage', hExc', hAround, hCleanMessage, hCleanExc⟩ :=
    filter_clean hSecrets hMessage hExc
  rw [clean_emit hSecrets hMessage' hExc', hAround]
  exact and_iff_left ⟨hCleanMessage, hCleanExc⟩

end Clean

/-- What is rendered of the record holds no secret. -/
structure Scrubbed (secrets : List Text) (record : LogRecord) : Prop where
  message : ∃ message, record.getMessage = some message ∧
    ∀ secret ∈ secrets, contains secret message = false
  traceback : ∀ text, record.excInfo = some (some text) →
    ∀ secret ∈ secrets, contains secret text = false

theorem filter_scrubbed {secrets : List Text} (hSecrets : ∀ secret ∈ secrets, Plain secret)
    {record : LogRecord} {message : Text} {exc : Option Text}
    (hMessage : record.getMessage = some message) (hExc : record.excInfo = exc.map some) :
    Scrubbed secrets ((SecretScrubFilter.init secrets).filter record) := by
  obtain ⟨message', exc', hMessage', hExc', _, hCleanMessage, hCleanExc⟩ :=
    filter_clean hSecrets hMessage hExc
  refine ⟨⟨message', hMessage', hCleanMessage⟩, fun text hText => ?_⟩
  rw [hExc'] at hText
  cases exc' with
  | none => cases hText
  | some text' =>
    cases hText
    exact hCleanExc

/-- The filter keeps every record whose message formats, and leaves no secret in it. -/
theorem filter_removes_secrets (secrets : List Text) (record : LogRecord) (message : Text)
    (hSecrets : ∀ secret ∈ secrets, Plain secret) (hMessage : record.getMessage = some message) :
    ((SecretScrubFilter.init secrets).call record).1 = true ∧
      Scrubbed secrets ((SecretScrubFilter.init secrets).call record).2 := by
  refine ⟨rfl, ?_⟩
  dsimp only [SecretScrubFilter.call]
  match hExc : record.excInfo with
  | none => exact @filter_scrubbed secrets hSecrets record message none hMessage hExc
  | some (some exc) => exact @filter_scrubbed secrets hSecrets record message (some exc) hMessage hExc
  | some none =>
    rw [filter_unformatted hSecrets hMessage hExc]
    refine ⟨⟨_, rfl, clean_unformatted hSecrets (clean_scrub hSecrets message)⟩, fun text hText => ?_⟩
    rw [hExc] at hText
    cases hText

/-! ## The tree of loggers -/

theorem configured_concat (setups : List (Text × List Text)) (level : Text)
    (secrets : List Text) :
    configured (setups ++ [(level, secrets)]) =
      ⟨threshold level, [.init secrets], [.stream], false⟩ := by
  have hHandlers : (configured setups).handlers = [] ∨ (configured setups).handlers = [.stream] := by
    induction setups using List.reverseRecOn with
    | nil => exact Or.inl rfl
    | append_singleton setups setup ih =>
      rw [configured, List.foldl_concat]
      rcases ih with ih | ih
      · exact Or.inr (if_pos ih)
      · refine Or.inr ((if_neg ?_).trans ih)
        exact fun hNil => absurd (ih.symm.trans hNil) (by decide)
  rw [configured, List.foldl_concat, setupLogging]
  congr 1
  rcases hHandlers with hNil | hStream
  · exact if_pos hNil
  · exact (if_neg fun hNil => absurd (hStream.symm.trans hNil) (by decide)).trans hStream

section Tree

variable {broker : BrokerLogger} {above : LoggerName}

theorem loggers_broker : loggers broker brokerName = broker := if_pos rfl

theorem loggers_above (hAbove : above ≠ []) : loggers broker (above ++ brokerName) = .plain := by
  refine if_neg fun h => hAbove ?_
  exact List.append_left_eq_self.mp h

theorem effectiveLevel_above (hLevel : broker.level ≠ 0) :
    effectiveLevel (loggers broker) (above ++ brokerName) = broker.level := by
  induction above with
  | nil =>
    rw [List.nil_append, brokerName, effectiveLevel]
    exact if_pos hLevel
  | cons child parent ih =>
    have hPlain : loggers broker (child :: parent ++ brokerName) = .plain :=
      loggers_above (List.cons_ne_nil child parent)
    rw [List.cons_append] at hPlain ⊢
    rw [effectiveLevel, hPlain]
    exact ih

theorem receivers_above (hPropagate : broker.propagate = false) :
    receivers (loggers broker) (above ++ brokerName) = broker.handlers := by
  induction above with
  | nil =>
    rw [List.nil_append, brokerName, receivers]
    change broker.handlers ++ (if broker.propagate then _ else []) = broker.handlers
    rw [hPropagate]
    exact List.append_nil _
  | cons child parent ih =>
    have hPlain : loggers broker (child :: parent ++ brokerName) = .plain :=
      loggers_above (List.cons_ne_nil child parent)
    rw [List.cons_append] at hPlain ⊢
    rw [receivers, hPlain]
    exact ih

end Tree

/-- The broker's handler emits every record that is logged on `broker` or below it, and only
those that are logged on `broker` itself were filtered. -/
theorem emitted_eq {report : LogRecord → Text} {setups : List (Text × List Text)} {level : Text}
    {secrets : List Text} {record : LogRecord} (hName : brokerName <:+ record.name) :
    emitted report (setups ++ [(level, secrets)]) record =
      if record.levelno < threshold level then []
      else [emit formatMessage report (if record.name = brokerName then
        (SecretScrubFilter.init secrets).filter record else record)] := by
  obtain ⟨above, hAbove⟩ := hName
  have hLevel : threshold level ≠ 0 := by
    unfold threshold
    split <;> decide
  rw [emitted, configured_concat, log, ← hAbove, effectiveLevel_above hLevel, receivers_above rfl]
  split
  · rfl
  by_cases hSelf : above = []
  · subst hSelf
    rw [List.nil_append, loggers_broker, if_pos rfl]
    rfl
  · rw [loggers_above hSelf, if_neg fun h => hSelf (List.append_left_eq_self.mp h)]
    rfl

/-! ## Which lines are clean -/

/-- The library's own report on a record that cannot be formatted. -/
def Reported (report : LogRecord → Text) (secrets : List Text) (record : LogRecord)
    (message : Text) : Prop :=
  Clean secrets (report (if record.name = brokerName then
    { record with msg := scrub secrets message ++ " | (exc-scrub-failed)".toList, args := none }
    else record))

/-- No secret stands around the message; and the record is logged on `broker` itself, or
neither its message nor its traceback holds a secret. -/
structure Harmless (secrets : List Text) (record : LogRecord) (message exc : Text) : Prop where
  around : ∀ text ∈ surroundings record, Clean secrets text
  inside : record.name = brokerName ∨ Clean secrets message ∧ Clean secrets exc

def Safe (report : LogRecord → Text) (level : Text) (secrets : List Text)
    (record : LogRecord) : Prop :=
  record.levelno < threshold level ∨
    match record.getMessage, record.excInfo with
    | none, _ => Clean secrets (report record)
    | some message, none => Harmless secrets record message []
    | some message, some (some exc) => Harmless secrets record message exc
    | some message, some none => Reported report secrets record message

def handed (secrets : List Text) (record : LogRecord) : LogRecord :=
  if record.name = brokerName then (SecretScrubFilter.init secrets).filter record else record

theorem emit_unrendered {report : LogRecord → Text} {secrets : List Text} {record : LogRecord}
    (hMessage : record.getMessage = none) :
    emit formatMessage report (handed secrets record) = report record := by
  have hFiltered : (SecretScrubFilter.init secrets).filter record = record := by
    rw [SecretScrubFilter.filter, hMessage]
  rw [handed, hFiltered, ite_self, emit, format, hMessage]
  rfl

theorem clean_emit_handed {report : LogRecord → Text} {secrets : List Text}
    (hSecrets : ∀ secret ∈ secrets, Plain secret) {record : LogRecord} {message : Text}
    (exc : Option Text) (hMessage : record.getMessage = some message)
    (hExc : record.excInfo = exc.map some) :
    Clean secrets (emit formatMessage report (handed secrets record)) ↔
      Harmless secrets record message (exc.getD []) := by
  rw [handed]
  split
  · rename_i hSelf
    rw [clean_emit_filter hSecrets hMessage hExc]
    exact ⟨fun h => ⟨h, Or.inl hSelf⟩, Harmless.around⟩
  · rename_i hBelow
    rw [clean_emit hSecrets hMessage hExc]
    exact ⟨fun h => ⟨h.1, Or.inr h.2⟩, fun h => ⟨h.around, h.inside.resolve_left hBelow⟩⟩

theorem clean_emit_reported {report : LogRecord → Text} {secrets : List Text}
    (hSecrets : ∀ secret ∈ secrets, Plain secret) {record : LogRecord} {message : Text}
    (hMessage : record.getMessage = some message) (hExc : record.excInfo = some none) :
    Clean secrets (emit formatMessage report (handed secrets record)) ↔
      Reported report secrets record message := by
  have hUnformatted (other : LogRecord) (hOther : other.excInfo = some none) :
      emit formatMessage report other = report other := by
    have hFormat : format formatMessage other = none := by
      cases hRendered : other.getMessage <;> simp [format, hRendered, hOther]
    rw [emit, hFormat]
  rw [handed, Reported]
  split
  · rw [filter_unformatted hSecrets hMessage hExc]
    exact Iff.of_eq (congrArg (Clean secrets) (hUnformatted _ hExc))
  · rw [hUnformatted _ hExc]

/-- Exactly the records that are safe by what they hold, or by being logged on `broker`
itself, leave no configured secret in what the broker's handler emits. -/
theorem line_scrubbed_iff (report : LogRecord → Text) (setups : List (Text × List Text))
    (level : Text) (secrets : List Text) (record : LogRecord)
    (hSecrets : ∀ secret ∈ secrets, Plain secret) (hName : brokerName <:+ record.name) :
    (∀ text ∈ emitted report (setups ++ [(level, secrets)]) record,
      ∀ secret ∈ secrets, contains secret text = false) ↔ Safe report level secrets record := by
  rw [emitted_eq hName, Safe]
  split
  · rename_i hLevel
    simp [hLevel]
  rename_i hLevel
  rw [or_iff_right hLevel, List.forall_mem_singleton]
  change Clean secrets (emit formatMessage report (handed secrets record)) ↔ _
  cases hMessage : record.getMessage with
  | none => rw [emit_unrendered hMessage]
  | some message =>
    match hExc : record.excInfo with
    | none => exact clean_emit_handed hSecrets none hMessage hExc
    | some none => exact clean_emit_reported hSecrets hMessage hExc
    | some (some exc) => exact clean_emit_handed hSecrets (some exc) hMessage hExc

/-- A token, and a record of the bot's logger that quotes it. -/
def quotedToken : Text := "hunter2".toList

def botRecord : LogRecord where
  name := ["matrixbot".toList, "broker".toList]
  levelno := INFO
  levelname := "INFO".toList
  asctime := "2024-01-01 00:00:00,000".toList
  msg := "sync failed: ".toList ++ quotedToken
  args := none
  excInfo := none
  stackInfo := none

/-- Secrets that overlap and hold one another are taken out of message and traceback. -/
theorem filter_removes_secrets_overlapping :
    let secrets := ["hunter2".toList, "unter".toList, "r2d2".toList]
    let record := { botRecord with excInfo := some (some "hunter2d2: hr2d2".toList) }
    ((SecretScrubFilter.init secrets).call record).1 = true ∧
      Scrubbed secrets ((SecretScrubFilter.init secrets).call record).2 := by
  refine filter_removes_secrets _ _ ("sync failed: ".toList ++ quotedToken) ?_ rfl
  simp only [List.forall_mem_cons]
  refine ⟨?_, ?_, ?_, fun _ h => absurd h List.not_mem_nil⟩ <;>
    exact ⟨by decide +kernel, by decide +kernel, by decide +kernel,
      List.forall_iff_forall_mem.mp (by decide +kernel), by decide +kernel⟩

theorem bot_line_unscrubbed :
    ∃ text ∈ emitted (fun _ => []) [("info".toList, [quotedToken])] botRecord,
      contains quotedToken text = true := by decide +kernel

theorem line_scrubbed_iff_quoted :
    (∀ text ∈ emitted (fun _ => []) [("info".toList, [quotedToken])]
        { botRecord with name := brokerName },
      ∀ secret ∈ [quotedToken], contains secret text = false) ∧
    ¬∀ text ∈ emitted (fun _ => []) [("info".toList, [quotedToken])] botRecord,
      ∀ secret ∈ [quotedToken], contains secret text = false := by
  have hPlain : ∀ secret ∈ [quotedToken], Plain secret := by
    rw [List.forall_mem_singleton]
    exact ⟨by decide +kernel, by decide +kernel, by decide +kernel,
      List.forall_iff_forall_mem.mp (by decide +kernel), by decide +kernel⟩
  constructor
  · refine (line_scrubbed_iff (fun _ => []) [] "info".toList [quotedToken] _ hPlain
      List.suffix_rfl).mpr (Or.inr ⟨?_, Or.inl rfl⟩)
    decide +kernel
  · intro hClean
    rcases (line_scrubbed_iff (fun _ => []) [] "info".toList [quotedToken] botRecord hPlain
      ⟨["matrixbot".toList], rfl⟩).mp hClean with hLevel | hSafe
    · exact absurd hLevel (by decide +kernel)
    · rcases Harmless.inside hSafe with hSelf | ⟨hMessage, _⟩
      · exact absurd hSelf (by decide +kernel)
      · exact absurd hMessage (by decide +kernel)

end AccessBroker.LoggingSetup
