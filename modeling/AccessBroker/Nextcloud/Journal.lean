import AccessBroker.Audit.Runs
import AccessBroker.Library.Embedding
import AccessBroker.Library.Simulation
import AccessBroker.Nextcloud.Verbs

/-! # The log behind the operations

The operations drive the audit log as a process of its own: each record they take is a call of
the process, and between the records they leave it alone.
-/

namespace AccessBroker.Nextcloud
open Py Paths Grants Audit
set_option autoImplicit false

/-! ## What a trace says of the log -/

def Event.entry? : Event → Option Entry
  | .appended entry _ => some entry
  | _ => none

def Event.attempt? : Event → Option Entry
  | .appended entry _ | .appendFailed entry _ => some entry
  | _ => none

def Event.verb? : Event → Option (Text × Verb)
  | .verb instanceName call => some (instanceName, call)
  | _ => none

def IsLine (sha256 : Text → Text) (entry : Entry) (line : Text) : Prop :=
  ∃ prev stamp, line = recordLine sha256 prev stamp entry

/-- The process has these files and this writer. Every record the trace has as completed is a
line of its log, in order, and every line is one the trace knows of. -/
structure Journal (sha256 : Text → Text) (files : Files) (writer : Option AuditLog)
    (trace : List Event) (p : Process) : Prop where
  files : p.files = files
  writer : p.writer = writer
  kept : List.SublistForall₂ (IsLine sha256) (trace.filterMap Event.entry?) p.appended
  told : List.SublistForall₂ (fun line entry => IsLine sha256 entry line) p.appended
    (trace.filterMap Event.attempt?)

def callAt (env : Environment) (k : Nat) (entry : Entry) : Call :=
  ⟨env.stamp k, entry, (env.writes k).1, (env.writes k).2⟩

def From (env : Environment) : Audit.Act → Prop
  | .record call => ∃ k entry, call = callAt env k entry
  | .crash _ => False
  | .restart => True

section Rule

variable {platform : Platform} {layer : Layer} {db : Database} {env : Environment}
variable {floats : Json.FloatFormat} {instanceName : Text} {M : World → Process → Prop}

/-- A relation of worlds to processes that only records touch, each as a call. -/
structure Keeping (platform : Platform) (env : Environment) (M : World → Process → Prop) :
    Prop where
  quiet : ∀ w w' events p, M w p → w'.audit = w.audit → w'.trace = w.trace ++ events →
    (∀ event ∈ events, event.attempt? = none) → M w' p
  record : ∀ w p s entry, M w p → w.audit = some s →
    M ((auditRecord platform env s entry).run w).2 (p.call platform.sha256 (callAt env w.asked entry))

/-- Whatever process is behind `w`, a run of records takes it to one behind `w'`. -/
def Driven (platform : Platform) (env : Environment) (floats : Json.FloatFormat)
    (M : World → Process → Prop) (w w' : World) : Prop :=
  ∀ p, M w p → ∃ acts, (∀ act ∈ acts, From env act) ∧
    M w' (Machine.run (Process.step platform.sha256 floats []) p acts)

instance : Std.Refl (Driven platform env floats M) where
  refl _ p hp := ⟨[], by simp, hp⟩

instance : IsTrans World (Driven platform env floats M) where
  trans w w' w'' h h' p hp := by
    obtain ⟨acts, hActs, hNext⟩ := h p hp
    obtain ⟨more, hMore, hEnd⟩ := h' _ hNext
    refine ⟨acts ++ more, fun act hAct => ?_, ?_⟩
    · exact (List.mem_append.mp hAct).elim (hActs act) (hMore act)
    · rwa [Machine.run_append]

namespace Keeping

theorem quietly (hM : Keeping platform env M) {w w' : World} {events : List Event}
    (hAudit : w'.audit = w.audit) (hTrace : w'.trace = w.trace ++ events)
    (hQuiet : ∀ event ∈ events, event.attempt? = none) : Driven platform env floats M w w' :=
  fun p hp => ⟨[], by simp, hM.quiet w w' events p hp hAudit hTrace hQuiet⟩

theorem now (hM : Keeping platform env M) :
    Effect.Along (Driven platform env floats M) (now env) :=
  fun _ => hM.quietly rfl (List.append_nil _).symm (by simp)

theorem recorded (hM : Keeping platform env M) {w : World} {s : AuditState}
    (hAudit : w.audit = some s) (entry : Entry) :
    Driven platform env floats M w ((auditRecord platform env s entry).run w).2 := by
  intro p hp
  refine ⟨[.record (callAt env w.asked entry)], ?_, hM.record w p s entry hp hAudit⟩
  intro act hAct
  rw [List.mem_singleton.mp hAct]
  exact ⟨w.asked, entry, rfl⟩

theorem auditRefusal (hM : Keeping platform env M) (path operation reason : Text) :
    Effect.Along (Driven platform env floats M)
      (auditRefusal platform layer env instanceName path operation reason) := by
  intro w
  rw [Nextcloud.auditRefusal, Effect.bind_ok (Effect.get_run w)]
  cases hAudit : w.audit with
  | none => exact Std.Refl.refl w
  | some s =>
    have hRecorded : Driven platform env floats M w _ :=
      hM.recorded hAudit (refusedEntry layer instanceName path operation reason)
    dsimp only
    rcases hRun : (auditRecord platform env s _).run w with ⟨err | _, w'⟩
    · rw [Effect.handle_error hRun]
      rwa [hRun] at hRecorded
    · rw [Effect.handle_ok hRun]
      rwa [hRun] at hRecorded

theorem wall (hM : Keeping platform env M) (norm mode : Text) :
    Effect.Along (Driven platform env floats M) (wall layer db env instanceName norm mode) := by
  refine .bind hM.now fun _ => .bind hM.now fun _ => .bind (fun w => ?_) fun _ => .pure _
  refine hM.quietly rfl rfl fun event hEvent => ?_
  rw [List.mem_singleton.mp hEvent]
  rfl

theorem authorized (hM : Keeping platform env M) (path mode : Text) :
    Effect.Along (Driven platform env floats M)
      (authorized platform layer db env instanceName path mode) := by
  rw [Nextcloud.authorized]
  split
  · exact .bind (hM.auditRefusal _ _ _) fun _ => .raise _
  · split
    · exact .bind (hM.auditRefusal _ _ _) fun _ => .raise _
    · refine .bind (hM.wall _ _) fun decision => ?_
      split
      · exact .pure _
      · exact .bind (hM.auditRefusal _ _ _) fun _ => .raise _

theorem called (hM : Keeping platform env M) (call : Verb) :
    Effect.Along (Driven platform env floats M)
      (scrubErrors layer instanceName (callVerb env instanceName call)) := by
  intro w
  obtain ⟨result, hRun⟩ := callVerb_run layer env instanceName call w
  rw [hRun]
  refine hM.quietly rfl rfl fun event hEvent => ?_
  rw [List.mem_singleton.mp hEvent]
  rfl

theorem auditAnd (hM : Keeping platform env M) (path operation reason : Text) (call : Verb)
    (principal : Option Text) :
    Effect.Along (Driven platform env floats M)
      (auditAnd platform layer env instanceName path operation reason call principal) := by
  intro w
  rw [Nextcloud.auditAnd, Effect.bind_ok (Effect.get_run w)]
  cases hAudit : w.audit with
  | none => exact hM.called call w
  | some s =>
    have hRecorded : Driven platform env floats M w _ :=
      hM.recorded hAudit (allowedEntry layer instanceName path operation reason principal)
    dsimp only
    rcases hRun : (auditRecord platform env s _).run w with ⟨err | _, w'⟩
    · rw [Effect.bind_error hRun]
      rwa [hRun] at hRecorded
    · rw [Effect.bind_ok hRun]
      rw [hRun] at hRecorded
      exact IsTrans.trans w w' _ hRecorded (hM.called call w')

theorem list (hM : Keeping platform env M) (path : Text) :
    Effect.Along (Driven platform env floats M)
      (list platform layer db env instanceName path) := by
  rw [Nextcloud.list]
  split
  · exact .raise _
  split
  · exact .raise _
  split
  · exact hM.auditAnd _ _ _ _ _
  · refine .bind (.bind (hM.wall _ _) fun decision => ?_) fun _ => hM.auditAnd _ _ _ _ _
    split
    · exact .pure _
    · exact .raise _

/-- The rule for whole operations. -/
theorem run (hM : Keeping platform env M) (op : Operation) :
    Effect.Along (Driven platform env floats M) (op.run platform layer db env instanceName) := by
  have hOne (path mode operation reason : Text) (call : Text → Verb) (principal : Option Text) :
      Effect.Along (Driven platform env floats M) (do
        let norm ← Nextcloud.authorized platform layer db env instanceName path mode
        Nextcloud.auditAnd platform layer env instanceName norm operation reason (call norm)
          principal) :=
    .bind (hM.authorized path mode) fun norm => hM.auditAnd norm operation reason (call norm) principal
  cases op with
  | list path => exact .bind (hM.list path) fun _ => .pure _
  | read path principal => exact .bind (hOne _ _ _ _ _ _) fun _ => .pure _
  | write path data principal =>
    exact .bind (hOne _ _ _ _ (fun norm => .put norm data none) _) fun _ => .pure _
  | move src dst =>
    exact .bind (.bind (hM.authorized _ _) fun _ => .bind (hM.authorized _ _) fun _ =>
      hM.auditAnd _ _ _ _ _) fun _ => .pure _
  | trash path => exact .bind (hOne _ _ _ _ .delete _) fun _ => .pure _
  | mkdir path => exact .bind (hOne _ _ _ _ .mkcol _) fun _ => .pure _
  | checkout path timeout principal =>
    refine .bind (.bind (hM.authorized _ _) fun norm => .bind (hM.auditAnd _ _ _ _ _) fun result =>
      .bind (hM.auditAnd _ _ _ _ _) fun content => ?_) fun _ => .pure _
    dsimp only
    split
    · exact .pure _
    · exact .raise _
  | checkin path data lockToken principal =>
    exact .bind (.bind (hM.authorized _ _) fun norm => .bind (hM.auditAnd _ _ _ _ _) fun _ =>
      .bind (hM.auditAnd _ _ _ _ _) fun _ => .pure _) fun _ => .pure _

end Keeping

end Rule

/-! ## The two relations -/

section Journals

variable {platform : Platform} {env : Environment} {floats : Json.FloatFormat}

/-- A relation of log processes to the files, the writer and the trace they belong to. -/
abbrev Tie := Files → Option AuditLog → List Event → Process → Prop

def Tie.world (M : Tie) (w : World) (p : Process) : Prop :=
  ∃ s, w.audit = some s ∧ M s.files (some s.writer) w.trace p

theorem Journal.quiet {files : Files} {writer : Option AuditLog} {trace events : List Event}
    {p : Process} {sha256 : Text → Text} (h : Journal sha256 files writer trace p)
    (hQuiet : ∀ event ∈ events, event.attempt? = none) :
    Journal sha256 files writer (trace ++ events) p := by
  have hAttempts : events.filterMap Event.attempt? = [] :=
    List.filterMap_eq_nil_iff.mpr hQuiet
  have hEntries : events.filterMap Event.entry? = [] := by
    refine List.filterMap_eq_nil_iff.mpr fun event hEvent => ?_
    have hNone := hQuiet event hEvent
    cases event with
    | checked | appendFailed | verb => rfl
    | appended entry files => cases hNone
  refine ⟨h.files, h.writer, ?_, ?_⟩
  · rw [List.filterMap_append, hEntries, List.append_nil]
    exact h.kept
  · rw [List.filterMap_append, hAttempts, List.append_nil]
    exact h.told

/-- A call of the process does to the files, the writer and the lines what `record` does. -/
theorem call_eq (sha256 : Text → Text) (s : AuditState) (lines : List Text) (timestamp : Text)
    (entry : Entry) (append checkpoint : Write) :
    Process.call sha256 ⟨s.files, some s.writer, lines⟩ ⟨timestamp, entry, append, checkpoint⟩ =
      ⟨((record sha256 timestamp entry append checkpoint).run s).2.files,
        some ((record sha256 timestamp entry append checkpoint).run s).2.writer,
        lines ++ if Writes s.writer entry ∧ append = .completes then
          [recordLine sha256 s.writer.prevSha256 timestamp entry] else []⟩ := rfl

/-- A record of the layer next to the call of the process that does the same. -/
structure Recording (sha256 : Text → Text) (entry : Entry) (p p' : Process) (s : AuditState)
    (event : Event) (more : List Text) : Prop where
  state : p' = ⟨s.files, some s.writer, p.appended ++ more⟩
  lines : more = [] ∨ ∃ line, more = [line] ∧ IsLine sha256 entry line
  event : (event = .appended entry s.files ∧ more ≠ []) ∨
    ∃ cause, event = .appendFailed entry cause

theorem auditRecord_call (w : World) (s : AuditState) (entry : Entry) (lines : List Text) :
    ∃ s' event more, ((auditRecord platform env s entry).run w).2 =
        ⟨some s', w.asked + 1, w.trace ++ [event]⟩ ∧
      Recording platform.sha256 entry ⟨s.files, some s.writer, lines⟩
        (Process.call platform.sha256 ⟨s.files, some s.writer, lines⟩ (callAt env w.asked entry))
        s' event more ∧
      ((∃ entry files, event = .appended entry files) →
        Process.returns platform.sha256 ⟨s.files, some s.writer, lines⟩
          (callAt env w.asked entry) = true) := by
  have hFailed (cause : AuditError) (p : Prop) :
      (∃ entry' files, Event.appendFailed entry cause = .appended entry' files) → p := by
    rintro ⟨_, _, h⟩
    cases h
  rw [callAt, call_eq]
  simp only [auditRecord, Process.returns]
  rcases record_cases platform.sha256 (env.stamp w.asked) entry (env.writes w.asked).1
    (env.writes w.asked).2 s with
    ⟨err, hRefused, hRun⟩ | ⟨err, _, hFails, hRun⟩ | ⟨result, hWrites, hAppend, hRun, _⟩
  · rw [hRun, if_neg fun h => hRefused h.1]
    exact ⟨s, _, [], rfl, ⟨rfl, Or.inl rfl, Or.inr ⟨err, rfl⟩⟩, hFailed err _⟩
  · rw [hRun, if_neg fun h => hFails h.2]
    exact ⟨_, _, [], rfl, ⟨rfl, Or.inl rfl, Or.inr ⟨err, rfl⟩⟩, hFailed err _⟩
  · rw [hRun, if_pos ⟨hWrites, hAppend⟩]
    cases result with
    | ok _ =>
      exact ⟨_, _, _, rfl, ⟨rfl, Or.inr ⟨_, rfl, _, _, rfl⟩, Or.inl ⟨rfl, List.cons_ne_nil _ _⟩⟩,
        fun _ => rfl⟩
    | error err =>
      exact ⟨_, _, _, rfl, ⟨rfl, Or.inr ⟨_, rfl, _, _, rfl⟩, Or.inr ⟨err, rfl⟩⟩, hFailed err _⟩

theorem Journal.recorded {sha256 : Text → Text} {s s' : AuditState} {trace : List Event}
    {p p' : Process} {entry : Entry} {event : Event} {more : List Text}
    (h : Journal sha256 s.files (some s.writer) trace p)
    (hRecording : Recording sha256 entry p p' s' event more) :
    Journal sha256 s'.files (some s'.writer) (trace ++ [event]) p' := by
  obtain ⟨rfl, hLines, hEvent⟩ := hRecording
  refine ⟨rfl, rfl, ?_, ?_⟩
  · have hFailed (cause : AuditError) :
        [Event.appendFailed entry cause].filterMap Event.entry? = [] := rfl
    rw [List.filterMap_append]
    rcases hLines with rfl | ⟨line, rfl, hLine⟩
    · obtain ⟨cause, rfl⟩ := hEvent.resolve_left fun h => h.2 rfl
      rw [hFailed, List.append_nil, List.append_nil]
      exact h.kept
    · rcases hEvent with ⟨rfl, _⟩ | ⟨cause, rfl⟩
      · exact Embedding.concat h.kept hLine
      · rw [hFailed, List.append_nil]
        exact Embedding.concat_right h.kept line
  · have hAttempt : [event].filterMap Event.attempt? = [entry] := by
      rcases hEvent with ⟨rfl, _⟩ | ⟨cause, rfl⟩ <;> rfl
    rw [List.filterMap_append, hAttempt]
    rcases hLines with rfl | ⟨line, rfl, hLine⟩
    · rw [List.append_nil]
      exact Embedding.concat_right h.told entry
    · exact Embedding.concat h.told hLine

theorem journal_keeping : Keeping platform env (Tie.world (Journal platform.sha256)) := by
  constructor
  · rintro w w' events p ⟨s, hAudit, hJournal⟩ hSame hTrace hQuiet
    refine ⟨s, hSame.trans hAudit, ?_⟩
    rw [hTrace]
    exact hJournal.quiet hQuiet
  · rintro w ⟨_, _, lines⟩ s entry ⟨s₀, hAudit', hJournal⟩ hAudit
    rw [hAudit] at hAudit'
    cases hAudit'
    obtain ⟨rfl, rfl, _, _⟩ := id hJournal
    obtain ⟨s', event, more, hWorld, hRecording, _⟩ :=
      auditRecord_call w s entry lines
    rw [hWorld]
    exact ⟨s', rfl, hJournal.recorded hRecording⟩

/-- The log a record left is accepted by `verify_chain` and ends with the record's line. -/
def Event.Verified (platform : Platform) (floats : Json.FloatFormat) : Event → Prop
  | .appended entry files => accepts platform.sha256 floats files = true ∧ EndsWith platform files entry
  | _ => True

/-- The process is in step with its log, and every record left a log that is accepted. -/
structure Held (platform : Platform) (floats : Json.FloatFormat) (files : Files)
    (writer : Option AuditLog) (trace : List Event) (p : Process) : Prop where
  journal : Journal platform.sha256 files writer trace p
  sound : p.Sound platform.sha256 floats
  verified : ∀ event ∈ trace, event.Verified platform floats

theorem held_keeping (hWhole : ∀ k, (env.writes k).1.Whole) :
    Keeping platform env (Tie.world (Held platform floats)) := by
  constructor
  · rintro w w' events p ⟨s, hAudit, hHeld⟩ hSame hTrace hQuiet
    refine ⟨s, hSame.trans hAudit, ?_⟩
    rw [hTrace]
    refine ⟨hHeld.journal.quiet hQuiet, hHeld.sound, fun event hEvent => ?_⟩
    rcases List.mem_append.mp hEvent with hOld | hNew
    · exact hHeld.verified event hOld
    · cases event with
      | appended entry files => exact absurd (hQuiet _ hNew) (by simp [Event.attempt?])
      | checked | appendFailed | verb => exact trivial
  · rintro w ⟨_, _, lines⟩ s entry ⟨s₀, hAudit', hHeld⟩ hAudit
    rw [hAudit] at hAudit'
    cases hAudit'
    have hSound := hHeld.sound.call (callAt env w.asked entry) (hWhole w.asked)
    obtain ⟨rfl, rfl, _, _⟩ := id hHeld.journal
    obtain ⟨s', event, more, hWorld, hRecording, hReturns⟩ := auditRecord_call w s entry lines
    have hCases := auditRecord_cases platform env s entry w
    rw [hWorld]
    refine ⟨s', rfl, hHeld.journal.recorded hRecording, hSound, fun event' hEvent' => ?_⟩
    rcases List.mem_append.mp hEvent' with hOld | hNew
    · exact hHeld.verified event' hOld
    cases List.mem_singleton.mp hNew
    rcases hRecording.event with ⟨rfl, hMore⟩ | ⟨cause, rfl⟩
    · have hAccepted := hHeld.sound.accepted (hReturns ⟨entry, s'.files, rfl⟩)
      rw [hRecording.state] at hAccepted
      refine ⟨by rw [accepts, hAccepted], ?_⟩
      rcases hCases with ⟨s'', hRun, hEnds⟩ | ⟨s'', cause, hRun⟩
      · rw [hRun] at hWorld
        cases hWorld
        exact hEnds
      · rw [hRun] at hWorld
        cases List.append_cancel_left (congrArg World.trace hWorld)
    · exact trivial

end Journals

end AccessBroker.Nextcloud
