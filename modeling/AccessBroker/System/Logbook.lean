import AccessBroker.Nextcloud.Journal
import AccessBroker.System.Authority

/-! # The log of the running broker

The broker refines the audit log: behind every run of it is a run of the log's process, with the
same files and the same writer. What holds of every run of the log then holds under any order of
tool calls, room events, sweeps and restarts.
-/

namespace AccessBroker.System
open Py Grants Nextcloud Server Audit
set_option autoImplicit false

variable {w : Wiring} {env : Environment}

/-! ## The refinement -/

inductive Broker.Touches (w : Wiring) (env : Environment) (s s' : Broker) : Prop where
  | nothing (files : s'.files = s.files) (writer : s'.writer = s.writer) (trace : s'.trace = s.trace)
  | reopens (files : s'.files = s.files)
      (writer : s'.writer = (AuditLog.open w.floats [] s.files).toOption)
      (trace : s'.trace = s.trace)
  | operates {writer : AuditLog} {instanceName : Text} {op : Nextcloud.Operation}
      (running : s.writer = some writer) (operation : s' = s.operate w env writer instanceName op)

theorem Broker.see_log (s : Broker) (eventId : Text) :
    (s.see eventId).files = s.files ∧ (s.see eventId).trace = s.trace := by
  rw [Broker.see]
  split <;> exact ⟨rfl, rfl⟩

theorem Broker.perform_files (s : Broker) (handler : MatrixBot.Handler MatrixBot.Progress) :
    (s.perform handler).files = s.files := by
  rw [Broker.perform]
  split <;> rfl

theorem Broker.perform_touches (s : Broker) (handler : MatrixBot.Handler MatrixBot.Progress) :
    s.Touches w env (s.perform handler) :=
  .nothing (s.perform_files handler) (s.perform_writer handler) (s.perform_trace handler)

theorem Broker.restart_touches (s : Broker) : s.Touches w env (s.restart w) := by
  rw [Broker.restart]
  cases hOpen : AuditLog.open w.floats [] s.files with
  | error cause => exact .reopens rfl (by rw [hOpen]; rfl) rfl
  | ok writer => exact .reopens rfl (by rw [hOpen]; rfl) rfl

theorem Broker.step_touches (s : Broker) (act : Act) : s.Touches w env (s.step w env act) := by
  unfold Broker.step
  split
  · rename_i writer hWriter
    cases act with
    | wait => exact .nothing rfl rfl rfl
    | sweep => exact s.perform_touches _
    | restart => exact s.restart_touches
    | resume index outcome =>
      rw [Broker.handle]
      split
      · exact .nothing rfl rfl rfl
      · exact .nothing (Broker.perform_files _ _) (Broker.perform_writer _ _) (Broker.perform_trace _ _)
    | event event =>
      rw [Broker.handle, Broker.onEvent]
      split
      · exact .nothing rfl rfl rfl
      split
      · exact .nothing rfl rfl rfl
      obtain ⟨hFiles, hTrace⟩ := s.see_log event.eventId
      have hWriter := s.see_writer event.eventId
      cases event.content with
      | reaction reactsTo key =>
        rw [Broker.dispatch]
        exact .nothing ((Broker.perform_files _ _).trans hFiles)
          ((Broker.perform_writer _ _).trans hWriter) ((Broker.perform_trace _ _).trans hTrace)
      | message body =>
        rw [Broker.dispatch]
        split
        · exact .nothing hFiles hWriter hTrace
        · exact .nothing ((Broker.perform_files _ _).trans hFiles)
            ((Broker.perform_writer _ _).trans hWriter) ((Broker.perform_trace _ _).trans hTrace)
    | call surface tool =>
      rw [Broker.handle]
      unfold Broker.call
      split
      · exact .nothing rfl rfl rfl
      split
      · exact s.perform_touches _
      · exact s.perform_touches _
      split
      · exact .nothing rfl rfl rfl
      · exact .operates hWriter rfl
  · split
    · exact s.restart_touches
    · exact .nothing rfl rfl rfl
    · exact .nothing rfl rfl rfl

/-- A tie that records and reopenings keep is kept by every step of the broker. -/
theorem refines_of_keeping {M : Tie} (hKeeping : Keeping w.platform env M.world)
    (hReopen : ∀ files writer trace p, M files writer trace p →
      M files (AuditLog.open w.floats [] files).toOption trace
        (p.step w.platform.sha256 w.floats [] .restart)) :
    Machine.Refines (Broker.step w env) (Process.step w.platform.sha256 w.floats []) (From env)
      fun s p => M s.files s.writer s.trace p := by
  intro s p act hp
  have hTouches : s.Touches w env (s.step w env act) := s.step_touches act
  generalize s.step w env act = s' at hTouches ⊢
  cases hTouches with
  | nothing hFiles hWriter hTrace =>
    refine ⟨[], by simp, ?_⟩
    dsimp only
    rw [hFiles, hWriter, hTrace]
    exact hp
  | reopens hFiles hWriter hTrace =>
    refine ⟨[.restart], by simp [From], ?_⟩
    dsimp only
    rw [hFiles, hWriter, hTrace]
    exact hReopen _ _ _ p hp
  | @operates writer instanceName op hRunning hOperation =>
    subst hOperation
    rw [hRunning] at hp
    have hRun : Effect.Along (Driven w.platform env w.floats M.world)
        (op.run w.platform w.layer s.desk.db env instanceName) := hKeeping.run op
    obtain ⟨acts, hActs, state, hAudit, hEnd⟩ :=
      hRun ⟨some ⟨writer, s.files⟩, s.desk.asked, s.trace⟩ p ⟨_, rfl, hp⟩
    refine ⟨acts, hActs, ?_⟩
    rw [Broker.operate]
    dsimp only
    rw [hAudit]
    exact hEnd

theorem journal_start (sha256 : Text → Text) :
    Journal sha256 Broker.start.files Broker.start.writer Broker.start.trace Process.start :=
  ⟨rfl, rfl, .nil, .nil⟩

/-- Behind every run of the broker is a run of the log's process, with the environment's stamps
and writes, that has the broker's files and writer; its lines are, in order, the completed
records of the trace, and perhaps records that the trace has as failed. -/
theorem log_refined (w : Wiring) (env : Environment) (acts : List Act) :
    let s := Machine.run (Broker.step w env) Broker.start acts
    ∃ acts', (∀ act ∈ acts', From env act) ∧
      Journal w.platform.sha256 s.files s.writer s.trace
        (Process.after w.platform.sha256 w.floats [] acts') := by
  refine (refines_of_keeping journal_keeping ?_).run (journal_start w.platform.sha256) acts
  rintro files writer trace p ⟨rfl, _, hKept, hTold⟩
  exact ⟨rfl, rfl, hKept, hTold⟩

/-! ## A log that is complete -/

/-- The entry is the record of a verb: an operation that calls the verb, allowed, on its
instance and paths. -/
def Logged (verb : Text × Verb) (entry : Entry) : Prop :=
  ∃ op : Nextcloud.Operation, op.calls verb.2 = true ∧ Names op verb.1 verb.2 entry

theorem step_preceded (s : Broker) (act : Act) :
    ∃ events, (s.step w env act).trace = s.trace ++ events ∧
      Embedding.Preceded Event.verb? Event.entry? Logged events := by
  have hNothing : ∃ events, s.trace = s.trace ++ events ∧
      Embedding.Preceded Event.verb? Event.entry? Logged events :=
    ⟨[], (List.append_nil _).symm, Embedding.preceded_nil⟩
  have hTouches : s.Touches w env (s.step w env act) := s.step_touches act
  generalize s.step w env act = s' at hTouches ⊢
  cases hTouches with
  | nothing _ _ hTrace => rwa [hTrace]
  | reopens _ _ hTrace => rwa [hTrace]
  | @operates writer instanceName op _ hOperation =>
    subst hOperation
    let world : World := ⟨some ⟨writer, s.files⟩, s.desk.asked, s.trace⟩
    obtain ⟨events, hTrace, hJustified, _⟩ :=
      run_mediated w.platform w.layer s.desk.db env instanceName op world
    have hCalls : OnlyCalls (fun call => op.calls call = true) world.trace
        ((op.run w.platform w.layer s.desk.db env instanceName).run world).2.trace :=
      operation_calls op world
    obtain ⟨events', hTrace', hOnly⟩ := hCalls
    rw [hTrace] at hTrace'
    cases List.append_cancel_left hTrace'
    refine ⟨events, hTrace, ?_⟩
    rintro before event after ⟨name, call⟩ hEvents hVerb
    cases event with
    | checked | appended | appendFailed => cases hVerb
    | verb name' call' =>
      cases hVerb
      obtain ⟨rfl, hMediated⟩ := hJustified before _ after hEvents name call rfl
      obtain ⟨earlier, entry, files, rfl, hNames, _⟩ := hMediated.recorded rfl
      exact ⟨earlier, _, entry, rfl, rfl, op, hOnly name call (by rw [hEvents]; simp), hNames⟩

theorem run_preceded (acts : List Act) :
    Embedding.Preceded Event.verb? Event.entry? Logged
      (Machine.run (Broker.step w env) Broker.start acts).trace := by
  refine Machine.run_invariant
    (I := fun s : Broker => Embedding.Preceded Event.verb? Event.entry? Logged s.trace)
    (fun s act h => ?_) Embedding.preceded_nil acts
  obtain ⟨events, hTrace, hPreceded⟩ : ∃ events, (s.step w env act).trace = s.trace ++ events ∧
      Embedding.Preceded Event.verb? Event.entry? Logged events := step_preceded s act
  rw [hTrace]
  exact h.append hPreceded

/-- When every append is whole, the log is at every point of every run an unbroken chain of
lines in which the verbs called so far have, in order, a line of their own each; and when a verb
is called, `verify_chain` accepts the log, which ends with the line of the verb's record. -/
theorem every_verb_logged (w : Wiring) (env : Environment) (hWhole : ∀ k, (env.writes k).1.Whole)
    (acts : List Act) :
    let s := Machine.run (Broker.step w env) Broker.start acts
    ∃ lines, s.files.log.getD [] = lines.flatten ∧
      (∃ prev, walk w.platform.sha256 w.floats (nonblankLines (s.files.log.getD [])) = .ok prev) ∧
      List.SublistForall₂ (fun verb line => ∃ entry, Logged verb entry ∧
        IsLine w.platform.sha256 entry line) (s.trace.filterMap Event.verb?) lines ∧
      ∀ before name call after, s.trace = before ++ .verb name call :: after →
        ∃ earlier entry files, before = earlier ++ [.appended entry files] ∧
          Logged (name, call) entry ∧ accepts w.platform.sha256 w.floats files = true ∧
            EndsWith w.platform files entry := by
  intro s
  have hStart : Held w.platform w.floats Broker.start.files Broker.start.writer Broker.start.trace
      Process.start :=
    ⟨journal_start w.platform.sha256, sound_start, by simp [Broker.start]⟩
  have hReopen : ∀ files writer trace p, Held w.platform w.floats files writer trace p →
      Held w.platform w.floats files (AuditLog.open w.floats [] files).toOption trace
        (p.step w.platform.sha256 w.floats [] .restart) := by
    rintro files writer trace p ⟨⟨rfl, _, hKept, hTold⟩, hSound, hVerified⟩
    exact ⟨⟨rfl, rfl, hKept, hTold⟩, hSound.step trivial, hVerified⟩
  obtain ⟨acts', _, hHeld⟩ := (refines_of_keeping (held_keeping hWhole) hReopen).run hStart acts
  generalize Machine.run _ Process.start acts' = p at hHeld
  have hSound := hHeld.sound
  have hPreceded : Embedding.Preceded Event.verb? Event.entry? Logged s.trace := run_preceded acts
  refine ⟨p.appended, ?_, ?_, ?_, ?_⟩
  · rw [← hHeld.journal.files]
    exact hSound.content
  · rw [← hHeld.journal.files]
    exact hSound.chain
  · refine Embedding.trans (hPreceded.embeds fun event entry hEntry => ?_) hHeld.journal.kept
    cases event with
    | appended entry files => rfl
    | checked | appendFailed | verb => cases hEntry
  · intro before name call after hTrace
    obtain ⟨earlier, event, entry, rfl, hEntry, hLogged⟩ :=
      hPreceded before (.verb name call) after (name, call) hTrace rfl
    cases event with
    | checked | appendFailed | verb => cases hEntry
    | appended _ files =>
      cases hEntry
      have hVerified := hHeld.verified (.appended entry files) (by rw [hTrace]; simp)
      exact ⟨earlier, entry, files, rfl, hLogged, hVerified⟩

theorem every_verb_logged_read :
    let s := Machine.run (Broker.step smallWiring smallEnvironment) Broker.start
      (approvedRequest ++ [.call .transfer (.read "nc".toList "docs/a".toList)])
    ∃ lines, s.files.log.getD [] = lines.flatten ∧
      (∃ prev, walk smallWiring.platform.sha256 smallWiring.floats
        (nonblankLines (s.files.log.getD [])) = .ok prev) ∧
      List.SublistForall₂ (fun verb line => ∃ entry, Logged verb entry ∧
        IsLine smallWiring.platform.sha256 entry line) (s.trace.filterMap Event.verb?) lines ∧
      ∀ before name call after, s.trace = before ++ .verb name call :: after →
        ∃ earlier entry files, before = earlier ++ [.appended entry files] ∧
          Logged (name, call) entry ∧
            accepts smallWiring.platform.sha256 smallWiring.floats files = true ∧
              EndsWith smallWiring.platform files entry := by
  have hLogged := every_verb_logged smallWiring smallEnvironment (fun _ => trivial)
    (approvedRequest ++ [.call .transfer (.read "nc".toList "docs/a".toList)])
  exact hLogged

end AccessBroker.System
