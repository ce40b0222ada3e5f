import AccessBroker.Audit.Recording
import AccessBroker.Library.Machine

/-! # Runs of the log

A log lives through many processes: calls that succeed or fail, crashes inside a
call, and restarts that reopen the files. As long as every append is whole, the
chain on disk holds and a writer that is up is in step with it.
-/

namespace AccessBroker.Audit
open Py Json
set_option autoImplicit false

structure Call where
  timestamp : Text
  entry : Entry
  append : Write
  checkpoint : Write
  deriving DecidableEq

/-- The files, the writer of the running process, and the lines appended so far. -/
structure Process where
  files : Files
  writer : Option AuditLog
  appended : List Text

inductive Act where
  | record (call : Call)
  /-- The process dies before the call returns; the writes are as far as they got. -/
  | crash (call : Call)
  | restart
  deriving DecidableEq

def Process.start : Process := ⟨⟨none, none⟩, none, []⟩

section Steps

variable (sha256 : Text → Text) (floats : FloatFormat) (secrets : List Text)

def Process.call (p : Process) (call : Call) : Process :=
  match p.writer with
  | none => p
  | some writer =>
    let outcome :=
      (record sha256 call.timestamp call.entry call.append call.checkpoint).run ⟨writer, p.files⟩
    { files := outcome.2.files
      writer := some outcome.2.writer
      appended := p.appended ++
        if Writes writer call.entry ∧ call.append = .completes then
          [recordLine sha256 writer.prevSha256 call.timestamp call.entry]
        else [] }

def Process.returns (p : Process) (call : Call) : Bool :=
  match p.writer with
  | none => false
  | some writer =>
    match (record sha256 call.timestamp call.entry call.append call.checkpoint).run
        ⟨writer, p.files⟩ with
    | (.ok (), _) => true
    | _ => false

def Process.step (p : Process) : Act → Process
  | .record call => p.call sha256 call
  | .crash call => { p.call sha256 call with writer := none }
  | .restart => { p with writer := (AuditLog.open floats secrets p.files).toOption }

def Process.after (acts : List Act) : Process :=
  Machine.run (Process.step sha256 floats secrets) Process.start acts

end Steps

/-- The write leaves all of its text and does not fail, or it leaves none of it. A write that leaves
all of its text and then fails, as at the final `fsync`, is not whole. -/
def Write.Whole : Write → Prop
  | completes | notOpened _ => True
  | fails written _ => written = 0

instance (write : Write) : Decidable write.Whole :=
  match write with
  | .completes => inferInstanceAs (Decidable True)
  | .notOpened _ => inferInstanceAs (Decidable True)
  | .fails written _ => inferInstanceAs (Decidable (written = 0))

def Act.Whole : Act → Prop
  | .record call | .crash call => call.append.Whole
  | .restart => True

instance (act : Act) : Decidable act.Whole :=
  match act with
  | .record call => inferInstanceAs (Decidable call.append.Whole)
  | .crash call => inferInstanceAs (Decidable call.append.Whole)
  | .restart => inferInstanceAs (Decidable True)

variable {sha256 : Text → Text} {floats : FloatFormat} {secrets : List Text}

/-- The chain on disk holds, it is what was appended, and a running writer is in step. -/
structure Process.Sound (sha256 : Text → Text) (floats : FloatFormat) (p : Process) : Prop where
  blank : ∀ c ∈ lastLine (p.files.log.getD []), isWs c = true
  chain : ∃ prev, walk sha256 floats (nonblankLines (p.files.log.getD [])) = .ok prev
  content : p.files.log.getD [] = p.appended.flatten
  count : p.appended.length = (nonblankLines (p.files.log.getD [])).length
  writer : ∀ log, p.writer = some log → Synced sha256 floats log (p.files.log.getD [])

theorem sound_start : Process.start.Sound sha256 floats where
  blank := by simp [Process.start, lastLine]
  chain := ⟨GENESIS, rfl⟩
  content := rfl
  count := rfl
  writer log h := by cases h

/-- A failing whole append leaves the text of the log as it was. -/
theorem Write.Whole.getD_append {write : Write} (h : write.Whole) (hFails : write ≠ .completes)
    (line : Text) (file : Option Text) : (write.append line file).getD [] = file.getD [] := by
  cases write with
  | completes => exact absurd rfl hFails
  | notOpened exc => rfl
  | fails written exc =>
    cases h
    simp [Write.append]

theorem Process.Sound.call {p : Process} (h : p.Sound sha256 floats) (call : Call)
    (hWhole : call.append.Whole) : (p.call sha256 call).Sound sha256 floats := by
  rw [Process.call]
  split
  · exact h
  rename_i log hLog
  have hSynced := h.writer log hLog
  dsimp only
  rcases record_cases sha256 call.timestamp call.entry call.append call.checkpoint
    ⟨log, p.files⟩ with ⟨err, hRefused, hRun⟩ | ⟨err, _, hFails, hRun⟩ |
      ⟨result, hWrites, hAppend, hRun, _⟩
  · rw [hRun, if_neg fun hBoth => hRefused hBoth.1, List.append_nil]
    exact ⟨h.blank, h.chain, h.content, h.count, fun log' hLog' => by cases hLog'; exact hSynced⟩
  · have hSame := hWhole.getD_append hFails
      (recordLine sha256 log.prevSha256 call.timestamp call.entry) p.files.log
    rw [hRun, if_neg fun hBoth => hFails hBoth.2, List.append_nil]
    refine ⟨?_, ?_, ?_, ?_, fun log' hLog' => ?_⟩
    · exact fun c hc => h.blank c (by rwa [hSame] at hc)
    · dsimp only
      rw [hSame]
      exact h.chain
    · exact hSame.trans h.content
    · dsimp only
      rw [hSame]
      exact h.count
    · cases hLog'
      dsimp only
      rw [hSame]
      exact hSynced
  · obtain ⟨hSynced', hChain⟩ := Synced.appended (s := ⟨log, p.files⟩) hSynced
      call.timestamp hWrites call.checkpoint
    rw [hRun, if_pos ⟨hWrites, hAppend⟩]
    refine ⟨hSynced'.blank, ⟨_, hChain⟩, ?_, ?_, fun log' hLog' => ?_⟩
    · rw [List.flatten_append, List.flatten_singleton, ← h.content]
      rfl
    · have hCount := hSynced'.count
      rw [List.length_append, List.length_singleton, h.count, ← hSynced.count]
      exact hCount
    · cases hLog'
      exact hSynced'

theorem Process.Sound.step {p : Process} (h : p.Sound sha256 floats) {act : Act}
    (hWhole : act.Whole) : (p.step sha256 floats secrets act).Sound sha256 floats := by
  cases act with
  | record call => exact h.call call hWhole
  | crash call =>
    have hCall := h.call call hWhole
    exact ⟨hCall.blank, hCall.chain, hCall.content, hCall.count, fun log hLog => by cases hLog⟩
  | restart =>
    refine ⟨h.blank, h.chain, h.content, h.count, fun log hLog => ?_⟩
    obtain ⟨prev, hWalk⟩ := h.chain
    obtain ⟨log', hOpen, _, hSynced⟩ :=
      open_synced secrets p.files h.blank hWalk
    rw [Process.step, hOpen] at hLog
    cases hLog
    exact hSynced

/-- A call only ever adds text at the end of the log. -/
theorem Process.call_prefix (p : Process) (call : Call) :
    p.files.log.getD [] <+: (p.call sha256 call).files.log.getD [] := by
  rw [Process.call]
  split
  · exact List.prefix_refl _
  rename_i log hLog
  dsimp only
  rcases record_cases sha256 call.timestamp call.entry call.append call.checkpoint
    ⟨log, p.files⟩ with ⟨err, _, hRun⟩ | ⟨err, _, _, hRun⟩ | ⟨result, _, _, hRun, _⟩
  · rewrite [hRun]
    exact List.prefix_refl _
  · rewrite [hRun]
    cases call.append with
    | completes => exact List.prefix_append _ _
    | notOpened exc => exact List.prefix_refl _
    | fails written exc => exact List.prefix_append _ _
  · rw [hRun]
    exact List.prefix_append _ _

theorem Process.step_prefix (p : Process) (act : Act) :
    p.files.log.getD [] <+: (p.step sha256 floats secrets act).files.log.getD [] := by
  cases act with
  | record call => exact p.call_prefix call
  | crash call => exact p.call_prefix call
  | restart => exact List.prefix_refl _

theorem Process.run_prefix (p : Process) (acts : List Act) :
    p.files.log.getD [] <+:
      (Machine.run (Process.step sha256 floats secrets) p acts).files.log.getD [] :=
  Machine.run_relation (R := fun p p' : Process => p.files.log.getD [] <+: p'.files.log.getD [])
    (fun _ => List.prefix_refl _) (fun _ _ _ => List.IsPrefix.trans) (fun p a => p.step_prefix a) p
    acts

theorem Process.after_sound {acts : List Act} (hWhole : ∀ act ∈ acts, act.Whole) :
    (Process.after sha256 floats secrets acts).Sound sha256 floats :=
  Machine.run_invariant_of_mem (I := Process.Sound sha256 floats)
    (fun act hAct _ h => Process.Sound.step h (hWhole act hAct)) sound_start

/-- A call that returns has appended its line, and the log is accepted. -/
theorem Process.Sound.accepted {p : Process} (h : p.Sound sha256 floats) {call : Call}
    (hReturns : p.returns sha256 call = true) :
    verifyChain sha256 floats (p.call sha256 call).files =
      .ok ⟨true, none, (p.call sha256 call).appended.length⟩ := by
  rw [Process.returns] at hReturns
  rw [Process.call]
  split at hReturns
  · cases hReturns
  rename_i log hLog
  have hSynced := h.writer log hLog
  dsimp only
  rcases record_cases sha256 call.timestamp call.entry call.append call.checkpoint
    ⟨log, p.files⟩ with ⟨err, _, hRun⟩ | ⟨err, _, _, hRun⟩ | ⟨result, hWrites, hAppend, hRun, hOk⟩
  · rw [hRun] at hReturns
    cases hReturns
  · rw [hRun] at hReturns
    cases hReturns
  · rw [hRun] at hReturns
    split at hReturns
    · rename_i hResult
      cases hResult
      obtain ⟨hCheckpoint, hCount⟩ := hOk.mp rfl
      rw [hRun, if_pos ⟨hWrites, hAppend⟩, hCheckpoint, List.length_append, List.length_singleton,
        h.count, ← hSynced.count]
      exact Synced.accepted (s := ⟨log, p.files⟩) hSynced call.timestamp hWrites hCount
    · cases hReturns

theorem no_false_alarms (sha256 : Text → Text) (floats : FloatFormat) (secrets : List Text)
    (acts : List Act) (call : Call) (hWhole : ∀ act ∈ acts, act.Whole)
    (hReturns : (Process.after sha256 floats secrets acts).returns sha256 call = true) :
    verifyChain sha256 floats ((Process.after sha256 floats secrets acts).call sha256 call).files =
        .ok ⟨true, none,
          ((Process.after sha256 floats secrets acts).call sha256 call).appended.length⟩ ∧
      ∀ earlier later, acts = earlier ++ later →
        (Process.after sha256 floats secrets earlier).files.log.getD [] <+:
          ((Process.after sha256 floats secrets acts).call sha256 call).files.log.getD [] := by
  refine ⟨(Process.after_sound hWhole).accepted hReturns, ?_⟩
  rintro earlier later rfl
  refine List.IsPrefix.trans ?_ (Process.call_prefix _ call)
  rw [Process.after, Process.after, Machine.run_append]
  exact Process.run_prefix _ later

/-- A missed checkpoint, a refused append and a crash after one, then a reopened log. -/
def interrupted : List Act :=
  [.restart,
    .record ⟨['0'], ⟨['a'], ['d', '\n'], ['r'], some 1, ['o'], ['"'], none, false⟩, .completes,
      .fails 3 ['E']⟩,
    .record ⟨['1'], ⟨['a'], ['s'], ['r'], none, ['o'], [], none, false⟩, .completes, .completes⟩,
    .record ⟨['2'], ⟨['a'], [], ['r'], none, ['o'], [], none, false⟩, .notOpened ['E'], .completes⟩,
    .crash ⟨['3'], ⟨['a'], [], ['w'], none, ['o'], [], some ['t'], false⟩, .completes,
      .notOpened []⟩,
    .restart]

def resumed : Call :=
  ⟨['4'], ⟨['a'], ['d'], ['r'], none, ['o'], [], some ['t'], false⟩, .completes, .completes⟩

theorem no_false_alarms_interrupted :
    verifyChain id .verbatim
        ((Process.after id .verbatim [['s']] interrupted).call id resumed).files =
        .ok ⟨true, none,
          ((Process.after id .verbatim [['s']] interrupted).call id resumed).appended.length⟩ ∧
      ∀ earlier later, interrupted = earlier ++ later →
        (Process.after id .verbatim [['s']] earlier).files.log.getD [] <+:
          ((Process.after id .verbatim [['s']] interrupted).call id resumed).files.log.getD [] :=
  no_false_alarms id .verbatim [['s']] interrupted resumed (by decide) (by decide +kernel)

/-! ## Failed appends -/

/-- If the call of this act returns, the log is accepted. -/
def Process.Verifies (sha256 : Text → Text) (floats : FloatFormat) (p : Process) : Act → Prop
  | .record call => p.returns sha256 call = true →
      accepts sha256 floats (p.call sha256 call).files = true
  | .crash _ | .restart => True

theorem Process.Sound.verifies {p : Process} (h : p.Sound sha256 floats) (act : Act) :
    p.Verifies sha256 floats act := by
  cases act with
  | record call =>
    intro hReturns
    rw [accepts, h.accepted hReturns]
  | crash call => exact trivial
  | restart => exact trivial

theorem whole_failures_keep_log_accepted (sha256 : Text → Text) (floats : FloatFormat)
    (secrets : List Text) (acts : List Act) (hWhole : ∀ act ∈ acts, act.Whole) :
    Machine.EveryStep (Process.step sha256 floats secrets) (Process.Verifies sha256 floats)
      Process.start acts := by
  rintro earlier act later rfl
  exact (Process.after_sound fun act' hAct' =>
    hWhole act' (List.mem_append_left _ hAct')).verifies act

theorem whole_failures_keep_log_accepted_interrupted :
    Machine.EveryStep (Process.step id .verbatim [['s']]) (Process.Verifies id .verbatim)
      Process.start (interrupted ++ [.record resumed]) :=
  whole_failures_keep_log_accepted id .verbatim [['s']] _ (by decide)

/-- The line of the second call is in the file although its call failed. -/
theorem flushed_failure_breaks_chain :
    let entry : Entry := ⟨['a'], ['d'], ['r'], some 1, ['o'], [], none, false⟩
    let p := Process.after id .verbatim [] [.restart,
      .record ⟨['0'], entry, .completes, .completes⟩, .record ⟨['1'], entry, .fails 999 ['E'],
        .completes⟩]
    let next : Call := ⟨['2'], entry, .completes, .completes⟩
    p.returns id next = true ∧ accepts id .verbatim (p.call id next).files = false := by
  decide +kernel

end AccessBroker.Audit
