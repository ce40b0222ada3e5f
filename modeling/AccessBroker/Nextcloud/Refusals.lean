import AccessBroker.Nextcloud.Mediation

/-! # Recorded refusals

Every refusal of the wall leaves a record, except the ones of the listing, whose checks
raise without one.
-/

namespace AccessBroker.Nextcloud
open Py Paths Grants Audit
set_option autoImplicit false

def RefusalRecorded (platform : Platform) (instanceName : Text) (events : List Event) : Prop :=
  ∃ entry files, .appended entry files ∈ events ∧ entry.decision = "refused".toList ∧
    entry.instanceName = instanceName ∧ EndsWith platform files entry

def Unrecorded (events : List Event) : Prop := ∀ entry files, .appended entry files ∉ events

structure Open (trace : List Event) (w : World) : Prop where
  wired : w.audit.isSome = true
  since : trace <+: w.trace

/-- If the exception is a refusal, what happened before it satisfies `R`. -/
def Refuses (trace : List Event) (R : List Event → Prop) (err : LayerError) (w : World) : Prop :=
  ∃ events, w.trace = trace ++ events ∧ ∀ reason, err = .accessRefused reason → R events

section Steps

variable {platform : Platform} {layer : Layer} {db : Database} {env : Environment}
variable {instanceName : Text} {trace : List Event} {R : List Event → Prop}

theorem Open.concat {w w' : World} {event : Event} (h : Open trace w)
    (hWired : w'.audit.isSome = true) (hTrace : w'.trace = w.trace ++ [event]) :
    Open trace w' := by
  constructor
  · exact hWired
  · rw [hTrace]
    exact h.since.trans (List.prefix_append _ _)

theorem Open.refuses {w : World} (h : Open trace w) {err : LayerError}
    (hOther : ∀ reason, err ≠ .accessRefused reason) : Refuses trace R err w := by
  obtain ⟨events, hEvents⟩ := h.since
  exact ⟨events, hEvents.symm, fun reason hErr => absurd hErr (hOther reason)⟩

theorem callVerb_not_refused (layer : Layer) (env : Environment) (name : Text) (call : Verb)
    (w : World) (reason : Text) :
    ((scrubErrors layer name (callVerb env name call)).run w).1 ≠ .error (.accessRefused reason) := by
  rw [scrubErrors]
  cases hReply : env.reply w.asked with
  | ok reply => simp [Effect.handle, callVerb, hReply]
  | error err => cases err <;> simp [Effect.handle, callVerb, hReply]

theorem callVerb_open (call : Verb) :
    Effect.Triple (Open trace) (scrubErrors layer instanceName (callVerb env instanceName call))
      (fun _ => Open trace) (Refuses trace R) := by
  intro w hw
  have hOther := callVerb_not_refused layer env instanceName call w
  obtain ⟨result, hRun⟩ := callVerb_run layer env instanceName call w
  have hNext : Open trace
      { w with asked := w.asked + 1, trace := w.trace ++ [.verb instanceName call] } :=
    hw.concat hw.wired rfl
  rw [hRun] at hOther ⊢
  cases result with
  | ok reply => exact hNext
  | error err => exact hNext.refuses fun reason hErr => hOther reason (by rw [hErr])

/-- What follows the checks never raises a refusal. -/
theorem auditAnd_open {path operation reason : Text} {call : Verb} {principal : Option Text} :
    Effect.Triple (Open trace)
      (auditAnd platform layer env instanceName path operation reason call principal)
      (fun _ => Open trace) (Refuses trace R) := by
  intro w hw
  rw [auditAnd, Effect.bind_ok (Effect.get_run w)]
  cases hAudit : w.audit with
  | none => exact callVerb_open call w hw
  | some s =>
    dsimp only
    rcases auditRecord_cases platform env s
        (allowedEntry layer instanceName path operation reason principal) w with
      ⟨s', hRun, _⟩ | ⟨s', cause, hRun⟩
    · rw [Effect.bind_ok hRun]
      exact callVerb_open call _ (hw.concat rfl rfl)
    · rw [Effect.bind_error hRun]
      have hNext : Open trace ⟨some s', w.asked + 1, w.trace ++ [.appendFailed
          (allowedEntry layer instanceName path operation reason principal) cause]⟩ :=
        hw.concat rfl rfl
      exact hNext.refuses fun reason hErr => by cases hErr

theorem auditRefusal_recorded (path operation reason : Text) :
    Effect.Triple (Open trace)
      (auditRefusal platform layer env instanceName path operation reason)
      (fun _ w => ∃ events, w.trace = trace ++ events ∧
        (Unfailed events → RefusalRecorded platform instanceName events))
      (fun _ _ => False) := by
  rintro w ⟨hWired, earlier, hEarlier⟩
  rw [auditRefusal, Effect.bind_ok (Effect.get_run w)]
  cases hAudit : w.audit with
  | none =>
    rw [hAudit] at hWired
    cases hWired
  | some s =>
    dsimp only
    rcases auditRecord_cases platform env s
        (refusedEntry layer instanceName path operation reason) w with
      ⟨s', hRun, hEnds⟩ | ⟨s', cause, hRun⟩
    · rw [Effect.handle_ok hRun]
      refine ⟨earlier ++ [.appended (refusedEntry layer instanceName path operation reason)
        s'.files], ?_, fun _ => ?_⟩
      · rw [← hEarlier, List.append_assoc]
      · exact ⟨_, s'.files, by simp, rfl, rfl, hEnds⟩
    · rw [Effect.handle_error hRun]
      refine ⟨earlier ++ [.appendFailed (refusedEntry layer instanceName path operation reason)
        cause], ?_, fun hUnfailed => ?_⟩
      · rw [← hEarlier, List.append_assoc]
      · exact absurd (List.mem_append_right _ (List.mem_singleton.mpr rfl)) (hUnfailed _ cause)

theorem refuse_recorded (path operation reason message : Text) :
    Effect.Triple (Open trace)
      (do
        auditRefusal platform layer env instanceName path operation reason
        Effect.raise (.accessRefused message) : Run Text)
      (fun _ => Open trace)
      (Refuses trace fun events =>
        Unfailed events → RefusalRecorded platform instanceName events) := by
  have hRefusal : Effect.Triple (Open trace)
      (auditRefusal platform layer env instanceName path operation reason) _ _ :=
    auditRefusal_recorded path operation reason
  refine (hRefusal.consequence (fun _ h => h) (fun _ _ h => h) fun _ _ h => h.elim).bind
    fun _ => .raise ?_
  rintro w ⟨events, hEvents, hRecorded⟩
  exact ⟨events, hEvents, fun _ _ => hRecorded⟩

/-- The wall only adds its decision to the trace. -/
theorem wall_open (norm mode : Text) :
    Effect.Triple (Open trace) (wall layer db env instanceName norm mode)
      (fun _ => Open trace) (Refuses trace R) := by
  intro w hw
  obtain ⟨w', hRun, _, hAudit, hTrace⟩ := wall_run layer db env instanceName norm mode w
  have hWired : w'.audit.isSome = true := by
    rw [hAudit]
    exact hw.wired
  rw [hRun]
  exact hw.concat hWired hTrace

theorem authorized_recorded (path mode : Text) :
    Effect.Triple (Open trace) (authorized platform layer db env instanceName path mode)
      (fun _ => Open trace)
      (Refuses trace fun events =>
        Unfailed events → RefusalRecorded platform instanceName events) := by
  rw [authorized]
  split
  · exact refuse_recorded _ _ _ _
  split
  · exact refuse_recorded _ _ _ _
  · apply (wall_open _ mode).bind
    intro decision
    split
    · exact .pure fun _ h => h
    · exact refuse_recorded _ _ _ _

theorem authorizedRead_unrecorded (norm : Text) :
    Effect.Triple (fun w => Open trace w ∧ w.trace = trace)
      (authorizedRead layer db env instanceName norm)
      (fun _ => Open trace) (Refuses trace Unrecorded) := by
  rintro w ⟨hOpen, rfl⟩
  obtain ⟨w', hRun, _, hAudit, hTrace⟩ := wall_run layer db env instanceName norm READ w
  rw [authorizedRead, Effect.bind_ok hRun]
  split
  · have hWired : w'.audit.isSome = true := by
      rw [hAudit]
      exact hOpen.wired
    exact hOpen.concat hWired hTrace
  · exact ⟨_, hTrace, fun _ _ => by simp [Unrecorded]⟩

end Steps

section Operations

variable (platform : Platform) (layer : Layer) (db : Database) (env : Environment)
variable (instanceName : Text)

theorem list_unrecorded (path : Text) (trace : List Event) :
    Effect.Triple (fun w => Open trace w ∧ w.trace = trace)
      (list platform layer db env instanceName path)
      (fun _ => Open trace) (Refuses trace Unrecorded) := by
  have hRaise : ∀ reason : Text, Effect.Triple (fun w => Open trace w ∧ w.trace = trace)
      (Effect.raise (.accessRefused reason) : Run Reply)
      (fun _ => Open trace) (Refuses trace Unrecorded) := by
    intro reason
    apply Effect.Triple.raise
    rintro w ⟨_, hTrace⟩
    exact ⟨[], by rw [hTrace, List.append_nil], fun _ _ => by simp [Unrecorded]⟩
  rw [list]
  split
  · exact hRaise _
  split
  · exact hRaise _
  split
  · exact auditAnd_open.consequence (fun _ h => h.1) (fun _ _ h => h) fun _ _ h => h
  · exact (authorizedRead_unrecorded _).bind fun _ => auditAnd_open

/-- Every operation but the listing asks `_authorized`, the one of a move for each path. -/
theorem run_recorded (op : Operation) (hList : ∀ path, op ≠ .list path) (trace : List Event) :
    Effect.Triple (Open trace) (op.run platform layer db env instanceName)
      (fun _ => Open trace)
      (Refuses trace fun events =>
        Unfailed events → RefusalRecorded platform instanceName events) := by
  cases op with
  | list path => exact absurd rfl (hList path)
  | read path principal =>
    exact ((authorized_recorded path READ).bind fun _ => auditAnd_open).bind
      fun _ => .pure fun _ h => h
  | write path data principal =>
    exact ((authorized_recorded path WRITE).bind fun _ => auditAnd_open).bind
      fun _ => .pure fun _ h => h
  | move src dst =>
    exact ((authorized_recorded src WRITE).bind fun _ =>
      (authorized_recorded dst WRITE).bind fun _ => auditAnd_open).bind fun _ => .pure fun _ h => h
  | trash path =>
    exact ((authorized_recorded path WRITE).bind fun _ => auditAnd_open).bind
      fun _ => .pure fun _ h => h
  | mkdir path =>
    exact ((authorized_recorded path WRITE).bind fun _ => auditAnd_open).bind
      fun _ => .pure fun _ h => h
  | checkout path timeout principal =>
    refine Effect.Triple.bind (Q := fun _ => Open trace) ?_ fun _ => .pure fun _ h => h
    apply (authorized_recorded path WRITE).bind
    intro norm
    apply auditAnd_open.bind
    intro result
    apply auditAnd_open.bind
    intro content
    dsimp only
    split
    · exact .pure fun _ h => h
    · exact .raise fun _ h => h.refuses fun _ hErr => by cases hErr
  | checkin path data lockToken principal =>
    refine Effect.Triple.bind (Q := fun _ => Open trace) ?_ fun _ => .pure fun _ h => h
    apply (authorized_recorded path WRITE).bind
    intro norm
    apply auditAnd_open.bind
    intro written
    apply auditAnd_open.bind
    intro unlocked
    exact .pure fun _ h => h

/-- A refused call, with the log wired and its writes successful, left a record of decision
`refused` exactly when it is no listing. -/
theorem refusal_recorded_iff (op : Operation) (w w' : World) (reason : Text)
    (hWired : w.audit.isSome = true)
    (hRefused : (op.run platform layer db env instanceName).run w =
      (.error (.accessRefused reason), w')) :
    ∃ events, w'.trace = w.trace ++ events ∧
      (Unfailed events →
        (RefusalRecorded platform instanceName events ↔ ∀ path, op ≠ .list path)) := by
  have hOpen : Open w.trace w := ⟨hWired, List.prefix_rfl⟩
  by_cases hList : ∀ path, op ≠ .list path
  · have hPost := run_recorded platform layer db env instanceName op hList w.trace w hOpen
    rw [hRefused] at hPost
    obtain ⟨events, hEvents, hRecorded⟩ := hPost
    exact ⟨events, hEvents, fun hUnfailed => iff_of_true (hRecorded reason rfl hUnfailed) hList⟩
  · have hPath : ∃ path, op = .list path := by
      simpa only [ne_eq, not_forall, not_not] using hList
    obtain ⟨path, rfl⟩ := hPath
    have hRun : Effect.Triple (fun w' => Open w.trace w' ∧ w'.trace = w.trace)
        (Operation.run platform layer db env instanceName (.list path))
        (fun _ => Open w.trace) (Refuses w.trace Unrecorded) :=
      (list_unrecorded platform layer db env instanceName path w.trace).bind
        fun _ => .pure fun _ h => h
    have hPost := hRun w ⟨hOpen, rfl⟩
    rw [hRefused] at hPost
    obtain ⟨events, hEvents, hNone⟩ := hPost
    refine ⟨events, hEvents, fun _ => iff_of_false ?_ hList⟩
    rintro ⟨entry, files, hMem, _⟩
    exact hNone reason rfl entry files hMem

end Operations

theorem refusal_recorded_iff_read :
    let run := ((Operation.read ['b'] none).run plainPlatform oneClient
      (oneGrant ⟨['a'], WRITE⟩) calm ['p']).run opened
    ∃ events, run.2.trace = opened.trace ++ events ∧
      (Unfailed events →
        (RefusalRecorded plainPlatform ['p'] events ↔
          ∀ path, Operation.read ['b'] none ≠ .list path)) :=
  refusal_recorded_iff plainPlatform oneClient (oneGrant ⟨['a'], WRITE⟩) calm ['p']
    (.read ['b'] none) opened _ "path not covered by any active grant".toList rfl
    (Prod.ext (by decide +kernel) rfl)

/-- The same path listed: refused by the wall, and nothing was written. -/
theorem list_refusal_unrecorded :
    let run := ((Operation.list ['b']).run plainPlatform oneClient
      (oneGrant ⟨['a'], WRITE⟩) calm ['p']).run opened
    run.1 = .error (.accessRefused "path not covered by any active grant".toList) ∧
      opened.audit.isSome = true ∧ run.2.audit = opened.audit ∧
      Unfailed run.2.trace ∧ ¬ RefusalRecorded plainPlatform ['p'] run.2.trace := by
  have hTrace : (((Operation.list ['b']).run plainPlatform oneClient
      (oneGrant ⟨['a'], WRITE⟩) calm ['p']).run opened).2.trace =
      [.checked ['p'] ['b'] READ 1 1
        ⟨false, none, "path not covered by any active grant".toList⟩] := by decide +kernel
  dsimp only
  rw [hTrace]
  refine ⟨by decide +kernel, rfl, rfl, by simp [Unfailed], ?_⟩
  rintro ⟨entry, files, hMem, _⟩
  simp at hMem

end AccessBroker.Nextcloud
