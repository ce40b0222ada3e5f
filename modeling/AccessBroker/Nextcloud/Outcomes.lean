import AccessBroker.Nextcloud.Mediation

/-! # What a part of an operation leaves behind

The records that were written and the verbs that were called, for each part of an
operation, together with the condition on the answers of the environment under which
the part succeeds.
-/

namespace AccessBroker.Nextcloud
open Py Paths Grants Audit
set_option autoImplicit false

/-- What is added to the trace are exactly these records and these calls. -/
def Leaves (w w' : World) (written : Entry → Prop) (called : Text → Verb → Prop) : Prop :=
  ∃ events, w'.trace = w.trace ++ events ∧
    (∀ entry, (∃ files, .appended entry files ∈ events) ↔ written entry) ∧
    ∀ name call, .verb name call ∈ events ↔ called name call

def nothing {α : Type} (_ : α) : Prop := False

def noCall (_ : Text) (_ : Verb) : Prop := False

/-- The record of this entry at question `k` is going to be written. -/
structure Recordable (env : Environment) (k : Nat) (writer : AuditLog) (entry : Entry) : Prop where
  writes : Writes writer entry
  append : (env.writes k).1 = .completes
  checkpoint : (env.writes k).2 = .completes
  count : tooLong (writer.lines + 1) = false

/-- No log is wired, or its record is going to be written. -/
def Permits (env : Environment) (k : Nat) (audit : Option AuditState) (entry : Entry) : Prop :=
  ∀ s, audit = some s → Recordable env k s.writer entry

def PermitsNext (env : Environment) (k : Nat) (audit : Option AuditState) (entry : Entry) : Prop :=
  ∀ s, audit = some s → Recordable env k { s.writer with lines := s.writer.lines + 1 } entry

def Records (env : Environment) (k : Nat) (audit : Option AuditState) (entry : Entry) : Prop :=
  ∃ s, audit = some s ∧ Recordable env k s.writer entry

/-- The writer as `wire_components` opens it. -/
def Unsecretive (audit : Option AuditState) : Prop :=
  ∀ s, audit = some s → s.writer.secrets = []

structure Writable (env : Environment) (k : Nat) (writer : AuditLog) : Prop where
  append : (env.writes k).1 = .completes
  checkpoint : (env.writes k).2 = .completes
  count : tooLong (writer.lines + 1) = false

/-- What the wall asks of a path, with the grants read and judged at questions `k` and `k + 1`. -/
structure Passes (platform : Platform) (layer : Layer) (db : Database) (clock : Nat → Int)
    (k : Nat) (instanceName path mode norm : Text) : Prop where
  known : (layer.clients.lookup instanceName).isSome = true
  guard : namespaceGuard platform path = some norm
  allowed : (checkAccess norm mode (grantsAt layer db (clock k) instanceName)
    (clock (k + 1))).allowed = true

section Leaving

variable {w w' between : World} {written more : Entry → Prop} {called : Text → Verb → Prop}

theorem Leaves.refl (w : World) : Leaves w w nothing noCall :=
  ⟨[], (List.append_nil _).symm, by simp [nothing], by simp [noCall]⟩

theorem Leaves.quiet {event : Event} (hEntry : ∀ entry files, event ≠ .appended entry files)
    (hCall : ∀ name call, event ≠ .verb name call) (hTrace : w'.trace = w.trace ++ [event]) :
    Leaves w w' nothing noCall := by
  refine ⟨[event], hTrace, fun entry => ?_, fun name call => ?_⟩
  · refine iff_of_false ?_ id
    rintro ⟨files, hMem⟩
    exact hEntry entry files (List.mem_singleton.mp hMem).symm
  · exact iff_of_false (fun hMem => hCall name call (List.mem_singleton.mp hMem).symm) id

theorem Leaves.record {entry : Entry} {files : Files}
    (hTrace : w'.trace = w.trace ++ [.appended entry files]) :
    Leaves w w' (fun e => e = entry) noCall := by
  refine ⟨[.appended entry files], hTrace, fun e => ?_, by simp [noCall]⟩
  simp

theorem Leaves.call {instanceName : Text} {call : Verb}
    (hTrace : w'.trace = w.trace ++ [.verb instanceName call]) :
    Leaves w w' nothing fun name c => name = instanceName ∧ c = call := by
  refine ⟨[.verb instanceName call], hTrace, by simp [nothing], by simp⟩

theorem Leaves.trans {calledMore : Text → Verb → Prop} (hFirst : Leaves w between written called)
    (hSecond : Leaves between w' more calledMore) :
    Leaves w w' (fun e => written e ∨ more e) fun name c => called name c ∨ calledMore name c := by
  obtain ⟨events, hEvents, hWritten, hCalled⟩ := hFirst
  obtain ⟨others, hOthers, hMore, hCalledMore⟩ := hSecond
  refine ⟨events ++ others, by rw [hOthers, hEvents, List.append_assoc], fun e => ?_,
    fun name c => ?_⟩
  · simp only [List.mem_append, exists_or, hWritten, hMore]
  · simp only [List.mem_append, hCalled, hCalledMore]

theorem Leaves.congr {written' : Entry → Prop} {called' : Text → Verb → Prop}
    (h : Leaves w w' written called) (hWritten : ∀ e, written e ↔ written' e)
    (hCalled : ∀ name c, called name c ↔ called' name c) : Leaves w w' written' called' := by
  obtain ⟨events, hEvents, hEntries, hCalls⟩ := h
  exact ⟨events, hEvents, fun e => (hEntries e).trans (hWritten e),
    fun name c => (hCalls name c).trans (hCalled name c)⟩

theorem Leaves.after (hFirst : Leaves w between nothing noCall)
    (hSecond : Leaves between w' written called) : Leaves w w' written called :=
  (hFirst.trans hSecond).congr (fun _ => iff_of_eq (false_or _)) fun _ _ => iff_of_eq (false_or _)

end Leaving

section Parts

variable (platform : Platform) (layer : Layer) (db : Database) (env : Environment)
variable (instanceName : Text) (w : World)

theorem recordable_congr {env : Environment} {k : Nat} {log log' : AuditLog} {entry : Entry}
    (hSecrets : log.secrets = log'.secrets) (hLines : log.lines = log'.lines) :
    Recordable env k log entry ↔ Recordable env k log' entry := by
  have hWrites : Writes log entry ↔ Writes log' entry := by
    rw [Writes, Writes, checkSecrets, checkSecrets, hSecrets]
  constructor
  · exact fun h => ⟨hWrites.mp h.writes, h.append, h.checkpoint, hLines ▸ h.count⟩
  · exact fun h => ⟨hWrites.mpr h.writes, h.append, h.checkpoint, hLines ▸ h.count⟩

theorem recordable_iff {env : Environment} {k : Nat} {log : AuditLog} {entry : Entry}
    (hSecrets : log.secrets = []) (hId : entry.grantId = none) (hInject : entry.failInject = false) :
    Recordable env k log entry ↔ Writable env k log := by
  constructor
  · exact fun h => ⟨h.append, h.checkpoint, h.count⟩
  · refine fun h => ⟨⟨?_, by rw [hId]; rfl, hInject⟩, h.append, h.checkpoint, h.count⟩
    simp [checkSecrets, hSecrets]

theorem auditRecord_leaves (s : AuditState) (entry : Entry) :
    (Recordable env w.asked s.writer entry ∧ ∃ s' : AuditState,
      (auditRecord platform env s entry).run w =
        (.ok (), ⟨some s', w.asked + 1, w.trace ++ [.appended entry s'.files]⟩) ∧
      s'.writer.secrets = s.writer.secrets ∧ s'.writer.lines = s.writer.lines + 1) ∨
    (¬ Recordable env w.asked s.writer entry ∧ ∃ err w',
      (auditRecord platform env s entry).run w = (.error err, w') ∧ Leaves w w' nothing noCall) := by
  simp only [auditRecord]
  rcases record_cases platform.sha256 (env.stamp w.asked) entry (env.writes w.asked).1
    (env.writes w.asked).2 s with
    ⟨err, hNot, hRun⟩ | ⟨err, _, hAppend, hRun⟩ | ⟨result, hWrites, hAppend, hRun, hResult⟩
  · rw [hRun]
    exact Or.inr ⟨fun h => hNot h.writes, _, _, rfl, .quiet (by simp) (by simp) rfl⟩
  · rw [hRun]
    exact Or.inr ⟨fun h => hAppend h.append, _, _, rfl, .quiet (by simp) (by simp) rfl⟩
  · rw [hRun]
    cases result with
    | ok _ =>
      obtain ⟨hCheckpoint, hCount⟩ := hResult.mp rfl
      exact Or.inl ⟨⟨hWrites, hAppend, hCheckpoint, hCount⟩, _, rfl, rfl, rfl⟩
    | error err =>
      refine Or.inr ⟨fun h => ?_, _, _, rfl, .quiet (by simp) (by simp) rfl⟩
      have hOk := hResult.mpr ⟨h.checkpoint, h.count⟩
      cases hOk

theorem refuse_leaves (path operation reason : Text) (err : LayerError) :
    ∃ w', (do
        auditRefusal platform layer env instanceName path operation reason
        Effect.raise err : Run Text).run w = (.error err, w') ∧
      Leaves w w' (fun e => e = refusedEntry layer instanceName path operation reason ∧
        Records env w.asked w.audit e) noCall := by
  have hRefusal : ∃ w',
      (auditRefusal platform layer env instanceName path operation reason).run w = (.ok (), w') ∧
      Leaves w w' (fun e => e = refusedEntry layer instanceName path operation reason ∧
        Records env w.asked w.audit e) noCall := by
    rw [auditRefusal, Effect.bind_ok (Effect.get_run w)]
    cases w.audit with
    | none =>
      refine ⟨w, rfl, (Leaves.refl w).congr (fun e => ?_) fun _ _ => Iff.rfl⟩
      refine iff_of_false id ?_
      rintro ⟨_, s, hs, _⟩
      cases hs
    | some s =>
      dsimp only
      rcases auditRecord_leaves platform env w s
          (refusedEntry layer instanceName path operation reason) with
        ⟨hRecordable, s', hRun, _⟩ | ⟨hNot, err, w', hRun, hLeaves⟩
      · refine ⟨_, Effect.handle_ok hRun, (Leaves.record rfl).congr (fun e => ?_) fun _ _ => Iff.rfl⟩
        constructor
        · rintro rfl
          exact ⟨rfl, s, rfl, hRecordable⟩
        · exact fun h => h.1
      · refine ⟨w', Effect.handle_error hRun, hLeaves.congr (fun e => ?_) fun _ _ => Iff.rfl⟩
        refine iff_of_false id ?_
        rintro ⟨rfl, s', hs, hRecordable⟩
        cases hs
        exact hNot hRecordable
  obtain ⟨w', hRun, hLeaves⟩ := hRefusal
  exact ⟨w', Effect.bind_ok hRun, hLeaves⟩

def callQuestion (w : World) : Nat := w.asked + if w.audit.isSome then 1 else 0

theorem callQuestion_congr {w w' : World} (hAsked : w.asked = w'.asked)
    (hAudit : w.audit.isSome = w'.audit.isSome) : callQuestion w = callQuestion w' := by
  rw [callQuestion, callQuestion, hAsked, hAudit]

theorem callVerb_leaves (call : Verb) :
    ∃ result, (scrubErrors layer instanceName (callVerb env instanceName call)).run w =
        (result, { w with asked := w.asked + 1, trace := w.trace ++ [.verb instanceName call] }) ∧
      ∀ reply, result = .ok reply ↔ env.reply w.asked = .ok reply := by
  rw [scrubErrors]
  cases hReply : env.reply w.asked with
  | ok reply =>
    refine ⟨.ok reply, Effect.handle_ok ?_, by simp⟩
    simp only [callVerb, hReply]
  | error err =>
    cases err with
    | webDav status message =>
      refine ⟨_, (Effect.handle_error (e := .webDav status message) ?_).trans rfl, by simp⟩
      simp only [callVerb, hReply]
    | other exc =>
      refine ⟨_, (Effect.handle_error (e := .transport exc) ?_).trans rfl, by simp⟩
      simp only [callVerb, hReply]

/-- The record comes first; without it the verb is not called. -/
theorem auditAnd_leaves (path operation reason : Text) (call : Verb) (principal : Option Text) :
    let entry := allowedEntry layer instanceName path operation reason principal
    (Permits env w.asked w.audit entry ∧ ∃ result w',
      (auditAnd platform layer env instanceName path operation reason call principal).run w =
        (result, w') ∧
      (∀ reply, result = .ok reply ↔ env.reply (callQuestion w) = .ok reply) ∧
      w'.asked = callQuestion w + 1 ∧
      (∀ k e, Permits env k w'.audit e ↔ PermitsNext env k w.audit e) ∧
      w'.audit.isSome = w.audit.isSome ∧
      Leaves w w' (fun e => e = entry ∧ w.audit.isSome = true)
        fun name c => name = instanceName ∧ c = call) ∨
    (¬ Permits env w.asked w.audit entry ∧ ∃ err w',
      (auditAnd platform layer env instanceName path operation reason call principal).run w =
        (.error err, w') ∧ Leaves w w' nothing noCall) := by
  intro entry
  rw [auditAnd, Effect.bind_ok (Effect.get_run w)]
  cases hAudit : w.audit with
  | none =>
    obtain ⟨result, hRun, hResult⟩ := callVerb_leaves layer env instanceName w call
    refine Or.inl ⟨fun s hs => (by cases hs), result, _, hRun, ?_, ?_, ?_, ?_, ?_⟩
    · rw [callQuestion, hAudit]
      exact hResult
    · rw [callQuestion, hAudit]
      rfl
    · intro k e
      rw [hAudit, Permits, PermitsNext]
      simp
    · rw [hAudit]
    · exact (Leaves.call rfl).congr (by simp [nothing]) fun _ _ => Iff.rfl
  | some s =>
    dsimp only
    rcases auditRecord_leaves platform env w s entry with
      ⟨hRecordable, s', hRun, hSecrets, hLines⟩ | ⟨hNot, err, w', hRun, hLeaves⟩
    · rw [Effect.bind_ok hRun]
      obtain ⟨result, hCall, hResult⟩ := callVerb_leaves layer env instanceName
        ⟨some s', w.asked + 1, w.trace ++ [.appended entry s'.files]⟩ call
      refine Or.inl ⟨?_, result, _, hCall, ?_, ?_, ?_, rfl, ?_⟩
      · rintro _ ⟨⟩
        exact hRecordable
      · rw [callQuestion, hAudit]
        exact hResult
      · rw [callQuestion, hAudit]
        rfl
      · intro k e
        simp only [Permits, PermitsNext, Option.some.injEq, forall_eq']
        exact recordable_congr hSecrets hLines
      · have hRecord : Leaves w ⟨some s', w.asked + 1, w.trace ++ [.appended entry s'.files]⟩
            (fun e => e = entry) noCall := .record rfl
        have hCalled : Leaves ⟨some s', w.asked + 1, w.trace ++ [.appended entry s'.files]⟩
            ⟨some s', w.asked + 1 + 1, w.trace ++ [.appended entry s'.files] ++
              [.verb instanceName call]⟩ nothing fun name c => name = instanceName ∧ c = call :=
          .call rfl
        refine (hRecord.trans hCalled).congr (fun e => ?_) fun name c => ?_
        · simp [nothing]
        · simp [noCall]
    · rw [Effect.bind_error hRun]
      exact Or.inr ⟨fun h => hNot (h s rfl), err, w', rfl, hLeaves⟩

/-! ## The wall -/

/-- The question at which `_authorized` records a refusal: at once, or after both clocks. -/
def refusalQuestion (k : Nat) (path : Text) : Nat :=
  k + if (layer.clients.lookup instanceName).isSome ∧ (namespaceGuard platform path).isSome
    then 2 else 0

/-- The outcome of a wall site: the path it returns passed, or nothing passes. Of the two
sites one records its refusals. -/
def Decides (path mode : Text) (site : Run Text) (recording : Prop) : Prop :=
  (∃ norm w', Passes platform layer db env.clock w.asked instanceName path mode norm ∧
      site.run w = (.ok norm, w') ∧ w'.asked = w.asked + 2 ∧ w'.audit = w.audit ∧
      Leaves w w' nothing noCall) ∨
    ((∀ norm, ¬ Passes platform layer db env.clock w.asked instanceName path mode norm) ∧
      ∃ err w' shown reason, site.run w = (.error err, w') ∧
        Leaves w w' (fun e => recording ∧ e = refusedEntry layer instanceName shown mode reason ∧
          Records env (refusalQuestion platform layer instanceName w.asked path) w.audit e) noCall)

end Parts

section Sites

variable {platform : Platform} {layer : Layer} {db : Database} {env : Environment}
variable {instanceName path mode : Text} {w : World}

theorem Passes.norm_eq {clock : Nat → Int} {k : Nat} {norm norm' : Text}
    (h : Passes platform layer db clock k instanceName path mode norm)
    (hGuard : namespaceGuard platform path = some norm') : norm = norm' := by
  have hSame := h.guard.symm.trans hGuard
  exact Option.some.inj hSame

theorem not_passes_unknown {clock : Nat → Int} {k : Nat}
    (hUnknown : layer.clients.lookup instanceName = none) (norm : Text) :
    ¬ Passes platform layer db clock k instanceName path mode norm := by
  intro h
  have hKnown := h.known
  rw [hUnknown] at hKnown
  cases hKnown

theorem not_passes_forbidden {clock : Nat → Int} {k : Nat}
    (hForbidden : namespaceGuard platform path = none) (norm : Text) :
    ¬ Passes platform layer db clock k instanceName path mode norm := by
  intro h
  have hGuard := h.guard
  rw [hForbidden] at hGuard
  cases hGuard

theorem wall_decides {norm : Text} {refuse : Decision → Run Text} {recording : Prop}
    (hKnown : (layer.clients.lookup instanceName).isSome = true)
    (hGuard : namespaceGuard platform path = some norm)
    (hRefuse : ∀ (decision : Decision) (w : World), ∃ err w' shown reason,
      (refuse decision).run w = (.error err, w') ∧
      Leaves w w' (fun e => recording ∧ e = refusedEntry layer instanceName shown mode reason ∧
        Records env w.asked w.audit e) noCall) :
    Decides platform layer db env instanceName w path mode (do
      let decision ← wall layer db env instanceName norm mode
      if decision.allowed then return norm else refuse decision) recording := by
  obtain ⟨w₁, hWall, hAsked, hAudit, hTrace⟩ := wall_run layer db env instanceName norm mode w
  have hQuiet : Leaves w w₁ nothing noCall := .quiet (by simp) (by simp) hTrace
  by_cases hAllowed : (checkAccess norm mode (grantsAt layer db (env.clock w.asked) instanceName)
      (env.clock (w.asked + 1))).allowed = true
  · refine Or.inl ⟨norm, w₁, ⟨hKnown, hGuard, hAllowed⟩, ?_, hAsked, hAudit, hQuiet⟩
    rw [Effect.bind_ok hWall, if_pos hAllowed]
    rfl
  · obtain ⟨err, w₂, shown, reason, hRun, hLeaves⟩ := hRefuse (checkAccess norm mode
      (grantsAt layer db (env.clock w.asked) instanceName) (env.clock (w.asked + 1))) w₁
    have hQuestion : refusalQuestion platform layer instanceName w.asked path = w₁.asked := by
      rw [refusalQuestion, hGuard, if_pos ⟨hKnown, rfl⟩, hAsked]
    refine Or.inr ⟨fun norm' h => ?_, err, w₂, shown, reason, ?_, ?_⟩
    · cases h.norm_eq hGuard
      exact hAllowed h.allowed
    · rw [Effect.bind_ok hWall, if_neg hAllowed]
      exact hRun
    · rw [hQuestion, ← hAudit]
      exact hQuiet.after hLeaves

theorem authorized_decides (platform : Platform) (layer : Layer) (db : Database)
    (env : Environment) (instanceName path mode : Text) (w : World) :
    Decides platform layer db env instanceName w path mode
      (authorized platform layer db env instanceName path mode) True := by
  rw [authorized]
  cases hClient : layer.clients.lookup instanceName with
  | none =>
    obtain ⟨w', hRun, hLeaves⟩ := refuse_leaves platform layer env instanceName w path mode
      (unknownInstance platform instanceName) (.accessRefused
        (unknownInstance platform instanceName ++ " (not configured)".toList))
    refine Or.inr ⟨not_passes_unknown hClient, _, w', path,
      unknownInstance platform instanceName, hRun, ?_⟩
    simpa [refusalQuestion, hClient] using hLeaves
  | some client =>
    have hKnown : (layer.clients.lookup instanceName).isSome = true := by
      rw [hClient]
      rfl
    dsimp only
    cases hGuard : namespaceGuard platform path with
    | none =>
      obtain ⟨w', hRun, hLeaves⟩ := refuse_leaves platform layer env instanceName w path mode
        "forbidden namespace".toList (.accessRefused "path is in a forbidden namespace".toList)
      refine Or.inr ⟨not_passes_forbidden hGuard, _, w', path, "forbidden namespace".toList, hRun, ?_⟩
      simpa [refusalQuestion, hGuard] using hLeaves
    | some norm =>
      apply wall_decides hKnown hGuard
      intro decision w
      obtain ⟨w', hRun, hLeaves⟩ := refuse_leaves platform layer env instanceName w norm mode
        decision.reason (.accessRefused decision.reason)
      refine ⟨_, w', norm, decision.reason, hRun, ?_⟩
      simpa using hLeaves

/-- The check tool says yes exactly where the wall lets through, and calls no verb for it. -/
theorem checkAccessTool_answers (platform : Platform) (layer : Layer) (db : Database)
    (env : Environment) (instanceName path mode : Text) (w : World) :
    ∃ answer w' written,
      (checkAccessTool platform layer db env instanceName path mode).run w = (answer, w') ∧
      (answer = .ok (true, none) ↔
        ∃ norm, Passes platform layer db env.clock w.asked instanceName path mode norm) ∧
      Leaves w w' written noCall := by
  rcases authorized_decides platform layer db env instanceName path mode w with
    ⟨norm, w', hPasses, hRun, _, _, hLeaves⟩ | ⟨hNone, err, w', shown, reason, hRun, hLeaves⟩
  · refine ⟨.ok (true, none), w', nothing, ?_, iff_of_true rfl ⟨norm, hPasses⟩, hLeaves⟩
    simp only [checkAccessTool, hRun]
  · have hAnswer : ∃ answer,
        (checkAccessTool platform layer db env instanceName path mode).run w = (answer, w') ∧
        answer ≠ .ok (true, none) := by
      simp only [checkAccessTool, hRun]
      -- a refusal of the wall is the answer no; any other exception goes on
      cases err <;> exact ⟨_, rfl, by simp⟩
    obtain ⟨answer, hAnswer, hNot⟩ := hAnswer
    exact ⟨answer, w', _, hAnswer, iff_of_false hNot fun ⟨norm, h⟩ => hNone norm h, hLeaves⟩

theorem list_decides (platform : Platform) (layer : Layer) (db : Database)
    (env : Environment) (instanceName path : Text) (w : World)
    (hDiscovery : instanceName ∉ layer.discoveryInstances) :
    ∃ site, Decides platform layer db env instanceName w path READ site False ∧
      list platform layer db env instanceName path = (do
        let norm ← site
        auditAnd platform layer env instanceName norm "list".toList "granted read".toList
          (.propfind norm) none : Run Reply) := by
  have hSilent (shown reason : Text) (w : World) : Leaves w w (fun e => False ∧
      e = refusedEntry layer instanceName shown READ reason ∧
      Records env (refusalQuestion platform layer instanceName w.asked path) w.audit e) noCall :=
    (Leaves.refl w).congr (by simp [nothing]) fun _ _ => Iff.rfl
  rw [list]
  cases hClient : layer.clients.lookup instanceName with
  | none =>
    refine ⟨Effect.raise (.accessRefused
      (unknownInstance platform instanceName ++ " (not configured)".toList)), ?_, rfl⟩
    exact Or.inr ⟨not_passes_unknown hClient, _, w, [], [], rfl, hSilent [] [] w⟩
  | some client =>
    have hKnown : (layer.clients.lookup instanceName).isSome = true := by
      rw [hClient]
      rfl
    dsimp only
    cases hGuard : namespaceGuard platform path with
    | none =>
      refine ⟨Effect.raise (.accessRefused "path is in a forbidden namespace".toList), ?_, rfl⟩
      exact Or.inr ⟨not_passes_forbidden hGuard, _, w, [], [], rfl, hSilent [] [] w⟩
    | some norm =>
      refine ⟨authorizedRead layer db env instanceName norm, ?_, if_neg hDiscovery⟩
      apply wall_decides hKnown hGuard
      intro decision w
      exact ⟨_, w, [], [], rfl, (Leaves.refl w).congr (by simp [nothing]) fun _ _ => Iff.rfl⟩

end Sites

end AccessBroker.Nextcloud
