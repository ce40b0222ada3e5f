import AccessBroker.Audit.Recording
import AccessBroker.Library.Machine
import AccessBroker.Nextcloud

/-! # Complete mediation

Each call of a transport verb comes right after the record that names it, and after
the path checker admitted the very path strings it is given.
-/

namespace AccessBroker.Nextcloud
open Py Paths Grants Audit
set_option autoImplicit false

/-! ## What a call is recorded as -/

/-- The path arguments of an operation with the modes they are checked for. -/
def Operation.targets : Operation → List (Text × Text)
  | .list path | .read path _ => [(path, READ)]
  | .write path _ _ | .trash path | .mkdir path | .checkout path _ _ | .checkin path _ _ _ =>
    [(path, WRITE)]
  | .move src dst => [(src, WRITE), (dst, WRITE)]

def Operation.recordedAs : Operation → Verb → Text
  | .list _, _ => "list".toList
  | .read _ _, _ => "read".toList
  | .write _ _ _, _ => "write".toList
  | .move _ _, _ => "move".toList
  | .trash _, _ => "trash".toList
  | .mkdir _, _ => "mkdir".toList
  | .checkout _ _ _, .get _ => "read".toList
  | .checkout _ _ _, _ => "checkout".toList
  | .checkin _ _ _ _, .unlock _ _ => "checkin-unlock".toList
  | .checkin _ _ _ _, _ => "checkin".toList

def Verb.pathText : Verb → Text
  | propfind path | get path | put path _ _ | delete path | mkcol path | lock path _
  | unlock path _ => path
  | move src dst => moveText src dst

def Verb.writes : Verb → Bool
  | propfind _ | get _ => false
  | put _ _ _ | move _ _ | delete _ | mkcol _ | lock _ _ | unlock _ _ => true

/-- A verb that changes something belongs to an operation checked for writing. -/
def Operation.Sufficient (op : Operation) (call : Verb) : Prop :=
  call.writes = true → ∀ target ∈ op.targets, target.2 = WRITE

structure Names (op : Operation) (instanceName : Text) (call : Verb) (entry : Entry) : Prop where
  instanceName : entry.instanceName = instanceName
  operation : entry.operation = op.recordedAs call
  path : entry.path = call.pathText
  decision : entry.decision = "allowed".toList

def EndsWith (platform : Platform) (files : Files) (entry : Entry) : Prop :=
  ∃ text prev stamp, files.log = some (text ++ recordLine platform.sha256 prev stamp entry)

section Discipline

variable (platform : Platform) (layer : Layer) (db : Database) (env : Environment)
variable (instanceName : Text) (op : Operation)

/-! ## What has to come before a call -/

/-- The checker was asked at question `k` about the normalized path, and allowed it. -/
structure AdmittedAt (path mode norm : Text) (k : Nat) (before : List Event) : Prop where
  known : (layer.clients.lookup instanceName).isSome = true
  guard : namespaceGuard platform path = some norm
  allowed : (checkAccess norm mode (grantsAt layer db (env.clock k) instanceName)
    (env.clock (k + 1))).allowed = true
  checked : .checked instanceName norm mode (env.clock k) (env.clock (k + 1))
    (checkAccess norm mode (grantsAt layer db (env.clock k) instanceName)
      (env.clock (k + 1))) ∈ before

/-- The targets were admitted one after the other, from question `k` on. -/
def AllAdmitted (before : List Event) : Nat → List (Text × Text) → List Text → Prop
  | _, [], [] => True
  | k, (path, mode) :: targets, norm :: norms =>
    AdmittedAt platform layer db env instanceName path mode norm k before ∧
      AllAdmitted before (k + 2) targets norms
  | _, _, _ => False

def Discovered (call : Verb) : Prop :=
  ∃ path norm, op = .list path ∧ namespaceGuard platform path = some norm ∧
    call = .propfind norm ∧ instanceName ∈ layer.discoveryInstances

def Unfailed (before : List Event) : Prop := ∀ entry cause, .appendFailed entry cause ∉ before

structure Mediated (wired : Bool) (start : Nat) (before : List Event) (call : Verb) : Prop where
  admitted : Discovered platform layer instanceName op call ∨
    AllAdmitted platform layer db env instanceName before start op.targets call.paths
  sufficient : op.Sufficient call
  recorded : wired = true → ∃ earlier entry files, before = earlier ++ [.appended entry files] ∧
    Names op instanceName call entry ∧ EndsWith platform files entry
  unfailed : Unfailed before

def Allows (wired : Bool) (start : Nat) (before : List Event) (event : Event) : Prop :=
  ∀ name call, event = .verb name call → name = instanceName ∧
    Mediated platform layer db env instanceName op wired start before call

/-- The operation is under way: nothing failed, and `F` holds of what happened since. -/
def UnderWay (wired : Bool) (start : Nat) (trace : List Event) (F : Nat → List Event → Prop)
    (w : World) : Prop :=
  ∃ events, w.trace = trace ++ events ∧ w.audit.isSome = wired ∧
    Machine.Justified (Allows platform layer db env instanceName op wired start) events ∧
    Unfailed events ∧ F w.asked events

def Raised (wired : Bool) (start : Nat) (trace : List Event) (w : World) : Prop :=
  ∃ events, w.trace = trace ++ events ∧
    Machine.Justified (Allows platform layer db env instanceName op wired start) events

end Discipline

theorem Operation.Sufficient.read {op : Operation} {call : Verb} (h : call.writes = false) :
    op.Sufficient call := by
  intro hWrites
  rw [h] at hWrites
  cases hWrites

theorem Operation.Sufficient.write {op : Operation} {call : Verb} {path : Text}
    (h : op.targets = [(path, WRITE)]) : op.Sufficient call := by
  intro _ target hTarget
  rw [h, List.mem_singleton] at hTarget
  rw [hTarget]

section Steps

variable {platform : Platform} {layer : Layer} {db : Database} {env : Environment}
variable {instanceName : Text} {op : Operation} {wired : Bool} {start : Nat} {trace : List Event}

theorem UnderWay.raised {F : Nat → List Event → Prop} {w : World}
    (h : UnderWay platform layer db env instanceName op wired start trace F w) :
    Raised platform layer db env instanceName op wired start trace w := by
  obtain ⟨events, hTrace, _, hJustified, _⟩ := h
  exact ⟨events, hTrace, hJustified⟩

theorem Unfailed.concat {before : List Event} (h : Unfailed before) {event : Event}
    (hEvent : ∀ entry cause, event ≠ .appendFailed entry cause) :
    Unfailed (before ++ [event]) := by
  intro entry cause hMem
  rcases List.mem_append.mp hMem with hMem | hMem
  · exact h entry cause hMem
  · exact hEvent entry cause (List.mem_singleton.mp hMem).symm

theorem AdmittedAt.mono {path mode norm : Text} {k : Nat} {before more : List Event}
    (h : AdmittedAt platform layer db env instanceName path mode norm k before)
    (hSub : before ⊆ more) :
    AdmittedAt platform layer db env instanceName path mode norm k more :=
  ⟨h.known, h.guard, h.allowed, hSub h.checked⟩

theorem AllAdmitted.mono {before more : List Event} (hSub : before ⊆ more) :
    ∀ {k : Nat} {targets : List (Text × Text)} {norms : List Text},
      AllAdmitted platform layer db env instanceName before k targets norms →
      AllAdmitted platform layer db env instanceName more k targets norms
  | _, [], [], _ => trivial
  | _, _ :: _, _ :: _, h => ⟨h.1.mono hSub, AllAdmitted.mono hSub h.2⟩
  | _, _ :: _, [], h => h.elim
  | _, [], _ :: _, h => h.elim

theorem Raised.concat {w : World}
    (h : Raised platform layer db env instanceName op wired start trace w) {event : Event}
    (hEvent : ∀ name call, event ≠ .verb name call) {w' : World}
    (hTrace : w'.trace = w.trace ++ [event]) :
    Raised platform layer db env instanceName op wired start trace w' := by
  obtain ⟨events, hEvents, hJustified⟩ := h
  exact ⟨events ++ [event], by rw [hTrace, hEvents, List.append_assoc],
    hJustified.concat fun name call hVerb => absurd hVerb (hEvent name call)⟩

/-! ## Records and calls -/

theorem auditRecord_cases (platform : Platform) (env : Environment) (s : AuditState) (entry : Entry) (w : World) :
    (∃ s', (auditRecord platform env s entry).run w =
        (.ok (), ⟨some s', w.asked + 1, w.trace ++ [.appended entry s'.files]⟩) ∧
      EndsWith platform s'.files entry) ∨
    ∃ s' cause, (auditRecord platform env s entry).run w =
      (.error (.audit cause), ⟨some s', w.asked + 1, w.trace ++ [.appendFailed entry cause]⟩) := by
  simp only [auditRecord]
  rcases record_cases platform.sha256 (env.stamp w.asked) entry (env.writes w.asked).1
    (env.writes w.asked).2 s with ⟨err, _, hRun⟩ | ⟨err, _, _, hRun⟩ | ⟨result, _, _, hRun, _⟩
  · exact Or.inr ⟨_, err, by rw [hRun]⟩
  · exact Or.inr ⟨_, err, by rw [hRun]⟩
  · rw [hRun]
    cases result with
    | error err => exact Or.inr ⟨_, err, rfl⟩
    | ok _ => exact Or.inl ⟨_, rfl, _, s.writer.prevSha256, _, rfl⟩

theorem callVerb_run (layer : Layer) (env : Environment) (name : Text) (call : Verb) (w : World) :
    ∃ result, (scrubErrors layer name (callVerb env name call)).run w =
      (result, { w with asked := w.asked + 1, trace := w.trace ++ [.verb name call] }) := by
  rw [scrubErrors]
  cases hReply : env.reply w.asked with
  | ok reply =>
    refine ⟨.ok reply, Effect.handle_ok ?_⟩
    simp only [callVerb, hReply]
  | error err =>
    cases err with
    | webDav status message =>
      refine ⟨_, (Effect.handle_error (e := .webDav status message) ?_).trans rfl⟩
      simp only [callVerb, hReply]
    | other exc =>
      refine ⟨_, (Effect.handle_error (e := .transport exc) ?_).trans rfl⟩
      simp only [callVerb, hReply]

theorem auditRefusal_spec (path operation reason : Text) :
    Effect.Triple (Raised platform layer db env instanceName op wired start trace)
      (auditRefusal platform layer env instanceName path operation reason)
      (fun _ => Raised platform layer db env instanceName op wired start trace)
      (fun _ => Raised platform layer db env instanceName op wired start trace) := by
  intro w hw
  rw [auditRefusal, Effect.bind_ok (Effect.get_run w)]
  cases w.audit with
  | none => exact hw
  | some s =>
    rcases auditRecord_cases platform env s _ w with ⟨s', hRun, _⟩ | ⟨s', cause, hRun⟩
    · dsimp only
      rw [Effect.handle_ok hRun]
      exact hw.concat (by simp) rfl
    · dsimp only
      rw [Effect.handle_error hRun]
      exact hw.concat (by simp) rfl

theorem callVerb_spec {w : World} {call : Verb} {events : List Event} {F : List Event → Prop}
    (hTrace : w.trace = trace ++ events) (hWired : w.audit.isSome = wired)
    (hJustified :
      Machine.Justified (Allows platform layer db env instanceName op wired start) events)
    (hMediated : Mediated platform layer db env instanceName op wired start events call)
    (hF : F (events ++ [.verb instanceName call])) :
    Effect.Post
      (fun _ => UnderWay platform layer db env instanceName op wired start trace fun _ => F)
      (fun _ => Raised platform layer db env instanceName op wired start trace)
      ((scrubErrors layer instanceName (callVerb env instanceName call)).run w) := by
  obtain ⟨result, hRun⟩ := callVerb_run layer env instanceName call w
  have hNext : UnderWay platform layer db env instanceName op wired start trace (fun _ => F)
      { w with asked := w.asked + 1, trace := w.trace ++ [.verb instanceName call] } :=
    ⟨events ++ [.verb instanceName call], by rw [hTrace, List.append_assoc], hWired,
      hJustified.concat (by rintro _ _ ⟨⟩; exact ⟨rfl, hMediated⟩),
      hMediated.unfailed.concat (by simp), hF⟩
  rw [hRun]
  cases result with
  | ok reply => exact hNext
  | error err => exact hNext.raised

/-- A call that is admitted is recorded, made, and leaves the operation under way. -/
theorem auditAnd_spec {path operation reason : Text} {call : Verb} {principal : Option Text}
    {F : List Event → Prop} (hMono : ∀ {before more}, before ⊆ more → F before → F more)
    (hAdmitted : ∀ before, F before → Discovered platform layer instanceName op call ∨
      AllAdmitted platform layer db env instanceName before start op.targets call.paths)
    (hSufficient : op.Sufficient call) (hOperation : operation = op.recordedAs call)
    (hPath : path = call.pathText) :
    Effect.Triple
      (UnderWay platform layer db env instanceName op wired start trace fun _ => F)
      (auditAnd platform layer env instanceName path operation reason call principal)
      (fun _ => UnderWay platform layer db env instanceName op wired start trace fun _ => F)
      (fun _ => Raised platform layer db env instanceName op wired start trace) := by
  rintro w ⟨events, hTrace, hWired, hJustified, hUnfailed, hF⟩
  rw [auditAnd, Effect.bind_ok (Effect.get_run w)]
  cases hAudit : w.audit with
  | none =>
    refine callVerb_spec hTrace hWired hJustified ⟨hAdmitted _ hF, hSufficient, ?_, hUnfailed⟩
      (hMono (List.subset_append_left _ _) hF)
    intro hSome
    rw [← hWired, hAudit] at hSome
    cases hSome
  | some s =>
    rw [hAudit] at hWired
    dsimp only
    rcases auditRecord_cases platform env s
        (allowedEntry layer instanceName path operation reason principal) w with
      ⟨s', hRun, hEnds⟩ | ⟨s', cause, hRun⟩
    · rw [Effect.bind_ok hRun]
      have hF' := hMono (List.subset_append_left _ [.appended
        (allowedEntry layer instanceName path operation reason principal) s'.files]) hF
      exact callVerb_spec (by rw [hTrace, List.append_assoc]) hWired
        (hJustified.concat (by rintro _ _ ⟨⟩))
        ⟨hAdmitted _ hF', hSufficient,
          fun _ => ⟨events, _, s'.files, rfl, ⟨rfl, hOperation, hPath, rfl⟩, hEnds⟩,
          hUnfailed.concat (by simp)⟩
        (hMono (List.subset_append_left _ _) hF')
    · rw [Effect.bind_error hRun]
      have hRaised : Raised platform layer db env instanceName op wired start trace w :=
        ⟨events, hTrace, hJustified⟩
      exact hRaised.concat (by simp) rfl

/-! ## Authorization -/

theorem wall_run (layer : Layer) (db : Database) (env : Environment) (name norm mode : Text) (w : World) :
    ∃ w', (wall layer db env name norm mode).run w =
        (.ok (checkAccess norm mode (grantsAt layer db (env.clock w.asked) name)
          (env.clock (w.asked + 1))), w') ∧
      w'.asked = w.asked + 2 ∧ w'.audit = w.audit ∧
      w'.trace = w.trace ++ [.checked name norm mode (env.clock w.asked) (env.clock (w.asked + 1))
        (checkAccess norm mode (grantsAt layer db (env.clock w.asked) name)
          (env.clock (w.asked + 1)))] :=
  ⟨_, rfl, rfl, rfl, rfl⟩

theorem AllAdmitted.concat {before : List Event} {path mode norm : Text} :
    ∀ {k : Nat} {targets : List (Text × Text)} {norms : List Text},
      AllAdmitted platform layer db env instanceName before k targets norms →
      AdmittedAt platform layer db env instanceName path mode norm (k + 2 * targets.length) before →
      AllAdmitted platform layer db env instanceName before k (targets ++ [(path, mode)])
        (norms ++ [norm])
  | _, [], [], _, h => ⟨h, trivial⟩
  | k, _ :: targets, _ :: _, hAll, h => by
    refine ⟨hAll.1, AllAdmitted.concat hAll.2 ?_⟩
    rwa [List.length_cons, Nat.mul_succ, Nat.add_comm (2 * _) 2, ← Nat.add_assoc] at h
  | _, _ :: _, [], hAll, _ => hAll.elim
  | _, [], _ :: _, hAll, _ => hAll.elim

section Authorizing

variable (platform layer db env instanceName start)

def Reached (targets : List (Text × Text)) (norms : List Text) (asked : Nat)
    (before : List Event) : Prop :=
  asked = start + 2 * targets.length ∧
    AllAdmitted platform layer db env instanceName before start targets norms

end Authorizing

/-- The checker's decision admits the next target, or the operation is refused. -/
theorem wall_spec {path mode norm : Text} {targets : List (Text × Text)} {norms : List Text}
    {refuse : Decision → Run Text} (hKnown : (layer.clients.lookup instanceName).isSome = true)
    (hGuard : namespaceGuard platform path = some norm)
    (hRefuse : ∀ decision, Effect.Triple
      (Raised platform layer db env instanceName op wired start trace) (refuse decision)
      (fun _ _ => False) (fun _ => Raised platform layer db env instanceName op wired start trace)) :
    Effect.Triple
      (UnderWay platform layer db env instanceName op wired start trace
        (Reached platform layer db env instanceName start targets norms))
      (do
        let decision ← wall layer db env instanceName norm mode
        if decision.allowed then return norm else refuse decision)
      (fun norm => UnderWay platform layer db env instanceName op wired start trace
        (Reached platform layer db env instanceName start (targets ++ [(path, mode)])
          (norms ++ [norm])))
      (fun _ => Raised platform layer db env instanceName op wired start trace) := by
  rintro w ⟨events, hTrace, hWired, hJustified, hUnfailed, hAsked, hAdmitted⟩
  obtain ⟨w', hRun, hAsked', hAudit', hTrace'⟩ :=
    wall_run layer db env instanceName norm mode w
  rw [Effect.bind_ok hRun]
  rw [hTrace, List.append_assoc] at hTrace'
  have hNext := hJustified.concat (a := .checked instanceName norm mode (env.clock w.asked)
    (env.clock (w.asked + 1)) (checkAccess norm mode (grantsAt layer db (env.clock w.asked)
      instanceName) (env.clock (w.asked + 1)))) (by rintro _ _ ⟨⟩)
  split
  · rename_i hAllowed
    refine ⟨_, hTrace', by rw [hAudit', hWired], hNext, hUnfailed.concat (by simp), ?_, ?_⟩
    · rw [hAsked', hAsked, List.length_append, List.length_singleton]
      omega
    · refine (hAdmitted.mono (List.subset_append_left _ _)).concat ?_
      rw [hAsked] at hAllowed ⊢
      exact ⟨hKnown, hGuard, hAllowed, by simp⟩
  · have hPost := hRefuse (checkAccess norm mode (grantsAt layer db (env.clock w.asked)
      instanceName) (env.clock (w.asked + 1))) w' ⟨_, hTrace', hNext⟩
    revert hPost
    cases (refuse _).run w' with
    | mk result w'' =>
      cases result with
      | ok _ => exact False.elim
      | error _ => exact id

theorem refuse_spec (path operation reason message : Text) :
    Effect.Triple (Raised platform layer db env instanceName op wired start trace)
      (do
        auditRefusal platform layer env instanceName path operation reason
        Effect.raise (.accessRefused message) : Run Text)
      (fun _ _ => False)
      (fun _ => Raised platform layer db env instanceName op wired start trace) :=
  (auditRefusal_spec path operation reason).bind fun _ => .raise fun _ h => h

theorem authorized_spec (path mode : Text) {targets : List (Text × Text)} {norms : List Text} :
    Effect.Triple
      (UnderWay platform layer db env instanceName op wired start trace
        (Reached platform layer db env instanceName start targets norms))
      (authorized platform layer db env instanceName path mode)
      (fun norm => UnderWay platform layer db env instanceName op wired start trace
        (Reached platform layer db env instanceName start (targets ++ [(path, mode)])
          (norms ++ [norm])))
      (fun _ => Raised platform layer db env instanceName op wired start trace) := by
  have hRefused : ∀ path operation reason message, Effect.Triple
      (UnderWay platform layer db env instanceName op wired start trace
        (Reached platform layer db env instanceName start targets norms))
      (do
        auditRefusal platform layer env instanceName path operation reason
        Effect.raise (.accessRefused message) : Run Text)
      (fun norm => UnderWay platform layer db env instanceName op wired start trace
        (Reached platform layer db env instanceName start (targets ++ [(path, mode)])
          (norms ++ [norm])))
      (fun _ => Raised platform layer db env instanceName op wired start trace) :=
    fun path operation reason message => (refuse_spec path operation reason message).consequence
      (fun _ h => h.raised) (fun _ _ h => h.elim) (fun _ _ h => h)
  rw [authorized]
  split
  · exact hRefused _ _ _ _
  rename_i client hClient
  split
  · exact hRefused _ _ _ _
  · rename_i hGuard
    exact wall_spec (by rw [hClient]; rfl) hGuard fun decision => refuse_spec _ _ _ _

theorem authorizedRead_spec {path norm : Text}
    (hKnown : (layer.clients.lookup instanceName).isSome = true)
    (hGuard : namespaceGuard platform path = some norm)
    {targets : List (Text × Text)} {norms : List Text} :
    Effect.Triple
      (UnderWay platform layer db env instanceName op wired start trace
        (Reached platform layer db env instanceName start targets norms))
      (authorizedRead layer db env instanceName norm)
      (fun norm => UnderWay platform layer db env instanceName op wired start trace
        (Reached platform layer db env instanceName start (targets ++ [(path, READ)])
          (norms ++ [norm])))
      (fun _ => Raised platform layer db env instanceName op wired start trace) :=
  wall_spec hKnown hGuard fun _ => .raise fun _ h => h

/-! ## The operations -/

section Calls

variable (platform layer db env instanceName op wired start trace)

def Cleared (norms : List Text) : World → Prop :=
  UnderWay platform layer db env instanceName op wired start trace fun _ before =>
    AllAdmitted platform layer db env instanceName before start op.targets norms

end Calls

theorem Cleared.of_reached {targets : List (Text × Text)} {norms : List Text} {w : World}
    (hTargets : targets = op.targets)
    (h : UnderWay platform layer db env instanceName op wired start trace
      (Reached platform layer db env instanceName start targets norms) w) :
    Cleared platform layer db env instanceName op wired start trace norms w := by
  obtain ⟨events, hTrace, hWired, hJustified, hUnfailed, _, hAdmitted⟩ := h
  rw [hTargets] at hAdmitted
  exact ⟨events, hTrace, hWired, hJustified, hUnfailed, hAdmitted⟩

/-- A recorded call of a cleared operation. -/
theorem call_spec (op : Operation) (call : Verb) {path operation reason : Text}
    {principal : Option Text} (hSufficient : op.Sufficient call)
    (hOperation : operation = op.recordedAs call) (hPath : path = call.pathText) :
    Effect.Triple
      (Cleared platform layer db env instanceName op wired start trace call.paths)
      (auditAnd platform layer env instanceName path operation reason call principal)
      (fun _ => Cleared platform layer db env instanceName op wired start trace call.paths)
      (fun _ => Raised platform layer db env instanceName op wired start trace) :=
  auditAnd_spec (fun hSub h => h.mono hSub) (fun _ h => Or.inr h) hSufficient hOperation hPath

theorem Cleared.settled {norms : List Text} {w : World}
    (h : Cleared platform layer db env instanceName op wired start trace norms w) :
    UnderWay platform layer db env instanceName op wired start trace (fun _ _ => True) w := by
  obtain ⟨events, hTrace, hWired, hJustified, hUnfailed, _⟩ := h
  exact ⟨events, hTrace, hWired, hJustified, hUnfailed, trivial⟩

/-- The operations with one path and one verb. -/
theorem single_spec (op : Operation) (call : Text → Verb) {path mode operation reason : Text}
    {principal : Option Text} (hTargets : [(path, mode)] = op.targets)
    (hPaths : ∀ norm, (call norm).paths = [norm]) (hSufficient : ∀ norm, op.Sufficient (call norm))
    (hOperation : ∀ norm, operation = op.recordedAs (call norm))
    (hPath : ∀ norm, norm = (call norm).pathText) :
    Effect.Triple
      (UnderWay platform layer db env instanceName op wired start trace
        (Reached platform layer db env instanceName start [] []))
      (do
        let norm ← authorized platform layer db env instanceName path mode
        auditAnd platform layer env instanceName norm operation reason (call norm) principal)
      (fun _ => UnderWay platform layer db env instanceName op wired start trace fun _ _ => True)
      (fun _ => Raised platform layer db env instanceName op wired start trace) := by
  refine (authorized_spec path mode).bind fun norm => ?_
  refine (call_spec op (call norm) (hSufficient norm) (hOperation norm) (hPath norm)).consequence (fun _ h => ?_)
    (fun _ _ h => h.settled) (fun _ _ h => h)
  rw [hPaths norm]
  exact Cleared.of_reached hTargets h

theorem list_spec (path : Text) :
    Effect.Triple
      (UnderWay platform layer db env instanceName (.list path) wired start trace
        (Reached platform layer db env instanceName start [] []))
      (list platform layer db env instanceName path)
      (fun _ => UnderWay platform layer db env instanceName (.list path) wired start trace
        fun _ _ => True)
      (fun _ => Raised platform layer db env instanceName (.list path) wired start trace) := by
  rw [list]
  split
  · exact .raise fun _ h => h.raised
  rename_i client hClient
  split
  · exact .raise fun _ h => h.raised
  rename_i norm hGuard
  split
  · rename_i hDiscovery
    exact (auditAnd_spec (F := fun _ => True) (fun _ _ => trivial)
      (fun _ _ => Or.inl ⟨path, norm, rfl, hGuard, rfl, hDiscovery⟩)
      (.read rfl) rfl rfl).consequence
      (fun _ ⟨events, hTrace, hWired, hJustified, hUnfailed, _⟩ =>
        ⟨events, hTrace, hWired, hJustified, hUnfailed, trivial⟩)
      (fun _ _ h => h) (fun _ _ h => h)
  · refine (authorizedRead_spec (by rw [hClient]; rfl) hGuard).bind fun norm => ?_
    exact (call_spec (.list path) (.propfind norm) (.read rfl) rfl rfl).consequence
      (fun _ h => Cleared.of_reached rfl h) (fun _ _ h => h.settled) (fun _ _ h => h)

theorem move_spec (src dst : Text) :
    Effect.Triple
      (UnderWay platform layer db env instanceName (.move src dst) wired start trace
        (Reached platform layer db env instanceName start [] []))
      (move platform layer db env instanceName src dst)
      (fun _ => UnderWay platform layer db env instanceName (.move src dst) wired start trace
        fun _ _ => True)
      (fun _ => Raised platform layer db env instanceName (.move src dst) wired start trace) := by
  refine (authorized_spec src WRITE).bind fun normSrc => ?_
  refine (authorized_spec dst WRITE).bind fun normDst => ?_
  exact (call_spec (.move src dst) (.move normSrc normDst) (by simp [Operation.Sufficient, Operation.targets])
    rfl rfl).consequence
    (fun _ h => Cleared.of_reached rfl h) (fun _ _ h => h.settled) (fun _ _ h => h)

theorem checkout_spec (path : Text) (timeout : Int) (principal : Option Text) :
    Effect.Triple
      (UnderWay platform layer db env instanceName (.checkout path timeout principal) wired start
        trace (Reached platform layer db env instanceName start [] []))
      (checkout platform layer db env instanceName path timeout principal)
      (fun _ => UnderWay platform layer db env instanceName (.checkout path timeout principal)
        wired start trace fun _ _ => True)
      (fun _ => Raised platform layer db env instanceName (.checkout path timeout principal) wired
        start trace) := by
  refine (authorized_spec path WRITE).bind fun norm => ?_
  refine (Effect.Triple.consequence
    (call_spec (.checkout path timeout principal) (.lock norm timeout) (.write rfl) rfl rfl)
    (fun _ h => Cleared.of_reached rfl h) (fun _ _ h => h) (fun _ _ h => h)).bind fun result => ?_
  refine (call_spec (.checkout path timeout principal) (.get norm) (.write rfl) rfl rfl).bind fun content => ?_
  dsimp only
  split
  · exact .pure fun _ h => Cleared.settled h
  · exact .raise fun _ h => (Cleared.settled h).raised

theorem checkin_spec (path : Text) (data : Bytes) (lockToken : Text) (principal : Option Text) :
    Effect.Triple
      (UnderWay platform layer db env instanceName (.checkin path data lockToken principal) wired
        start trace (Reached platform layer db env instanceName start [] []))
      (checkin platform layer db env instanceName path data lockToken principal)
      (fun _ => UnderWay platform layer db env instanceName (.checkin path data lockToken principal)
        wired start trace fun _ _ => True)
      (fun _ => Raised platform layer db env instanceName (.checkin path data lockToken principal)
        wired start trace) := by
  refine (authorized_spec path WRITE).bind fun norm => ?_
  refine (Effect.Triple.consequence (call_spec (.checkin path data lockToken principal)
      (.put norm data (some lockToken)) (.write rfl) rfl rfl)
    (fun _ h => Cleared.of_reached rfl h) (fun _ _ h => h) (fun _ _ h => h)).bind fun written => ?_
  refine (call_spec (.checkin path data lockToken principal) (.unlock norm lockToken) (.write rfl)
    rfl rfl).bind fun unlocked => ?_
  exact .pure fun _ h => h.settled

theorem run_spec (op : Operation) :
    Effect.Triple
      (UnderWay platform layer db env instanceName op wired start trace
        (Reached platform layer db env instanceName start [] []))
      (op.run platform layer db env instanceName)
      (fun _ => UnderWay platform layer db env instanceName op wired start trace fun _ _ => True)
      (fun _ => Raised platform layer db env instanceName op wired start trace) := by
  cases op with
  | list path => exact (list_spec path).bind fun _ => .pure fun _ h => h
  | read path principal =>
    exact (single_spec (.read path principal) .get rfl (fun _ => rfl) (fun _ => .read rfl)
      (fun _ => rfl) fun _ => rfl).bind
      fun _ => .pure fun _ h => h
  | write path data principal =>
    exact (single_spec (.write path data principal) (fun norm => .put norm data none) rfl
      (fun _ => rfl) (fun _ => .write rfl) (fun _ => rfl)
      fun _ => rfl).bind fun _ => .pure fun _ h => h
  | move src dst => exact (move_spec src dst).bind fun _ => .pure fun _ h => h
  | trash path =>
    exact (single_spec (.trash path) .delete rfl (fun _ => rfl) (fun _ => .write rfl)
      (fun _ => rfl) fun _ => rfl).bind
      fun _ => .pure fun _ h => h
  | mkdir path =>
    exact (single_spec (.mkdir path) .mkcol rfl (fun _ => rfl) (fun _ => .write rfl) (fun _ => rfl) fun _ => rfl).bind
      fun _ => .pure fun _ h => h
  | checkout path timeout principal =>
    exact (checkout_spec path timeout principal).bind fun _ => .pure fun _ h => h
  | checkin path data lockToken principal =>
    exact (checkin_spec path data lockToken principal).bind fun _ => .pure fun _ h => h

/-- Everything an operation adds to the trace is justified, and a failed record ends it. -/
theorem run_mediated (platform : Platform) (layer : Layer) (db : Database) (env : Environment)
    (instanceName : Text) (op : Operation) (w : World) :
    ∃ events, ((op.run platform layer db env instanceName).run w).2.trace = w.trace ++ events ∧
      Machine.Justified
        (Allows platform layer db env instanceName op w.audit.isSome w.asked) events ∧
      ∀ answer, ((op.run platform layer db env instanceName).run w).1 = .ok answer →
        Unfailed events := by
  have hStart : UnderWay platform layer db env instanceName op w.audit.isSome w.asked w.trace
      (Reached platform layer db env instanceName w.asked [] []) w :=
    ⟨[], by simp, rfl, Machine.justified_nil, by simp [Unfailed], rfl, trivial⟩
  have hRun := run_spec op w hStart
  rcases hResult : (op.run platform layer db env instanceName).run w with ⟨err | answer, w'⟩
  · rw [hResult] at hRun
    obtain ⟨events, hTrace, hJustified⟩ := hRun
    exact ⟨events, hTrace, hJustified, by simp⟩
  · rw [hResult] at hRun
    obtain ⟨events, hTrace, _, hJustified, hUnfailed, _⟩ := hRun
    exact ⟨events, hTrace, hJustified, fun _ _ => hUnfailed⟩

/-- Each of the paths was admitted at a question asked from `k` on. -/
theorem AllAdmitted.mem {before : List Event} {norm : Text} :
    ∀ {k : Nat} {targets : List (Text × Text)} {norms : List Text},
      AllAdmitted platform layer db env instanceName before k targets norms → norm ∈ norms →
      ∃ target ∈ targets, ∃ j, k ≤ j ∧
        AdmittedAt platform layer db env instanceName target.1 target.2 norm j before
  | k, target :: _, _ :: _, hAll, hMem => by
    rcases List.mem_cons.mp hMem with rfl | hMem
    · exact ⟨target, List.mem_cons_self, k, le_refl k, hAll.1⟩
    · obtain ⟨target', hTarget, j, hFrom, hAdmitted⟩ := AllAdmitted.mem hAll.2 hMem
      exact ⟨target', List.mem_cons_of_mem _ hTarget, j, by omega, hAdmitted⟩
  | _, [], _ :: _, hAll, _ => hAll.elim
  | _, _, [], _, hMem => absurd hMem List.not_mem_nil

end Steps

/-- The checker allowed the path, under the live items of the instance. -/
def Cleared.Path (layer : Layer) (db : Database) (instanceName : Text) (call : Verb)
    (earlier : List Event) (path : Text) : Prop :=
  ∃ mode listed now decision, .checked instanceName path mode listed now decision ∈ earlier ∧
    decision = checkAccess path mode (grantsAt layer db listed instanceName) now ∧
    decision.allowed = true ∧ (call.writes = true → mode = WRITE)

/-- Every verb that is called comes right after the record that names it, and after the
checker allowed its paths; a failed record is followed by no verb and by an exception. -/
def Mediates (platform : Platform) (layer : Layer) (db : Database) (env : Environment)
    (instanceName : Text) (op : Operation) (w : World) : Prop :=
  ∃ events, ((op.run platform layer db env instanceName).run w).2.trace = w.trace ++ events ∧
    (∀ before name call after, events = before ++ .verb name call :: after →
      name = instanceName ∧ ∃ earlier entry files, before = earlier ++ [.appended entry files] ∧
        Names op instanceName call entry ∧ EndsWith platform files entry ∧
        ((∃ path, call = .propfind path) ∧ instanceName ∈ layer.discoveryInstances ∨
          ∀ path ∈ call.paths, Cleared.Path layer db instanceName call earlier path)) ∧
    ∀ before entry cause after, events = before ++ .appendFailed entry cause :: after →
      (∀ name call, .verb name call ∉ after) ∧
        ∃ err, ((op.run platform layer db env instanceName).run w).1 = .error err

theorem complete_mediation (platform : Platform) (layer : Layer) (db : Database)
    (env : Environment) (instanceName : Text) (op : Operation) (w : World)
    (hWired : w.audit.isSome = true) : Mediates platform layer db env instanceName op w := by
  obtain ⟨events, hTrace, hJustified, hAnswer⟩ :=
    run_mediated platform layer db env instanceName op w
  rw [hWired] at hJustified
  refine ⟨events, hTrace, ?_, ?_⟩
  · intro before name call after hEvents
    obtain ⟨hName, hMediated⟩ := hJustified before _ after hEvents name call rfl
    obtain ⟨earlier, entry, files, rfl, hNames, hEnds⟩ := hMediated.recorded rfl
    refine ⟨hName, earlier, entry, files, rfl, hNames, hEnds, ?_⟩
    rcases hMediated.admitted with ⟨path, norm, _, _, rfl, hDiscovery⟩ | hAdmitted
    · exact Or.inl ⟨⟨norm, rfl⟩, hDiscovery⟩
    · refine Or.inr fun path hPath => ?_
      obtain ⟨target, hTarget, j, _, hAt⟩ := hAdmitted.mem hPath
      have hChecked : .checked instanceName path target.2 (env.clock j) (env.clock (j + 1)) _ ∈
          earlier := (List.mem_append.mp hAt.checked).resolve_right (by simp)
      exact ⟨_, _, _, _, hChecked, rfl, hAt.allowed,
        fun hWrites => hMediated.sufficient hWrites target hTarget⟩
  · intro before entry cause after hEvents
    refine ⟨fun name call hMem => ?_, ?_⟩
    · obtain ⟨middle, rest, rfl⟩ := List.append_of_mem hMem
      obtain ⟨_, hMediated⟩ := hJustified (before ++ .appendFailed entry cause :: middle) _ rest
        (by rw [hEvents, List.append_assoc, List.cons_append]) name call rfl
      exact hMediated.unfailed entry cause (by simp)
    · cases hResult : ((op.run platform layer db env instanceName).run w).1 with
      | error err => exact ⟨err, rfl⟩
      | ok answer => exact absurd (by rw [hEvents]; simp) (hAnswer answer hResult entry cause)

/-! ## A layer with one grant -/

def oneGrant (item : Item) : Database :=
  { grants := (AutoTable.empty 1).insert
      { instanceName := ['p'], reason := ['r'], items := [item], createdAt := 0,
        decidedAt := some 0, expiresAt := some 10, state := .active, stateSource := none,
        active_expires := by simp }
    posted := [] }

def oneClient : Layer := ⟨⟨10, 10, none⟩, [(['p'], ⟨none⟩)], [], none⟩

def lowerAscii (text : Text) : Text := text.map Char.toLower

def plainPlatform : Platform := ⟨id, lowerAscii, id⟩

def calm : Environment :=
  ⟨fun _ => 1, fun _ => ['0'], fun _ => (.completes, .completes), fun _ =>
    .ok ⟨true, some [], some ['t'], true⟩⟩

def opened : World := ⟨some ⟨⟨[], .ofText GENESIS, 0⟩, ⟨none, none⟩⟩, 0, []⟩

theorem complete_mediation_checkout :
    Mediates plainPlatform oneClient (oneGrant ⟨['a'], WRITE⟩) calm ['p']
        (.checkout ['a', '/', 'b'] 0 none) opened ∧
      (((Operation.checkout ['a', '/', 'b'] 0 none).run plainPlatform oneClient
        (oneGrant ⟨['a'], WRITE⟩) calm ['p']).run opened).1 =
        .ok (.checkedOut (some ['t']) (some [])) :=
  ⟨complete_mediation plainPlatform oneClient (oneGrant ⟨['a'], WRITE⟩) calm ['p']
    (.checkout ['a', '/', 'b'] 0 none) opened rfl, by decide +kernel⟩

end AccessBroker.Nextcloud
