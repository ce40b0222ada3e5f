import AccessBroker.MatrixBot.Revoking
import AccessBroker.Nextcloud.Scope
import AccessBroker.System.HumanGate

/-! # Where the authority for a verb comes from

A verb reaches a Nextcloud server only in the step of a tool call whose operation calls it. It is
then the listing of an instance that is open to discovery, or each of its paths is covered by an
item of a grant that the approver approved and that has been active ever since.
-/

namespace AccessBroker.System
open Py Paths Grants Nextcloud Server
set_option autoImplicit false

variable {w : Wiring} {env : Nextcloud.Environment}

/-! ## The verbs of one step -/

inductive Broker.Emits (w : Wiring) (env : Environment) (s : Broker) (act : Act)
    (events : List Nextcloud.Event) : Prop where
  | nothing (silent : events = [])
  | operation {surface : Surface} {tool : Tool} {instanceName : Text} {op : Nextcloud.Operation}
      (call : act = .call surface tool) (offered : tool.name ∈ surface.tools)
      (asksFor : tool.operation w.decode surface = some (instanceName, op))
      (only : ∀ name verb, .verb name verb ∈ events → op.calls verb = true)
      (justified : Machine.Justified (Allows w.platform w.layer s.desk.db env instanceName op true
        s.desk.asked) events)

theorem Broker.step_events (s : Broker) (act : Act) :
    ∃ events, (s.step w env act).trace = s.trace ++ events ∧ s.Emits w env act events := by
  have hSilent {s' : Broker} (hTrace : s'.trace = s.trace) :
      ∃ events, s'.trace = s.trace ++ events ∧ s.Emits w env act events :=
    ⟨[], by rw [hTrace, List.append_nil], .nothing rfl⟩
  have hRestart : (s.restart w).trace = s.trace := by
    rw [Broker.restart]
    split <;> rfl
  unfold Broker.step
  split
  · rename_i writer _
    cases act with
    | wait => exact hSilent rfl
    | sweep => exact hSilent (Broker.perform_trace _ _)
    | restart => exact hSilent hRestart
    | resume index outcome =>
      rw [Broker.handle]
      split
      · exact hSilent rfl
      · exact hSilent (Broker.perform_trace _ _)
    | event event =>
      apply hSilent
      have hSee (eventId : Text) : (s.see eventId).trace = s.trace := by
        rw [Broker.see]
        split <;> rfl
      rw [Broker.handle, Broker.onEvent]
      split
      · rfl
      split
      · rfl
      cases event.content with
      | reaction reactsTo key =>
        rw [Broker.dispatch, Broker.perform_trace]
        exact hSee _
      | message body =>
        rw [Broker.dispatch]
        split
        · exact hSee _
        · rw [Broker.perform_trace]
          exact hSee _
    | call surface tool =>
      rw [Broker.handle]
      unfold Broker.call
      split
      · exact hSilent rfl
      rename_i hTool
      rw [Decidable.not_not] at hTool
      split
      · exact hSilent (Broker.perform_trace _ _)
      · exact hSilent (Broker.perform_trace _ _)
      split
      · exact hSilent rfl
      · rename_i instanceName op hOperation
        let world : World := ⟨some ⟨writer, s.files⟩, s.desk.asked, s.trace⟩
        obtain ⟨events, hTrace, hJustified, _⟩ :=
          run_mediated w.platform w.layer s.desk.db env instanceName op world
        have hCalls : OnlyCalls (fun call => op.calls call = true) world.trace
            ((op.run w.platform w.layer s.desk.db env instanceName).run world).2.trace :=
          operation_calls op world
        obtain ⟨events', hTrace', hOnly⟩ := hCalls
        rw [hTrace] at hTrace'
        cases List.append_cancel_left hTrace'
        exact ⟨events, hTrace, .operation rfl hTool hOperation hOnly hJustified⟩
  · split
    · exact hSilent hRestart
    · exact hSilent rfl
    · exact hSilent rfl

/-- A tool call that asks for an operation runs it. -/
theorem Broker.step_operates {s : Broker} {writer : Audit.AuditLog} {surface : Surface} {tool : Tool}
    {instanceName : Text} {op : Nextcloud.Operation} (hWriter : s.writer = some writer)
    (hTool : tool.name ∈ surface.tools)
    (hOperation : tool.operation w.decode surface = some (instanceName, op)) :
    s.step w env (.call surface tool) = s.operate w env writer instanceName op := by
  unfold Broker.step
  rw [hWriter]
  change s.call w env writer surface tool = _
  unfold Broker.call
  rw [if_neg (not_not_intro hTool)]
  split
  · cases hOperation
  · cases hOperation
  · rw [hOperation]

/-- An item of the grant covers what the path stands for, for writing if the verb writes: both are
compared as the checker compares them, normalized once more. -/
def Vouches (r : GrantRecord) (call : Verb) (path : Text) : Prop :=
  ∃ item ∈ r.items, ∃ root again, normalizePath item.path = some root ∧
    normalizePath path = some again ∧ Within root again ∧ (call.writes = true → item.mode = WRITE)

def Broker.Granted (w : Wiring) (env : Nextcloud.Environment) (s : Broker) (instanceName : Text)
    (call : Verb) (path : Text) (r : GrantRecord) : Prop :=
  r ∈ s.active w env ∧ r.instanceName = instanceName ∧ Vouches r call path

/-- What the checker admits at a later reading of the clock is granted now. -/
theorem granted_of_admitted (hClock : Monotone env.clock) {s : Broker} {instanceName : Text}
    {path mode norm : Text} {k : Nat} {before : List Nextcloud.Event} {call : Verb}
    (h : AdmittedAt w.platform w.layer s.desk.db env instanceName path mode norm k before)
    (hLater : s.desk.asked ≤ k) (hMode : mode ∈ modes)
    (hWrites : call.writes = true → mode = WRITE) :
    ∃ r, s.Granted w env instanceName call norm r := by
  obtain ⟨again, hAgain, g, hg, hAdmits⟩ := (allowed_iff_coveredAgain hMode).mp h.allowed
  obtain ⟨listed, hListed, hg⟩ := List.mem_flatMap.mp hg
  obtain ⟨item, hItem, rfl⟩ := List.mem_map.mp hg
  obtain ⟨row, expiry, hRow, hActive, hExpiry, hBefore, hInstance, hRecord⟩ :=
    mem_activeGrants.mp hListed
  obtain ⟨root, hRoot, _, hWithin⟩ := hAdmits.scope
  have hNow : env.clock s.desk.asked ≤ env.clock k := hClock hLater
  refine ⟨toRecord w.layer.store (env.clock s.desk.asked) listed.id row, ?_, ?_, ?_⟩
  · exact mem_activeGrants.mpr ⟨row, expiry, hRow, hActive, hExpiry, by omega, by simp, rfl⟩
  · exact hInstance instanceName rfl
  · refine ⟨item, ?_, root, again, hRoot, hAgain, hWithin, fun hCall => ?_⟩
    · rw [hRecord] at hItem
      exact hItem
    · exact hAdmits.mode (hWrites hCall)

/-- The tool call of the step, whose operation calls the verb, and the verb's record. -/
structure Asks (w : Wiring) (act : Act) (before : List Nextcloud.Event) (instanceName : Text)
    (call : Verb) (op : Nextcloud.Operation) : Prop where
  tool : ∃ surface tool, act = .call surface tool ∧ tool.name ∈ surface.tools ∧
    tool.operation w.decode surface = some (instanceName, op)
  calls : op.calls call = true
  recorded : ∃ earlier entry files, before = earlier ++ [.appended entry files] ∧
    Names op instanceName call entry

/-- Every verb of the step is asked for, and is a listing open to discovery or granted, at each
of its paths, by a grant that meets `P`. -/
def Broker.Backed (w : Wiring) (env : Environment) (s s' : Broker) (act : Act)
    (P : Text → GrantRecord → Prop) : Prop :=
  ∃ events, s'.trace = s.trace ++ events ∧
    ∀ before instanceName call after, events = before ++ .verb instanceName call :: after →
      ∃ op, Asks w act before instanceName call op ∧
        (Discovered w.platform w.layer instanceName op call ∨
          ∀ path ∈ call.paths, ∃ r, s.Granted w env instanceName call path r ∧ P instanceName r)

theorem Broker.Backed.mono {s s' : Broker} {act : Act} {P Q : Text → GrantRecord → Prop}
    (h : s.Backed w env s' act P)
    (hPQ : ∀ instanceName call path r, s.Granted w env instanceName call path r →
      P instanceName r → Q instanceName r) : s.Backed w env s' act Q := by
  obtain ⟨events, hTrace, hVerbs⟩ := h
  refine ⟨events, hTrace, fun before instanceName call after hSplit => ?_⟩
  obtain ⟨op, hAsks, hBacked⟩ := hVerbs before instanceName call after hSplit
  refine ⟨op, hAsks, hBacked.imp id fun hGrants path hPath => ?_⟩
  obtain ⟨r, hGranted, hP⟩ := hGrants path hPath
  exact ⟨r, hGranted, hPQ instanceName call path r hGranted hP⟩

theorem Broker.step_backed (hClock : Monotone env.clock) (s : Broker) (act : Act) :
    s.Backed w env (s.step w env act) act fun _ _ => True := by
  obtain ⟨events, hTrace, hEmits⟩ : ∃ events, (s.step w env act).trace = s.trace ++ events ∧
      s.Emits w env act events := s.step_events act
  refine ⟨events, hTrace, fun before instanceName call after hSplit => ?_⟩
  cases hEmits with
  | nothing hSilent => exact absurd (hSilent.symm.trans hSplit) (by simp)
  | @operation _ _ _ op hAct hTool hOperation hOnly hJustified =>
  obtain ⟨rfl, hMediated⟩ := hJustified before _ after hSplit instanceName call rfl
  obtain ⟨earlier, entry, files, hBefore, hNames, _⟩ := hMediated.recorded rfl
  have hCalls := hOnly instanceName call (by rw [hSplit]; simp)
  refine ⟨op, ⟨⟨_, _, hAct, hTool, hOperation⟩, hCalls, earlier, entry, files, hBefore, hNames⟩, ?_⟩
  refine hMediated.admitted.imp id fun hAdmitted path hPath => ?_
  obtain ⟨target, hTarget, j, hFrom, hAt⟩ := hAdmitted.mem hPath
  obtain ⟨r, hr⟩ := granted_of_admitted hClock hAt hFrom (op.targets_modes target hTarget)
    fun hWrites => hMediated.sufficient hWrites target hTarget
  exact ⟨r, hr, trivial⟩

/-! ## Runs -/

/-- The grant's number was approved by the approver, and the grant has been active with these
items and this expiry ever since. -/
def ApprovedSince (w : Wiring) (env : Environment) (s : Broker) (acts : List Act)
    (r : GrantRecord) : Prop :=
  Machine.Since (Broker.step w env) (fun s act => Approves w s r.id act)
    (fun s => r ∈ s.active w env) s acts

/-- A grant becomes active in no step but the approval of its number. -/
theorem active_gained (hClock : Monotone env.clock) (s : Broker) (acts : List Act)
    (r : GrantRecord) :
    Machine.EveryStep (Broker.step w env)
      (fun s act => r ∈ (s.step w env act).active w env →
        r ∈ s.active w env ∨ Approves w s r.id act) s acts := by
  intro pre act post _ hActive
  have hStep := (Machine.run (Broker.step w env) s pre).step_narrows w env act
  exact (hStep.db.activeGrants (hClock hStep.asked) hActive).symm

theorem Broker.Backed.approved (hClock : Monotone env.clock) {s : Broker} {acts : List Act}
    {act : Act} {confined : Text → Prop}
    (hStart : ∀ r ∈ s.active w env, ¬ confined r.instanceName) :
    let s' := Machine.run (Broker.step w env) s acts
    s'.Backed w env (s'.step w env act) act fun instanceName r =>
      confined instanceName → ApprovedSince w env s acts r := by
  intro s'
  refine (s'.step_backed hClock act).mono ?_
  rintro instanceName call path r ⟨hActive, rfl, _⟩ _ hConfined
  exact Machine.since_of_not (active_gained hClock s acts r)
    (fun hBefore => hStart r hBefore hConfined) hActive

theorem start_active : Broker.start.active w env = [] := by
  simp [Broker.active, activeGrants, Broker.start, Database.empty, AutoTable.empty]

/-- In every run, each verb that reaches a server comes right after its record, in the step of a
tool call whose operation calls it, and is a listing open to discovery or is covered at each path
by an item of a grant that the approver approved and that has been active ever since. -/
theorem verbs_are_approved (w : Wiring) (env : Environment) (hClock : Monotone env.clock)
    (acts : List Act) (act : Act) :
    let s := Machine.run (Broker.step w env) Broker.start acts
    s.Backed w env (s.step w env act) act fun _ r => ApprovedSince w env Broker.start acts r := by
  have hStart : ∀ r ∈ Broker.start.active w env, ¬ (fun _ : Text => True) r.instanceName := by
    rw [start_active]
    exact fun r hr => absurd hr List.not_mem_nil
  exact (Broker.Backed.approved hClock hStart).mono fun _ _ _ _ _ h => h trivial

theorem verbs_are_approved_read :
    let read : Act := .call .transfer (.read "nc".toList "docs/a".toList)
    let s := Machine.run (Broker.step smallWiring smallEnvironment) Broker.start approvedRequest
    s.Backed smallWiring smallEnvironment (s.step smallWiring smallEnvironment read) read
        (fun _ r => ApprovedSince smallWiring smallEnvironment Broker.start approvedRequest r) ∧
      .verb "nc".toList (.get "docs/a".toList) ∈
        (s.step smallWiring smallEnvironment read).trace :=
  ⟨verbs_are_approved smallWiring smallEnvironment (fun _ _ h => Int.ofNat_le.mpr h)
    approvedRequest (.call .transfer (.read "nc".toList "docs/a".toList)), by decide +kernel⟩

/-! ## The kill switch -/

/-- The listener hands the approver's message to the bot. -/
structure Broker.Hears (w : Wiring) (s : Broker) (event : RoomEvent) (text : Text) : Prop where
  running : s.writer.isSome = true
  room : event.roomId = w.matrix.roomId
  fresh : event.eventId = [] ∨ event.eventId ∉ s.seen
  approver : event.sender = w.matrix.approver
  body : event.content = .message text

instance (s : Broker) (event : RoomEvent) (text : Text) : Decidable (s.Hears w event text) :=
  decidable_of_iff (s.writer.isSome = true ∧ event.roomId = w.matrix.roomId ∧
      (event.eventId = [] ∨ event.eventId ∉ s.seen) ∧ event.sender = w.matrix.approver ∧
      event.content = .message text)
    ⟨fun ⟨h₁, h₂, h₃, h₄, h₅⟩ => ⟨h₁, h₂, h₃, h₄, h₅⟩,
      fun ⟨h₁, h₂, h₃, h₄, h₅⟩ => ⟨h₁, h₂, h₃, h₄, h₅⟩⟩

theorem Broker.Hears.step_desk {s : Broker} {event : RoomEvent} {text : Text}
    (h : s.Hears w event text) :
    (s.step w env (.event event)).desk =
      ((MatrixBot.handleReply w.layer.store w.bot env.clock w.bot.approver text).run s.desk).2 := by
  obtain ⟨writer, hWriter⟩ := Option.isSome_iff_exists.mp h.running
  have hFresh : ¬ (event.eventId ≠ [] ∧ event.eventId ∈ s.seen) := fun hSeen =>
    h.fresh.elim hSeen.1 fun hNew => hNew hSeen.2
  have hSelf : event.sender ≠ w.matrix.botUser := by
    rw [h.approver]
    exact w.matrix.approver_ne_botUser
  have hStep : s.step w env (.event event) = s.onEvent w env event := by
    unfold Broker.step
    rw [hWriter]
    rfl
  rw [hStep, Broker.onEvent, if_neg (not_not_intro h.room), if_neg hFresh, h.body,
    Broker.dispatch, if_neg hSelf, Broker.perform_desk, Broker.see_desk, h.approver]
  rfl

/-- A mass revocation leaves nothing active on its target. -/
theorem Broker.Hears.revoked {s : Broker} {event : RoomEvent} {text : Text}
    (h : s.Hears w event text) (hClock : Monotone env.clock) {target : Option Text}
    (hReply : MatrixBot.parseReply text = .ok (some (MatrixBot.revocation target))) :
    ∀ r ∈ (s.step w env (.event event)).active w env,
      ¬ ∀ name, target = some name → r.instanceName = name := by
  intro r hr hTarget
  obtain ⟨ids, message, d', hRun, hRevoked⟩ : ∃ ids message d',
      (MatrixBot.revokeMany w.layer.store env.clock target).run s.desk =
        (.ok (.awaits (.sending message)), d') ∧
      MatrixBot.RevokedMany w.layer.store env.clock target s.desk d' ids message :=
    MatrixBot.revokeMany_run hClock target s.desk
  have hDesk : (s.step w env (.event event)).desk = d' := by
    rw [h.step_desk, MatrixBot.handleReply, if_neg (by simp), hReply]
    cases target with
    | none => exact congrArg Prod.snd hRun
    | some name => exact congrArg Prod.snd hRun
  rw [Broker.active, hDesk] at hr
  obtain ⟨row, expiry, hRow, hActive, hExpiry, hBefore, _, hRecord⟩ := mem_activeGrants.mp hr
  have hNone := hRevoked.complete (env.clock d'.asked) (le_refl _)
  apply List.eq_nil_iff_forall_not_mem.mp hNone r
  refine mem_activeGrants.mpr ⟨row, expiry, hRow, hActive, hExpiry, hBefore, ?_, hRecord⟩
  rw [hRecord] at hTarget
  exact hTarget

/-- Once the approver's `revoke all` or `revoke <instance>` has been handled, no verb reaches
the target, listings open to discovery apart, but by a grant approved after it. -/
theorem mass_revocation_holds (w : Wiring) (env : Environment) (hClock : Monotone env.clock)
    (s : Broker) (event : RoomEvent) (text : Text) (hHears : s.Hears w event text)
    (target : Option Text)
    (hReply : MatrixBot.parseReply text = .ok (some (MatrixBot.revocation target)))
    (acts : List Act) (act : Act) :
    let killed := s.step w env (.event event)
    let s' := Machine.run (Broker.step w env) killed acts
    s'.Backed w env (s'.step w env act) act fun instanceName r =>
      (∀ name, target = some name → instanceName = name) →
        ApprovedSince w env killed acts r :=
  Broker.Backed.approved hClock (hHears.revoked hClock hReply)

def spoken (eventId text : Text) : RoomEvent :=
  ⟨"!room:x".toList, eventId, "@owner:x".toList, .message text⟩

theorem mass_revocation_holds_all :
    let s := Machine.run (Broker.step smallWiring smallEnvironment) Broker.start approvedRequest
    let killed := s.step smallWiring smallEnvironment
      (.event (spoken "$3".toList "Revoke all".toList))
    let s' := Machine.run (Broker.step smallWiring smallEnvironment) killed [.wait]
    let read : Act := .call .transfer (.read "nc".toList "docs/a".toList)
    s'.Backed smallWiring smallEnvironment (s'.step smallWiring smallEnvironment read) read
      fun instanceName r => (∀ name, none = some name → instanceName = name) →
        ApprovedSince smallWiring smallEnvironment killed [.wait] r :=
  mass_revocation_holds smallWiring smallEnvironment (fun _ _ h => Int.ofNat_le.mpr h) _
    (spoken "$3".toList "Revoke all".toList) "Revoke all".toList (by decide +kernel) none
    (by decide +kernel) [.wait] (.call .transfer (.read "nc".toList "docs/a".toList))

end AccessBroker.System
