import AccessBroker.Nextcloud.Passing
import AccessBroker.Nextcloud.WallSites
import AccessBroker.System.Authority
import AccessBroker.System.Lasting

/-! # A grant works

What the approver has granted can be used: through any run, restarts included, until the grant
expires or the approver revokes it.
-/

namespace AccessBroker.System
open Py Paths Grants Nextcloud Server
set_option autoImplicit false

variable {w : Wiring} {env : Environment}

/-! ## Rows and the wall -/

def CoversTarget (platform : Platform) (items : List Item) (target : Text × Text) : Prop :=
  ∃ norm again, namespaceGuard platform target.1 = some norm ∧ normalizePath norm = some again ∧
    ∃ item ∈ items, item.mode ∈ modes ∧ Suffices item.mode target.2 ∧
      ∃ root, normalizePath item.path = some root ∧ root ≠ [] ∧ Within root again

/-- A stored approval lets a target pass that its items cover, while it has not expired. -/
theorem passes_of_row {platform : Platform} {layer : Layer} {db : Database} {clock : Nat → Int}
    {rid : Nat} {row : Row} {expiry : Int} (hRow : db.grants.get? rid = some row)
    (hStored : row.state = .active) (hExpiry : row.expiresAt = some expiry)
    (hKnown : (layer.clients.lookup row.instanceName).isSome = true) {target : Text × Text}
    (hMode : target.2 ∈ modes) (hCovers : CoversTarget platform row.items target) {k : Nat}
    (hListed : clock k < expiry) (hLive : clock (k + 1) < expiry) :
    ∃ norm, Passes platform layer db clock k row.instanceName target.1 target.2 norm := by
  obtain ⟨norm, again, hGuard, hAgain, item, hItem, hValid, hSuffices, hScope⟩ := hCovers
  refine ⟨norm, hKnown, hGuard, (allowed_iff_coveredAgain hMode).mpr ⟨again, hAgain,
    ⟨item.path, item.mode, row.expiresAt, rid⟩, ?_, ?_⟩⟩
  · exact mem_grantsAt.mpr ⟨rid, row, hRow, rfl,
      effectiveState_eq_active.mpr ⟨hStored, expiry, hExpiry, hListed⟩, item, hItem, rfl⟩
  · exact ⟨⟨expiry, hExpiry, hLive⟩, hValid, hSuffices, hScope⟩

/-- All the targets of an operation pass, one after the other. -/
theorem allPass_of_row {platform : Platform} {layer : Layer} {db : Database} {clock : Nat → Int}
    (hClock : Monotone clock) {rid : Nat} {row : Row} {expiry : Int}
    (hRow : db.grants.get? rid = some row) (hStored : row.state = .active)
    (hExpiry : row.expiresAt = some expiry)
    (hKnown : (layer.clients.lookup row.instanceName).isSome = true) :
    ∀ (targets : List (Text × Text)) (k : Nat), (∀ target ∈ targets, target.2 ∈ modes) →
      (∀ target ∈ targets, CoversTarget platform row.items target) →
      clock (k + 2 * targets.length) < expiry →
      AllPass platform layer db clock row.instanceName k targets
  | [], _, _, _, _ => trivial
  | target :: targets, k, hModes, hCovers, hLive => by
    have hLength : k + 2 + 2 * targets.length = k + 2 * (target :: targets).length := by
      rw [List.length_cons]
      omega
    have hBefore (j : Nat) (hj : j ≤ k + 2) : clock j < expiry :=
      lt_of_le_of_lt (hClock (by omega)) hLive
    refine ⟨passes_of_row hRow hStored hExpiry hKnown (hModes target List.mem_cons_self)
      (hCovers target List.mem_cons_self) (hBefore k (by omega)) (hBefore (k + 1) (by omega)), ?_⟩
    apply allPass_of_row hClock hRow hStored hExpiry hKnown targets (k + 2)
    · exact fun target' hTarget => hModes target' (List.mem_cons_of_mem _ hTarget)
    · exact fun target' hTarget => hCovers target' (List.mem_cons_of_mem _ hTarget)
    · rwa [hLength]

/-! ## Runs -/

/-- The tool call asks, on its surface, for an operation that the grant covers at every target. -/
structure Serves (w : Wiring) (r : GrantRecord) (surface : Surface) (tool : Tool)
    (op : Nextcloud.Operation) : Prop where
  registered : tool.name ∈ surface.tools
  operation : tool.operation w.decode surface = some (r.instanceName, op)
  configured : (w.layer.clients.lookup r.instanceName).isSome = true
  covered : ∀ target ∈ op.targets, CoversTarget w.platform r.items target

/-- After any run, a tool call that an active grant covers has its verb called at its normalized
targets right after the verb's record, if the log takes the record; unless the grant has expired by
then or was revoked. -/
theorem granted_access_works (w : Wiring) (env : Environment) (hClock : Monotone env.clock)
    (s : Broker) (acts : List Act) (surface : Surface) (tool : Tool) (op : Nextcloud.Operation)
    (r : GrantRecord) (hActive : r ∈ s.active w env) (hServes : Serves w r surface tool op) :
    let s' := Machine.run (Broker.step w env) s acts
    s'.writer.isSome = true →
      GoesThrough w.platform r.instanceName op s'.trace (s'.step w env (.call surface tool)).trace ∨
      (∃ expiry, r.expiresAt = some expiry ∧
        expiry ≤ env.clock (s'.desk.asked + 2 * op.targets.length)) ∨
      ∃ pre act post, acts = pre ++ act :: post ∧
        Revokes w (Machine.run (Broker.step w env) s pre) r.id r.instanceName act := by
  intro s' hRunning
  obtain ⟨row, expiry, hRow, hStored, hExpiry, hBefore, _, hRecord⟩ := mem_activeGrants.mp hActive
  have hName : r.instanceName = row.instanceName := congrArg GrantRecord.instanceName hRecord
  have hItems : r.items = row.items := congrArg GrantRecord.items hRecord
  have hExpires : r.expiresAt = some expiry := (congrArg GrantRecord.expiresAt hRecord).trans hExpiry
  by_cases hUnrevoked : Machine.EveryStep (Broker.step w env)
      (fun s act => ¬ Revokes w s r.id r.instanceName act) s acts
  swap
  · simp only [Machine.EveryStep, not_forall] at hUnrevoked
    obtain ⟨pre, act, post, hActs, hRevokes⟩ := hUnrevoked
    exact Or.inr (Or.inr ⟨pre, act, post, hActs, not_not.mp hRevokes⟩)
  by_cases hLive : env.clock (s'.desk.asked + 2 * op.targets.length) < expiry
  swap
  · exact Or.inr (Or.inl ⟨expiry, hExpires, not_lt.mp hLive⟩)
  refine Or.inl ?_
  obtain ⟨writer, hWriter⟩ := Option.isSome_iff_exists.mp hRunning
  have hKnown := hServes.configured
  have hCovered := hServes.covered
  rw [hName] at hUnrevoked hKnown
  rw [hItems] at hCovered
  have hKept : s'.desk.db.grants.get? r.id = some row :=
    Broker.row_kept hClock hRow hStored hUnrevoked
  have hPass : AllPass w.platform w.layer s'.desk.db env.clock row.instanceName s'.desk.asked
      op.targets := allPass_of_row hClock hKept hStored hExpiry hKnown op.targets _
    op.targets_modes hCovered hLive
  rw [Broker.step_operates hWriter hServes.registered hServes.operation, hName]
  exact operation_goes w.platform w.layer s'.desk.db env row.instanceName op rfl hPass

def docsGrant : GrantRecord :=
  ⟨1, "nc".toList, "why".toList, [⟨"docs".toList, READ⟩], .active, some 86400000001, 0,
    some "approval".toList⟩

theorem docsGrant_serves : Serves smallWiring docsGrant .transfer
    (.read "nc".toList "docs/a".toList) (.read "docs/a".toList (some "transfer".toList)) where
  registered := by decide +kernel
  operation := rfl
  configured := rfl
  covered := by
    intro target hTarget
    cases List.mem_singleton.mp hTarget
    refine ⟨"docs/a".toList, "docs/a".toList, by decide +kernel, by decide +kernel,
      ⟨"docs".toList, READ⟩, List.mem_cons_self, by decide, Suffices.refl READ, "docs".toList, ?_⟩
    decide +kernel

theorem granted_access_works_restarted :
    let s := Machine.run (Broker.step smallWiring smallEnvironment) Broker.start approvedRequest
    let acts : List Act := [.sweep, .restart, .wait]
    let s' := Machine.run (Broker.step smallWiring smallEnvironment) s acts
    let read : Tool := .read "nc".toList "docs/a".toList
    (GoesThrough smallWiring.platform docsGrant.instanceName
        (.read "docs/a".toList (some "transfer".toList)) s'.trace
        (s'.step smallWiring smallEnvironment (.call .transfer read)).trace ∨
      (∃ expiry, docsGrant.expiresAt = some expiry ∧
        expiry ≤ smallEnvironment.clock (s'.desk.asked + 2 * 1)) ∨
      ∃ pre act post, acts = pre ++ act :: post ∧
        Revokes smallWiring (Machine.run (Broker.step smallWiring smallEnvironment) s pre)
          docsGrant.id docsGrant.instanceName act) ∧
      .verb "nc".toList (.get "docs/a".toList) ∈
        (s'.step smallWiring smallEnvironment (.call .transfer read)).trace :=
  ⟨granted_access_works smallWiring smallEnvironment (fun _ _ h => Int.ofNat_le.mpr h)
    (Machine.run (Broker.step smallWiring smallEnvironment) Broker.start approvedRequest)
    [.sweep, .restart, .wait] .transfer (.read "nc".toList "docs/a".toList)
    (.read "docs/a".toList (some "transfer".toList)) docsGrant (by decide +kernel) docsGrant_serves
    (by decide +kernel), by decide +kernel⟩

end AccessBroker.System
