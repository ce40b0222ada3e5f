import AccessBroker.Paths.Rereading
import AccessBroker.System.Authority

/-! # What the servers keep

A Nextcloud server changes, at a request, only what lies at or below the paths of the request.
Then the files that no approved grant covers for writing are, after any run, what they were.
-/

namespace AccessBroker.System
open Py Paths Grants Nextcloud MatrixBot Server
set_option autoImplicit false

/-! ## Servers -/

structure FileServers (σ γ : Type) where
  content : σ → Text → Text → γ
  serve : σ → Text → Verb → σ

variable {σ γ : Type}

/-- A request changes nothing but what lies at or below its paths, and only if its verb writes. -/
def FileServers.Confined (servers : FileServers σ γ) : Prop :=
  ∀ s instanceName call name path,
    servers.content (servers.serve s instanceName call) name path ≠ servers.content s name path →
      name = instanceName ∧ call.writes = true ∧ ∃ p ∈ call.paths, Within p path

def FileServers.see (servers : FileServers σ γ) (s : σ) : Nextcloud.Event → σ
  | .verb instanceName call => servers.serve s instanceName call
  | _ => s

/-- What changes over a trace is changed by one of its verbs. -/
theorem FileServers.Confined.changed {servers : FileServers σ γ} (h : servers.Confined)
    {name path : Text} (s : σ) (trace : List Nextcloud.Event)
    (hChanged : servers.content (Machine.run servers.see s trace) name path ≠
      servers.content s name path) :
    ∃ before call after, trace = before ++ .verb name call :: after ∧ call.writes = true ∧
      ∃ p ∈ call.paths, Within p path := by
  induction trace using List.reverseRecOn with
  | nil => exact absurd rfl hChanged
  | append_singleton trace event ih =>
    by_cases hBefore : servers.content (Machine.run servers.see s trace) name path =
        servers.content s name path
    · rw [Machine.run_append] at hChanged
      cases event with
      | verb instanceName call =>
        obtain ⟨rfl, hWrites, hPath⟩ := h _ instanceName call name path (by rwa [hBefore])
        exact ⟨trace, call, [], rfl, hWrites, hPath⟩
      | checked | appended | appendFailed => exact absurd hBefore hChanged
    · obtain ⟨before, call, after, rfl, hCall⟩ := ih hBefore
      exact ⟨before, call, after ++ [event], by simp, hCall⟩

/-! ## Integrity -/

/-- An item of the grant covers the path for writing, by its stored path normalized once more. -/
def CoversWriting (r : GrantRecord) (path : Text) : Prop :=
  ∃ item ∈ r.items, item.mode = WRITE ∧ ∃ root, normalizePath item.path = some root ∧
    Within root path

/-- A verb of the step writes at or above the path, at a path that the grant covers for writing: it
is called by the operation of the tool call, right after its record. -/
def Broker.WritesAbove (w : Wiring) (env : Nextcloud.Environment) (s : Broker) (act : Act)
    (name path : Text) (r : GrantRecord) : Prop :=
  ∃ before call after op,
    (s.step w env act).trace = s.trace ++ (before ++ .verb name call :: after) ∧
      Asks w act before name call op ∧ call.writes = true ∧
        ∃ p ∈ call.paths, Within p path ∧ CoversWriting r p

/-- After any run, what the servers hold at a path is what they held at the start, or a tool call
wrote there, with a record, under a grant that covers what it wrote for writing, that the approver
approved and that had been active ever since. -/
theorem files_kept (w : Wiring) (env : Nextcloud.Environment) (hClock : Monotone env.clock)
    (servers : FileServers σ γ) (hServers : servers.Confined) (start : σ) (acts : List Act)
    (name path : Text) (hPath : normalizePath path = some path) :
    servers.content (Machine.run servers.see start
        (Machine.run (Broker.step w env) Broker.start acts).trace) name path =
      servers.content start name path ∨
    ∃ pre act post r, acts = pre ++ act :: post ∧
      (Machine.run (Broker.step w env) Broker.start pre).WritesAbove w env act name path r ∧
      ApprovedSince w env Broker.start pre r ∧ r.instanceName = name := by
  induction acts using List.reverseRecOn with
  | nil => exact Or.inl rfl
  | append_singleton acts act ih =>
    rcases ih with hSame | ⟨pre, act', post, r, rfl, hWrote⟩
    · have hStart : ∀ r ∈ Broker.start.active w env, ¬ (fun _ : Text => True) r.instanceName := by
        rw [start_active]
        exact fun r hr => absurd hr List.not_mem_nil
      have hBacked : (Machine.run (Broker.step w env) Broker.start acts).Backed w env
          ((Machine.run (Broker.step w env) Broker.start acts).step w env act) act fun _ r =>
            True → ApprovedSince w env Broker.start acts r := Broker.Backed.approved hClock hStart
      obtain ⟨events, hTrace, hVerbs⟩ := hBacked
      rw [Machine.run_append]
      change servers.content (Machine.run servers.see start (Broker.step w env _ act).trace) name
        path = _ ∨ _
      rw [hTrace, Machine.run_append]
      refine or_iff_not_imp_left.mpr fun hChanged => ?_
      rw [← hSame] at hChanged
      obtain ⟨before, call, after, hSplit, hWrites, p, hp, hWithin⟩ := hServers.changed _ _ hChanged
      obtain ⟨op, hAsks, hGranted⟩ := hVerbs before name call after hSplit
      rcases hGranted with hDiscovered | hGranted
      · obtain ⟨_, _, _, _, rfl, _⟩ := hDiscovered
        cases hWrites
      · obtain ⟨r, ⟨hActive, hName, item, hItem, root, again, hRoot, hAgain, hInside, hMode⟩, hSince⟩ :=
          hGranted p hp
        cases hWithin.kept hPath hAgain
        rw [hSplit] at hTrace
        exact ⟨acts, act, [], r, rfl, ⟨before, call, after, op, hTrace, hAsks, hWrites, p, hp, hWithin,
          item, hItem, hMode hWrites, root, hRoot, hInside⟩, hSince trivial, hName⟩
    · exact Or.inr ⟨pre, act', post ++ [act], r, by simp, hWrote⟩

def countingServers : FileServers (List (Text × Verb)) Nat where
  content served name path := served.countP fun request =>
    request.1 = name ∧ request.2.writes = true ∧ ∃ p ∈ request.2.paths, Within p path
  serve served instanceName call := served ++ [(instanceName, call)]

theorem countingServers_confined : countingServers.Confined := by
  intro served instanceName call name path hChanged
  simp only [countingServers, List.countP_append, List.countP_singleton] at hChanged
  split at hChanged
  · rename_i hWrites
    simp only [decide_eq_true_eq] at hWrites
    exact ⟨hWrites.1.symm, hWrites.2⟩
  · exact absurd rfl hChanged

def approvedWriting : List Act :=
  [.restart, .call .agent (.requestAccess "nc".toList (some "why".toList)
      [⟨some "docs".toList, some WRITE⟩])] ++
    List.replicate 5 (.resume 0 (.ok "$m".toList)) ++
    [.event ⟨"!room:x".toList, "$2".toList, "@owner:x".toList, .reaction "$m".toList APPROVE_EMOJI⟩,
      .call .agent (.mkdir "nc".toList "docs/a".toList)]

theorem files_kept_outside :
    let after (path : Text) := countingServers.content (Machine.run countingServers.see []
      (Machine.run (Broker.step smallWiring smallEnvironment) Broker.start approvedWriting).trace)
      "nc".toList path
    (after "docs/a".toList = 0 ∨
      ∃ pre act post r, approvedWriting = pre ++ act :: post ∧
        (Machine.run (Broker.step smallWiring smallEnvironment) Broker.start pre).WritesAbove
          smallWiring smallEnvironment act "nc".toList "docs/a".toList r ∧
        ApprovedSince smallWiring smallEnvironment Broker.start pre r ∧
        r.instanceName = "nc".toList) ∧
    after "docs/a".toList = 1 ∧ after "docs".toList = 0 :=
  ⟨files_kept smallWiring smallEnvironment (fun _ _ h => Int.ofNat_le.mpr h) countingServers
    countingServers_confined [] approvedWriting "nc".toList "docs/a".toList (by decide +kernel),
    by decide +kernel, by decide +kernel⟩

end AccessBroker.System
