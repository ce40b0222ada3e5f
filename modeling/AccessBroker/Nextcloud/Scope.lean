import AccessBroker.Grants.Authority
import AccessBroker.Nextcloud.Mediation
import AccessBroker.Paths.Rereading

/-! # Literal scope

The layer operates on a path that was normalized once, and the checker compares what a second
normalization makes of it and of the stored paths. Where that moves no stored path, the paths
that are let in are literally covered exactly if no requested path is moved away from what its
second normalization settles on.
-/

namespace AccessBroker.Nextcloud
open Py Paths Grants Audit
set_option autoImplicit false

section Scope

variable (platform : Platform) (layer : Layer) (db : Database) (clock : Nat → Int)
variable (instanceName : Text)

/-- Some item that is live at the instant covers the path as it stands. -/
def Covered (listed : Int) (mode norm : Text) : Prop :=
  ∃ rec ∈ activeGrants layer.store listed (some instanceName) db, ∃ item ∈ rec.items,
    Suffices item.mode mode ∧ Within item.path norm

/-- Some live item covers the path after both are normalized once more. -/
def CoveredAgain (listed now : Int) (mode norm : Text) : Prop :=
  ∃ again, normalizePath norm = some again ∧
    ∃ g ∈ grantsAt layer db listed instanceName, g.Admits again mode now

/-- Every path that is operated on is covered when the checker is asked about it. -/
def AllCovered : Nat → List (Text × Text) → List Text → Prop
  | _, [], [] => True
  | k, (_, mode) :: targets, norm :: norms =>
    Covered layer db instanceName (clock k) mode norm ∧ AllCovered (k + 2) targets norms
  | _, _, _ => False

def AllCoveredAgain : Nat → List (Text × Text) → List Text → Prop
  | _, [], [] => True
  | k, (path, mode) :: targets, norm :: norms =>
    (namespaceGuard platform path = some norm ∧
      CoveredAgain layer db instanceName (clock k) (clock (k + 1)) mode norm) ∧
      AllCoveredAgain (k + 2) targets norms
  | _, _, _ => False

/-- The paths that the stored items of live grants on the instance may have. -/
def Stores (stored : Text → Prop) : Prop :=
  ∀ listed, ∀ rec ∈ activeGrants layer.store listed (some instanceName) db, ∀ item ∈ rec.items,
    stored item.path

end Scope

section Proofs

variable {platform : Platform} {layer : Layer} {db : Database} {instanceName : Text}

theorem allowed_iff_coveredAgain {mode norm : Text} {listed now : Int} (hMode : mode ∈ modes) :
    (checkAccess norm mode (grantsAt layer db listed instanceName) now).allowed = true ↔
      CoveredAgain layer db instanceName listed now mode norm := by
  rw [checkAccess_allowed_iff]
  exact ⟨fun h => h.2, fun h => ⟨hMode, h⟩⟩

theorem Operation.targets_modes (op : Operation) : ∀ target ∈ op.targets, target.2 ∈ modes := by
  cases op <;> simp [Operation.targets, modes]

theorem AllAdmitted.coveredAgain {env : Environment} {before : List Event} :
    ∀ {k : Nat} {targets : List (Text × Text)} {norms : List Text},
      (∀ target ∈ targets, target.2 ∈ modes) →
      AllAdmitted platform layer db env instanceName before k targets norms →
      AllCoveredAgain platform layer db env.clock instanceName k targets norms
  | _, [], [], _, _ => trivial
  | _, target :: _, _ :: _, hModes, h =>
    ⟨⟨h.1.guard, (allowed_iff_coveredAgain (hModes target List.mem_cons_self)).mp h.1.allowed⟩,
      h.2.coveredAgain fun target' hTarget => hModes target' (List.mem_cons_of_mem _ hTarget)⟩
  | _, _ :: _, [], _, h => h.elim
  | _, [], _ :: _, _, h => h.elim

/-! ## A run without a log, in which every verb works -/

def quiet (clock : Nat → Int) : Environment :=
  ⟨clock, fun _ => [], fun _ => (.completes, .completes), fun _ => .ok ⟨true, none, none, true⟩⟩

theorem wall_quiet {clock : Nat → Int} {mode norm : Text} {w : World} (hMode : mode ∈ modes)
    (hCovered : CoveredAgain layer db instanceName (clock w.asked) (clock (w.asked + 1)) mode
      norm) (refuse : Decision → Run Text) :
    ∃ w', (do
        let decision ← wall layer db (quiet clock) instanceName norm mode
        if decision.allowed then return norm else refuse decision : Run Text).run w =
      (.ok norm, w') ∧ w'.asked = w.asked + 2 ∧ w'.audit = w.audit ∧
      ∃ events, w'.trace = w.trace ++ events := by
  obtain ⟨w', hRun, hAsked, hAudit, hTrace⟩ :=
    wall_run layer db (quiet clock) instanceName norm mode w
  have hAllowed : (checkAccess norm mode (grantsAt layer db ((quiet clock).clock w.asked)
      instanceName) ((quiet clock).clock (w.asked + 1))).allowed = true :=
    (allowed_iff_coveredAgain hMode).mpr hCovered
  refine ⟨w', ?_, hAsked, hAudit, _, hTrace⟩
  rw [Effect.bind_ok hRun, if_pos hAllowed]
  rfl

theorem authorized_quiet {clock : Nat → Int} {path mode norm : Text} {w : World}
    (hKnown : (layer.clients.lookup instanceName).isSome = true) (hMode : mode ∈ modes)
    (hGuard : namespaceGuard platform path = some norm)
    (hCovered : CoveredAgain layer db instanceName (clock w.asked) (clock (w.asked + 1)) mode
      norm) :
    ∃ w', (authorized platform layer db (quiet clock) instanceName path mode).run w =
      (.ok norm, w') ∧ w'.asked = w.asked + 2 ∧ w'.audit = w.audit ∧
      ∃ events, w'.trace = w.trace ++ events := by
  obtain ⟨client, hClient⟩ := Option.isSome_iff_exists.mp hKnown
  rw [authorized, hClient]
  dsimp only
  rw [hGuard]
  exact wall_quiet hMode hCovered _

theorem auditAnd_quiet {clock : Nat → Int} {path operation reason : Text} {call : Verb}
    {principal : Option Text} {w : World} (hAudit : w.audit = none) :
    (auditAnd platform layer (quiet clock) instanceName path operation reason call principal).run
        w = (.ok ⟨true, none, none, true⟩,
      { w with asked := w.asked + 1, trace := w.trace ++ [.verb instanceName call] }) := by
  obtain ⟨audit, asked, events⟩ := w
  cases hAudit
  rfl

def Calls (instanceName : Text) (w w' : World) (norms : List Text) : Prop :=
  ∃ before call after, w'.trace = w.trace ++ (before ++ .verb instanceName call :: after) ∧
    call.paths = norms

theorem Calls.bind {α β : Type} {m : Run α} {f : α → Run β} {w w' : World} {norms : List Text}
    {a : α} (hRun : m.run w = (.ok a, w')) (hCalls : Calls instanceName w w' norms)
    (hMore : ∃ events, ((f a).run w').2.trace = w'.trace ++ events) :
    Calls instanceName w ((m >>= f).run w).2 norms := by
  obtain ⟨before, call, after, hTrace, hPaths⟩ := hCalls
  obtain ⟨events, hEvents⟩ := hMore
  refine ⟨before, call, after ++ events, ?_, hPaths⟩
  rw [Effect.bind_ok hRun, hEvents, hTrace]
  simp

theorem Calls.widen {w w₁ w' : World} {events : List Event} {norms : List Text}
    (hTrace : w₁.trace = w.trace ++ events) (hCalls : Calls instanceName w₁ w' norms) :
    Calls instanceName w w' norms := by
  obtain ⟨before, call, after, hMore, hPaths⟩ := hCalls
  refine ⟨events ++ before, call, after, ?_, hPaths⟩
  rw [hMore, hTrace]
  simp

/-- With the targets cleared, the first verb is called. -/
theorem calls_quiet {clock : Nat → Int} {path operation reason : Text} (call : Verb)
    {principal : Option Text} {w : World} (hAudit : w.audit = none) :
    ∃ w', (auditAnd platform layer (quiet clock) instanceName path operation reason call
        principal).run w = (.ok ⟨true, none, none, true⟩, w') ∧ w'.audit = none ∧
      Calls instanceName w w' call.paths :=
  ⟨_, auditAnd_quiet hAudit, hAudit, [], call, [], rfl, rfl⟩

theorem single_quiet {clock : Nat → Int} {path mode operation reason : Text} {norms : List Text}
    (call : Text → Verb) {principal : Option Text} {w : World} (hAudit : w.audit = none)
    (hKnown : (layer.clients.lookup instanceName).isSome = true) (hMode : mode ∈ modes)
    (hCovered : AllCoveredAgain platform layer db clock instanceName w.asked [(path, mode)] norms)
    (hPaths : ∀ norm, (call norm).paths = [norm]) :
    ∃ reply w', (do
        let norm ← authorized platform layer db (quiet clock) instanceName path mode
        auditAnd platform layer (quiet clock) instanceName norm operation reason (call norm)
          principal : Run Reply).run w = (.ok reply, w') ∧ Calls instanceName w w' norms := by
  match norms, hCovered with
  | [norm], hCovered =>
    obtain ⟨w₁, hRun, _, hAudit', events, hTrace⟩ :=
      authorized_quiet hKnown hMode hCovered.1.1 hCovered.1.2
    obtain ⟨w₂, hCall, _, hCalls⟩ := calls_quiet (call norm) (hAudit'.trans hAudit)
    rw [hPaths] at hCalls
    exact ⟨_, w₂, (Effect.bind_ok hRun).trans hCall, hCalls.widen hTrace⟩
  | [], hCovered => exact hCovered.elim
  | _ :: _ :: _, hCovered => exact hCovered.2.elim

theorem list_quiet {clock : Nat → Int} {path : Text} {norms : List Text} {w : World}
    (hAudit : w.audit = none) (hDiscovery : instanceName ∉ layer.discoveryInstances)
    (hKnown : (layer.clients.lookup instanceName).isSome = true)
    (hCovered : AllCoveredAgain platform layer db clock instanceName w.asked [(path, READ)] norms) :
    ∃ reply w', (list platform layer db (quiet clock) instanceName path).run w = (.ok reply, w') ∧
      Calls instanceName w w' norms := by
  match norms, hCovered with
  | [norm], hCovered =>
    obtain ⟨client, hClient⟩ := Option.isSome_iff_exists.mp hKnown
    obtain ⟨w₁, hRun, _, hAudit', events, hTrace⟩ :=
      wall_quiet (by decide) hCovered.1.2 fun decision => Effect.raise (.accessRefused decision.reason)
    rw [list, hClient]
    dsimp only
    rw [hCovered.1.1]
    dsimp only
    rw [if_neg hDiscovery]
    refine ⟨_, _, (Effect.bind_ok hRun).trans (auditAnd_quiet (hAudit'.trans hAudit)), ?_⟩
    exact Calls.widen hTrace ⟨[], .propfind norm, [], rfl, rfl⟩
  | [], hCovered => exact hCovered.elim
  | _ :: _ :: _, hCovered => exact hCovered.2.elim

theorem move_quiet {clock : Nat → Int} {src dst : Text} {norms : List Text} {w : World}
    (hAudit : w.audit = none) (hKnown : (layer.clients.lookup instanceName).isSome = true)
    (hCovered : AllCoveredAgain platform layer db clock instanceName w.asked
      [(src, WRITE), (dst, WRITE)] norms) :
    ∃ reply w', (move platform layer db (quiet clock) instanceName src dst).run w =
      (.ok reply, w') ∧ Calls instanceName w w' norms := by
  match norms, hCovered with
  | [normSrc, normDst], hCovered =>
    obtain ⟨w₁, hSrc, hAsked, hAudit₁, events, hTrace⟩ :=
      authorized_quiet hKnown (by decide) hCovered.1.1 hCovered.1.2
    obtain ⟨hGuard, hDst⟩ := hCovered.2.1
    rw [← hAsked] at hDst
    obtain ⟨w₂, hDst, _, hAudit₂, events', hTrace'⟩ :=
      authorized_quiet hKnown (by decide) hGuard hDst
    obtain ⟨w₃, hCall, _, hCalls⟩ := calls_quiet (.move normSrc normDst) (hAudit₂.trans (hAudit₁.trans hAudit))
    exact ⟨_, w₃, (Effect.bind_ok hSrc).trans ((Effect.bind_ok hDst).trans hCall),
      (hCalls.widen hTrace').widen hTrace⟩
  | [], hCovered => exact hCovered.elim
  | [_], hCovered => exact hCovered.2.elim
  | _ :: _ :: _ :: _, hCovered => exact hCovered.2.2.elim

/-- The operations that go on after their first verb. -/
theorem chained_quiet {β : Type} {clock : Nat → Int} {path operation reason : Text}
    {norms : List Text} (call : Text → Verb) {principal : Option Text} {w : World}
    (hAudit : w.audit = none) (hKnown : (layer.clients.lookup instanceName).isSome = true)
    (hCovered : AllCoveredAgain platform layer db clock instanceName w.asked [(path, WRITE)] norms)
    (hPaths : ∀ norm, (call norm).paths = [norm]) {rest : Text → Reply → Run β}
    (hRest : ∀ norm reply w', w'.audit = none →
      ∃ events, ((rest norm reply).run w').2.trace = w'.trace ++ events) :
    Calls instanceName w ((do
        let norm ← authorized platform layer db (quiet clock) instanceName path WRITE
        let reply ← auditAnd platform layer (quiet clock) instanceName norm operation reason
          (call norm) principal
        rest norm reply : Run β).run w).2 norms := by
  match norms, hCovered with
  | [norm], hCovered =>
    obtain ⟨w₁, hRun, _, hAudit', events, hTrace⟩ :=
      authorized_quiet hKnown (by decide) hCovered.1.1 hCovered.1.2
    obtain ⟨w₂, hCall, hAudit₂, hCalls⟩ := calls_quiet (call norm) (hAudit'.trans hAudit)
    rw [hPaths] at hCalls
    rw [Effect.bind_ok hRun]
    exact (hCalls.bind hCall (hRest norm _ w₂ hAudit₂)).widen hTrace
  | [], hCovered => exact hCovered.elim
  | _ :: _ :: _, hCovered => exact hCovered.2.elim

theorem Operation.run_calls (op : Operation) {clock : Nat → Int} {start : Nat} {norms : List Text}
    (hGoverned : ∀ path, op = .list path → instanceName ∉ layer.discoveryInstances)
    (hKnown : (layer.clients.lookup instanceName).isSome = true)
    (hCovered : AllCoveredAgain platform layer db clock instanceName start op.targets norms) :
    Calls instanceName ⟨none, start, []⟩
      ((op.run platform layer db (quiet clock) instanceName).run ⟨none, start, []⟩).2 norms := by
  have hSingle : ∀ {path mode operation reason : Text} {principal : Option Text}
      (call : Text → Verb), mode ∈ modes → op.targets = [(path, mode)] →
      (∀ norm, (call norm).paths = [norm]) →
      Calls instanceName ⟨none, start, []⟩ ((do
        let norm ← authorized platform layer db (quiet clock) instanceName path mode
        auditAnd platform layer (quiet clock) instanceName norm operation reason (call norm)
          principal : Run Reply).run ⟨none, start, []⟩).2 norms := by
    intro path mode operation reason principal call hMode hTargets hPaths
    rw [hTargets] at hCovered
    obtain ⟨reply, w', hRun, hCalls⟩ :=
      single_quiet (w := ⟨none, start, []⟩) call rfl hKnown hMode hCovered hPaths
    rw [hRun]
    exact hCalls
  cases op with
  | list path =>
    obtain ⟨reply, w', hRun, hCalls⟩ := list_quiet (w := ⟨none, start, []⟩) rfl (hGoverned path rfl)
      hKnown hCovered
    rw [Operation.run, Effect.bind_state fun _ _ => rfl, hRun]
    exact hCalls
  | read path principal =>
    rw [Operation.run, Effect.bind_state fun _ _ => rfl]
    exact hSingle .get (by decide) rfl fun _ => rfl
  | write path data principal =>
    rw [Operation.run, Effect.bind_state fun _ _ => rfl]
    exact hSingle (fun norm => .put norm data none) (by decide) rfl fun _ => rfl
  | move src dst =>
    obtain ⟨reply, w', hRun, hCalls⟩ := move_quiet (w := ⟨none, start, []⟩) rfl hKnown hCovered
    rw [Operation.run, Effect.bind_state fun _ _ => rfl, hRun]
    exact hCalls
  | trash path =>
    rw [Operation.run, Effect.bind_state fun _ _ => rfl]
    exact hSingle .delete (by decide) rfl fun _ => rfl
  | mkdir path =>
    rw [Operation.run, Effect.bind_state fun _ _ => rfl]
    exact hSingle .mkcol (by decide) rfl fun _ => rfl
  | checkout path timeout principal =>
    rw [Operation.run, Effect.bind_state fun _ _ => rfl]
    refine chained_quiet (fun norm => .lock norm timeout) rfl hKnown hCovered (fun _ => rfl)
      fun norm reply w' hAudit => ?_
    obtain ⟨w'', hRun, _, before, call, after, hTrace, _⟩ :=
      calls_quiet (w := w') (.get norm) hAudit
    rw [Effect.bind_ok hRun]
    refine ⟨before ++ .verb instanceName call :: after, ?_⟩
    dsimp only
    split
    · exact hTrace
    · exact hTrace
  | checkin path data lockToken principal =>
    rw [Operation.run, Effect.bind_state fun _ _ => rfl]
    refine chained_quiet (fun norm => .put norm data (some lockToken)) rfl hKnown hCovered
      (fun _ => rfl) fun norm reply w' hAudit => ?_
    obtain ⟨w'', hRun, _, before, call, after, hTrace, _⟩ :=
      calls_quiet (w := w') (.unlock norm lockToken) hAudit
    rw [Effect.bind_ok hRun]
    exact ⟨_, hTrace⟩

/-! ## The scope of an operation -/

/-- Every verb is called on the instance, on paths that live items literally cover. -/
def LiteralScope (platform : Platform) (layer : Layer) (db : Database) (env : Environment)
    (instanceName : Text) (op : Operation) (w : World) : Prop :=
  ∀ before name call after, ((op.run platform layer db env instanceName).run w).2.trace =
      w.trace ++ (before ++ .verb name call :: after) →
    name = instanceName ∧ AllCovered layer db env.clock instanceName w.asked op.targets call.paths

/-- Whatever is stored under such paths, the requests for such paths stay in scope; listings open
to discovery apart. -/
def ScopeOver (platform : Platform) (stored asked : Text → Prop) : Prop :=
  ∀ (layer : Layer) (db : Database) (env : Environment) (instanceName : Text) (op : Operation)
    (w : World), (∀ path, op = .list path → instanceName ∉ layer.discoveryInstances) →
    Stores layer db instanceName stored → (∀ target ∈ op.targets, asked target.1) →
    LiteralScope platform layer db env instanceName op w

/-- The path that is operated on lies at or below the final part of its second normalization. -/
def Steady (platform : Platform) (path : Text) : Prop :=
  ∀ norm ∈ namespaceGuard platform path, ∀ again ∈ normalizePath norm,
    isBlank (finalPart again) = false → Within (finalPart again) norm

instance (platform : Platform) (path : Text) : Decidable (Steady platform path) :=
  inferInstanceAs (Decidable (∀ norm ∈ namespaceGuard platform path, ∀ again ∈ normalizePath norm,
    isBlank (finalPart again) = false → Within (finalPart again) norm))

/-- A path that a second normalization gives back, or that it refuses, is steady. -/
theorem Steady.of_fixed {path : Text} (h : ∀ norm ∈ namespaceGuard platform path,
    ∀ again ∈ normalizePath norm, again = norm) : Steady platform path := by
  intro norm hGuard again hAgain hBlank
  cases h norm hGuard again hAgain
  refine finalPart_within fun hNone => ?_
  rw [hNone] at hBlank
  cases hBlank

/-- A path of a steady request that an unmoved item covers after a second normalization is covered
as it stands. -/
theorem CoveredAgain.covered {listed now : Int} {path mode norm : Text}
    (h : CoveredAgain layer db instanceName listed now mode norm)
    (hStored : Stores layer db instanceName Unmoved) (hSteady : Steady platform path)
    (hGuard : namespaceGuard platform path = some norm) :
    Covered layer db instanceName listed mode norm := by
  obtain ⟨again, hAgain, g, hg, hAdmits⟩ := h
  obtain ⟨rec, hRec, hg⟩ := List.mem_flatMap.mp hg
  obtain ⟨item, hItem, rfl⟩ := List.mem_map.mp hg
  obtain ⟨root, hRoot, hNonempty, hWithin⟩ := hAdmits.scope
  obtain rfl : root = item.path := hStored listed rec hRec item hItem root hRoot hNonempty
  have hFinal := hWithin.final hRoot
  have hBlank : isBlank (finalPart again) = false :=
    hFinal.not_blank (accepted_of_normalizePath hRoot).blank
  exact ⟨rec, hRec, item, hItem, hAdmits.mode, hFinal.trans (hSteady norm hGuard again hAgain hBlank)⟩

theorem AllCoveredAgain.covered {clock : Nat → Int} (hStored : Stores layer db instanceName Unmoved) :
    ∀ {k : Nat} {targets : List (Text × Text)} {norms : List Text},
      (∀ target ∈ targets, Steady platform target.1) →
      AllCoveredAgain platform layer db clock instanceName k targets norms →
      AllCovered layer db clock instanceName k targets norms
  | _, [], [], _, _ => trivial
  | _, target :: _, _ :: _, hSteady, h =>
    ⟨h.1.2.covered hStored (hSteady target List.mem_cons_self) h.1.1,
      h.2.covered hStored fun target' hTarget => hSteady target' (List.mem_cons_of_mem _ hTarget)⟩
  | _, _ :: _, [], _, h => h.elim
  | _, [], _ :: _, _, h => h.elim

theorem scopeOver_of_steady {asked : Text → Prop} (h : ∀ path, asked path → Steady platform path) :
    ScopeOver platform Unmoved asked := by
  intro layer db env instanceName op w hGoverned hStored hAsked before name call after hTrace
  obtain ⟨events, hEvents, hJustified, _⟩ := run_mediated platform layer db env instanceName op w
  rw [hEvents] at hTrace
  obtain ⟨hName, hMediated⟩ :=
    hJustified before _ after (List.append_cancel_left hTrace) name call rfl
  refine ⟨hName, ?_⟩
  rcases hMediated.admitted with ⟨path, norm, hList, _, _, hDiscovery⟩ | hAdmitted
  · exact absurd hDiscovery (hGoverned path hList)
  · exact (hAdmitted.coveredAgain op.targets_modes).covered hStored
      fun target hTarget => h target.1 (hAsked target hTarget)

/-! ## Paths that are moved -/

theorem normalizePath_of_guard {path norm : Text} (h : namespaceGuard platform path = some norm)
    (hSome : norm ≠ []) : normalizePath path = some norm := by
  rw [namespaceGuard] at h
  split at h
  · split at h
    · cases h
      exact absurd rfl hSome
    · cases h
  · rename_i hNorm
    split at h
    · cases h
    · cases h
      exact hNorm

theorem activeGrants_oneGrant {listed : Int} {item : Item} :
    ∀ rec ∈ activeGrants oneClient.store listed (some ['p']) (oneGrant item), rec.items = [item] := by
  intro rec hRec
  obtain ⟨row, expiry, hRow, _, _, _, _, hEq⟩ := mem_activeGrants.mp hRec
  rw [oneGrant, AutoTable.get?_insert] at hRow
  split at hRow
  · cases hRow
    rw [hEq]
    rfl
  · rw [AutoTable.get?_empty] at hRow
    cases hRow

/-- A path is read under a grant whose second normalization lies above its own; so the grant has
to lie above the path. -/
theorem ScopeOver.reads {stored asked : Text → Prop} (h : ScopeOver platform stored asked)
    {path norm again above root : Text} (hStored : stored above) (hAsked : asked path)
    (hGuard : namespaceGuard platform path = some norm) (hAgain : normalizePath norm = some again)
    (hRoot : normalizePath above = some root) (hSome : root ≠ []) (hWithin : Within root again) :
    Within above norm := by
  let db : Database := oneGrant ⟨above, READ⟩
  have hCovered : AllCoveredAgain platform oneClient db (fun _ => 1) ['p'] 0 [(path, READ)] [norm] := by
    refine ⟨⟨hGuard, again, hAgain, ⟨above, READ, some 10, 1⟩, List.mem_singleton.mpr rfl, ?_⟩, trivial⟩
    exact ⟨⟨10, rfl, by decide⟩, List.mem_cons_self, Suffices.refl READ, root, hRoot, hSome, hWithin⟩
  obtain ⟨before, call, after, hTrace, hPaths⟩ :=
    Operation.run_calls (.read path none) (fun _ hList => by cases hList) rfl hCovered
  obtain ⟨_, hScope⟩ := h oneClient db (quiet fun _ => 1) ['p'] (.read path none) ⟨none, 0, []⟩
    (fun _ hList => by cases hList)
    (fun listed rec hRec item hItem => by
      rw [activeGrants_oneGrant rec hRec, List.mem_singleton] at hItem
      rwa [hItem])
    (fun target hTarget => by rwa [List.mem_singleton.mp hTarget]) before ['p'] call after hTrace
  rw [hPaths] at hScope
  obtain ⟨⟨rec, hRec, item, hItem, _, hAbove⟩, _⟩ := hScope
  rw [activeGrants_oneGrant rec hRec, List.mem_singleton] at hItem
  rwa [hItem] at hAbove

/-- Under stored paths that a second normalization does not move, exactly the steady requests stay
in scope; and under a stored path that it turns into another one that can be asked for, not all of
them do. -/
theorem literal_scope_iff (platform : Platform) :
    (∀ asked : Text → Prop, ScopeOver platform Unmoved asked ↔
      ∀ path, asked path → Steady platform path) ∧
    ∀ stored : Text → Prop, ScopeOver platform stored (Steady platform) →
      ∀ path, stored path → ∀ root, normalizePath path = some root → root ≠ [] →
        namespaceGuard platform root = some root → root = path := by
  refine ⟨fun asked => ⟨fun hScope path hAsked norm hGuard again hAgain hBlank => ?_,
    scopeOver_of_steady⟩, fun stored hScope path hStored root hRoot hSome hGuard => ?_⟩
  · have hKept : normalizePath (finalPart again) = some (finalPart again) :=
      finalPart_kept hAgain hBlank
    have hSome : finalPart again ≠ [] := by
      intro hNone
      rw [hNone] at hBlank
      cases hBlank
    have hUnmoved : Unmoved (finalPart again) := fun root hRoot _ =>
      (Option.some.inj (hKept.symm.trans hRoot)).symm
    exact hScope.reads hUnmoved hAsked hGuard hAgain hKept hSome (finalPart_within hSome)
  · have hKept : normalizePath root = some root := normalizePath_of_guard hGuard hSome
    have hSteady : Steady platform root := by
      refine .of_fixed fun norm hNorm again hAgain => ?_
      cases Option.some.inj (hGuard.symm.trans hNorm)
      exact (Option.some.inj (hKept.symm.trans hAgain)).symm
    have hAbove : Within path root :=
      hScope.reads hStored hSteady hGuard hKept hRoot hSome (List.prefix_refl _)
    exact (hAbove.begins.eq_of_length_le (normalizePath_shorter hRoot)).symm

end Proofs

example : Steady plainPlatform "docs/./a%20b".toList ∧ Unmoved "docs/a b".toList ∧
    ¬ Steady plainPlatform "%2525252561/b".toList ∧ ¬ Unmoved "%61".toList := by decide +kernel

/-- The path keeps an escape after the last pass; the checker decodes it and lets it in. -/
theorem residual_escape_out_of_scope :
    .verb ['p'] (.get "%61/b".toList) ∈
        (((Operation.read "%2525252561/b".toList none).run plainPlatform oneClient
          (oneGrant ⟨['a'], READ⟩) calm ['p']).run opened).2.trace ∧
      ∀ rec ∈ activeGrants oneClient.store 1 (some ['p']) (oneGrant ⟨['a'], READ⟩),
        ∀ item ∈ rec.items, ¬ Within item.path "%61/b".toList := by
  decide +kernel

end AccessBroker.Nextcloud
