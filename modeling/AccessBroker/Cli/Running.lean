import AccessBroker.Cli

/-! # Running a command

How each part of a command ends, and a checkin as a whole: it stops before the tool call,
or its end follows from the tool's answer.
-/

namespace AccessBroker.Cli
open Py
set_option autoImplicit false

def handled : Failure → Except Failure Outcome
  | .cli message => .ok (exits (cliErrorExit message))
  | .escaped exc => .error (.escaped exc)

def concluded : Except Failure Outcome → Except Failure Outcome
  | .ok outcome => .ok outcome
  | .error failure => handled failure

def exitMain : Except Failure Outcome → Outcome
  | .ok outcome => outcome
  | .error failure => exitOf (handled failure)

theorem exitMain_eq (result : Except Failure Outcome) : exitMain result = exitOf (concluded result) := by
  cases result <;> rfl

theorem exitMain_handled (failure : Failure) :
    exitMain (handled failure) = exitOf (handled failure) := by
  cases failure <;> rfl

theorem code_of_local {result : Except Failure Outcome}
    (h : concluded result = .ok (exits EXIT_LOCAL)) : (exitMain result).code = EXIT_LOCAL := by
  rw [exitMain_eq, h]
  rfl

theorem ne_ok_of_local {outcome : Outcome} (h : outcome.code = EXIT_LOCAL) :
    outcome.code ≠ EXIT_OK := by
  rw [h]
  decide

theorem handled_ne_ok (failure : Failure) : (exitOf (handled failure)).code ≠ EXIT_OK := by
  cases failure with
  | cli message =>
    change cliErrorExit message ≠ EXIT_OK
    unfold cliErrorExit
    split
    · decide
    split
    · decide
    split <;> decide
  | escaped exc => exact Nat.one_ne_zero

def Invocation.connects (inv : Invocation) : Bool := inv.token.getD [] ≠ [] && inv.url.isSome

section Running

variable {platform : Platform} {inv : Invocation}

theorem lift_run {α : Type} (result : Except Failure α) (w : World) :
    (lift result).run w = (result, w) := by
  cases result <;> rfl

variable (inv) in
theorem callTool_run (call : ToolCall) (w : World) :
    ∃ w', (callTool inv call).run w = (inv.answer w.calls.length, w') ∧ w'.staging = w.staging ∧
      w'.calls = w.calls ++ [call] ∧ w'.clock = w.clock + inv.took w.calls.length := by
  refine ⟨{ w with clock := w.clock + inv.took w.calls.length, calls := w.calls ++ [call] }, ?_,
    rfl, rfl, rfl⟩
  rw [callTool, Effect.bind_ok (Effect.get_run w), Effect.bind_ok (Effect.modify_run _ w), lift_run]

variable (inv) in
theorem ask_run {α : Type} (call : ToolCall) (read : Json.Value → Except Failure α) (w : World) :
    ∃ w', (do lift (read (← callTool inv call)) : Run α).run w =
        (inv.answer w.calls.length >>= read, w') ∧
      w'.staging = w.staging ∧ w'.calls = w.calls ++ [call] ∧
      w'.clock = w.clock + inv.took w.calls.length := by
  obtain ⟨w', hCall, hCalled⟩ := callTool_run inv call w
  refine ⟨w', ?_, hCalled⟩
  cases hAnswer : inv.answer w.calls.length with
  | error failure =>
    rw [hAnswer] at hCall
    exact Effect.bind_error hCall
  | ok out =>
    rw [hAnswer] at hCall
    rw [Effect.bind_ok hCall]
    exact lift_run _ _

theorem catching_ok {α : Type} {body : Run α} {rest : α → Run Outcome} {w w' : World} {a : α}
    (h : body.run w = (.ok a, w')) : (catching body rest).run w = (rest a).run w' := by
  rw [catching, Effect.bind_ok (Effect.attempt_run h)]

theorem catching_error {α : Type} {body : Run α} {rest : α → Run Outcome} {w w' : World}
    {failure : Failure} (h : body.run w = (.error failure, w')) :
    (catching body rest).run w = (handled failure, w') := by
  rw [catching, Effect.bind_ok (Effect.attempt_run h)]
  cases failure <;> rfl

theorem catching_pure (body : Run Outcome) (w : World) :
    (catching body pure).run w = (concluded (body.run w).1, (body.run w).2) := by
  rcases hRun : body.run w with ⟨_ | _, w'⟩
  · exact catching_error hRun
  · exact catching_ok hRun

variable (inv) in
theorem connected_run (rest : Run Outcome) (w : World) :
    (inv.connects = true ∧ (connected inv rest).run w = rest.run w) ∨
      inv.connects = false ∧ ∃ result, (connected inv rest).run w = (result, w) ∧
        concluded result = .ok (exits EXIT_LOCAL) := by
  rw [connected, Invocation.connects]
  split
  · rename_i hToken
    exact Or.inr ⟨by simp [hToken], _, rfl, rfl⟩
  · rename_i hToken
    cases hUrl : inv.url with
    | none =>
      have hRaise : ∃ failure, (resolveUrl inv).run w = (.error failure, w) ∧
          concluded (.error failure) = .ok (exits EXIT_LOCAL) := by
        rw [resolveUrl, hUrl]
        exact ⟨_, rfl, rfl⟩
      obtain ⟨failure, hRaise, hLocal⟩ := hRaise
      exact Or.inr ⟨by simp, .error failure, Effect.bind_error hRaise, hLocal⟩
    | some url =>
      have hUrlRun : (resolveUrl inv).run w = (.ok url, w) := by
        rw [resolveUrl, hUrl]
        rfl
      exact Or.inl ⟨by simp [hToken], Effect.bind_ok hUrlRun⟩

/-! ## Checkins -/

theorem findManifest_fails {manifests : List (Staged Manifest)} {manifestSha : Option Text}
    {failure : Failure} (h : findManifest manifests manifestSha = .error failure) :
    concluded (.error failure) = .ok (exits EXIT_LOCAL) := by
  unfold findManifest at h
  split at h
  · split at h <;> cases h
    rfl
  · split at h <;> cases h
    rfl

/-- The checkin gets as far as the tool call, with the token of this manifest. -/
structure Attempts (inv : Invocation) (manifests : List (Staged Manifest))
    (manifestSha : Option Text) (fromFile : Option Bytes) (data : Bytes)
    (found : Staged Manifest) : Prop where
  connects : inv.connects = true
  fromFile : fromFile = some data
  picked : findManifest manifests manifestSha = .ok found
  token : truth (found.value.lockToken.getD .null) = true
  lockFree : inv.lockFree = true

def markedIn (found : Staged Manifest) (clock : Int) (staging : Staging) : Staging :=
  { staging with
    manifests := file ⟨found.value.sha256, clock, { found.value with checkedOut := some false }⟩
      staging.manifests }

def checkinEnd (platform : Platform) (data : Bytes) (found : Staged Manifest) (w : World) :
    Except Failure (Option Nat) → Except Failure Outcome × World
  | .ok none => (.ok ⟨EXIT_OK, some (.checkedIn (platform.sha256 data) data.length)⟩,
      { w with staging := markedIn found w.clock w.staging })
  | .ok (some code) => (.ok (exits code), w)
  | .error failure => (.error failure, w)

variable (platform inv) in
theorem cmdCheckin_run (path : Text) (manifestSha : Option Text) (fromFile : Option Bytes)
    (staging : Staging) (clock : Int) :
    let run := (cmdCheckin platform inv path manifestSha fromFile).run ⟨staging, clock, []⟩
    ((∀ data found, ¬Attempts inv staging.manifests manifestSha fromFile data found) ∧
      run.2 = ⟨staging, clock, []⟩ ∧ concluded run.1 = .ok (exits EXIT_LOCAL)) ∨
    ∃ data found w, Attempts inv staging.manifests manifestSha fromFile data found ∧
      w.staging = staging ∧ w.calls = [.checkin path data (found.value.lockToken.getD .null)] ∧
      run = checkinEnd platform data found w (inv.answer 0 >>= checkinStatus) := by
  dsimp only
  unfold cmdCheckin
  rcases connected_run inv _ ⟨staging, clock, []⟩ with
    ⟨hConnects, hRun⟩ | ⟨hConnects, result, hRun, hLocal⟩
  · rw [hRun]
    cases fromFile with
    | none => exact Or.inl ⟨fun _ _ h => (nomatch h.fromFile), rfl, rfl⟩
    | some data =>
      dsimp only
      rw [Effect.bind_ok (Effect.get_run _)]
      cases hFind : findManifest staging.manifests manifestSha with
      | error failure =>
        rw [Effect.bind_error (lift_run _ _)]
        refine Or.inl ⟨fun _ _ h => ?_, rfl, findManifest_fails hFind⟩
        exact nomatch hFind.symm.trans h.picked
      | ok found =>
        rw [Effect.bind_ok (lift_run _ _)]
        have hFound {data' : Bytes} {other : Staged Manifest}
            (h : Attempts inv staging.manifests manifestSha (some data) data' other) :
            found = other := Except.ok.inj (hFind.symm.trans h.picked)
        split
        · rename_i hToken
          refine Or.inl ⟨fun _ _ h => ?_, rfl, rfl⟩
          simp [hFound h, h.token] at hToken
        split
        · rename_i hLock
          refine Or.inl ⟨fun _ _ h => ?_, rfl, rfl⟩
          simp [h.lockFree] at hLock
        rename_i hToken hLock
        have hAttempts : Attempts inv staging.manifests manifestSha (some data) data found :=
          ⟨hConnects, rfl, hFind, by simpa using hToken, by simpa using hLock⟩
        rw [← Effect.bind_assoc]
        obtain ⟨w, hAsk, hStaging, hCalls, _⟩ := ask_run inv
          (.checkin path data (found.value.lockToken.getD .null)) checkinStatus
          ⟨staging, clock, []⟩
        refine Or.inr ⟨data, found, w, hAttempts, hStaging, hCalls, ?_⟩
        match hStatus : inv.answer 0 >>= checkinStatus with
        | .error failure => exact Effect.bind_error (hAsk.trans (congrArg (·, w) hStatus))
        | .ok (some code) => exact Effect.bind_ok (hAsk.trans (congrArg (·, w) hStatus))
        | .ok none => exact Effect.bind_ok (hAsk.trans (congrArg (·, w) hStatus))
  · rw [hRun]
    refine Or.inl ⟨fun _ _ h => ?_, rfl, hLocal⟩
    rw [h.connects] at hConnects
    cases hConnects

end Running

end AccessBroker.Cli
