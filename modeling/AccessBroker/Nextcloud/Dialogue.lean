import AccessBroker.Nextcloud.Outcomes
import Mathlib.Algebra.GroupWithZero.Nat

/-! # What was said to the transport

The verbs an operation calls, in order and with what came of them. The replies of the
environment are numbered with all its other answers, so a trace tells which ones they were.
-/

namespace AccessBroker.Nextcloud
open Py Paths Grants Audit
set_option autoImplicit false

/-- A verb that was called, and how it ended. -/
structure Exchange where
  instanceName : Text
  call : Verb
  ended : Except TransportError Reply

/-- How many questions an event stands for; a decision of the wall asks for two instants. -/
def Event.questions : Event → Nat
  | .checked .. => 2
  | _ => 1

def dialogue (env : Environment) : Nat → List Event → List Exchange
  | _, [] => []
  | k, .verb instanceName call :: events =>
    ⟨instanceName, call, env.reply k⟩ :: dialogue env (k + 1) events
  | k, event :: events => dialogue env (k + event.questions) events

/-- What a run adds to the trace is this dialogue. -/
def Says (env : Environment) (w w' : World) (said : List Exchange) : Prop :=
  ∃ events, w'.trace = w.trace ++ events ∧
    w'.asked = w.asked + (events.map Event.questions).sum ∧ dialogue env w.asked events = said

section Dialogues

variable {env : Environment} {w w' between : World} {said more : List Exchange}

theorem dialogue_append (events others : List Event) (k : Nat) : dialogue env k (events ++ others) =
    dialogue env k events ++ dialogue env (k + (events.map Event.questions).sum) others := by
  induction events generalizing k with
  | nil => rfl
  | cons event events ih =>
    rw [List.map_cons, List.sum_cons, ← Nat.add_assoc]
    cases event with
    | verb instanceName call => exact congrArg _ (ih (k + 1))
    | checked | appended | appendFailed => exact ih _

theorem Says.refl (env : Environment) (w : World) : Says env w w [] :=
  ⟨[], (List.append_nil _).symm, rfl, rfl⟩

theorem Says.trans (hFirst : Says env w between said) (hSecond : Says env between w' more) :
    Says env w w' (said ++ more) := by
  obtain ⟨events, hEvents, hAsked, hSaid⟩ := hFirst
  obtain ⟨others, hOthers, hAsked', hMore⟩ := hSecond
  refine ⟨events ++ others, by rw [hOthers, hEvents, List.append_assoc], ?_, ?_⟩
  · rw [hAsked', hAsked, List.map_append, List.sum_append, Nat.add_assoc]
  · rw [dialogue_append, hSaid, ← hAsked, hMore]

/-- What was said is determined by where a run begins and ends. -/
theorem Says.unique (hFirst : Says env w w' said) (hSecond : Says env w w' more) : said = more := by
  obtain ⟨events, hEvents, _, rfl⟩ := hFirst
  obtain ⟨others, hOthers, _, rfl⟩ := hSecond
  rw [List.append_cancel_left (hEvents.symm.trans hOthers)]

variable (platform : Platform) (layer : Layer) (db : Database) (instanceName : Text)

variable (env) in
theorem auditRecord_speaks (s : AuditState) (entry : Entry) (w : World) :
    Says env w ((auditRecord platform env s entry).run w).2 [] := by
  rcases auditRecord_cases platform env s entry w with ⟨s', hRun, _⟩ | ⟨s', cause, hRun⟩
  · rw [hRun]
    exact ⟨[_], rfl, rfl, rfl⟩
  · rw [hRun]
    exact ⟨[_], rfl, rfl, rfl⟩

variable (env) in
theorem auditRefusal_speaks (path operation reason : Text) (w : World) :
    Says env w ((auditRefusal platform layer env instanceName path operation reason).run w).2 [] := by
  rw [auditRefusal, Effect.bind_ok (Effect.get_run w)]
  cases w.audit with
  | none => exact .refl env w
  | some s =>
    dsimp only
    have hSays := auditRecord_speaks env platform s
      (refusedEntry layer instanceName path operation reason) w
    rcases hRun : (auditRecord platform env s
        (refusedEntry layer instanceName path operation reason)).run w with ⟨_ | _, w'⟩
    · rw [hRun] at hSays
      rw [Effect.handle_error hRun]
      exact hSays
    · rw [hRun] at hSays
      rw [Effect.handle_ok hRun]
      exact hSays

variable (env) in
theorem refuse_speaks (path operation reason : Text) (err : LayerError) (w : World) :
    Says env w ((do
      auditRefusal platform layer env instanceName path operation reason
      Effect.raise err : Run Text).run w).2 [] := by
  rw [Effect.bind_state fun _ _ => rfl]
  exact auditRefusal_speaks env platform layer instanceName path operation reason w

variable (env) in
theorem authorized_speaks (path mode : Text) (w : World) :
    Says env w ((authorized platform layer db env instanceName path mode).run w).2 [] := by
  rw [authorized]
  split
  · exact refuse_speaks env platform layer instanceName _ _ _ _ w
  split
  · exact refuse_speaks env platform layer instanceName _ _ _ _ w
  · rename_i norm _
    obtain ⟨w₁, hWall, hAsked, _, hTrace⟩ := wall_run layer db env instanceName norm mode w
    have hChecked : Says env w w₁ [] := ⟨_, hTrace, hAsked, rfl⟩
    rw [Effect.bind_ok hWall]
    split
    · exact hChecked
    · exact hChecked.trans (refuse_speaks env platform layer instanceName _ _ _ _ w₁)

variable (env) in
theorem callVerb_speaks (call : Verb) (w : World) :
    Says env w ((scrubErrors layer instanceName (callVerb env instanceName call)).run w).2
      [⟨instanceName, call, env.reply w.asked⟩] := by
  obtain ⟨result, hRun⟩ := callVerb_run layer env instanceName call w
  rw [hRun]
  exact ⟨[.verb instanceName call], rfl, rfl, rfl⟩

variable {platform layer db instanceName}

variable (platform) in
/-- A record that is written is followed by the call. -/
theorem auditAnd_speaks {path operation reason : Text} (call : Verb) {principal : Option Text}
    (hPermits : Permits env w.asked w.audit
      (allowedEntry layer instanceName path operation reason principal)) :
    Says env w
      ((auditAnd platform layer env instanceName path operation reason call principal).run w).2
      [⟨instanceName, call, env.reply (callQuestion w)⟩] := by
  rw [auditAnd, Effect.bind_ok (Effect.get_run w), callQuestion]
  cases hAudit : w.audit with
  | none => exact callVerb_speaks env layer instanceName call w
  | some s =>
    dsimp only
    rcases auditRecord_leaves platform env w s
        (allowedEntry layer instanceName path operation reason principal) with
      ⟨_, s', hRun, _⟩ | ⟨hNot, _⟩
    · have hRecord := auditRecord_speaks env platform s
        (allowedEntry layer instanceName path operation reason principal) w
      rw [hRun] at hRecord
      rw [Effect.bind_ok hRun]
      exact hRecord.trans (callVerb_speaks env layer instanceName call _)
    · exact absurd (hPermits s hAudit) hNot

/-! ## Operations -/

/-- An operation that has one verb called, once the wall has passed its path. -/
theorem guarded_speaks {path mode operation reason : Text} {call : Text → Verb}
    {principal : Option Text} {reply : Reply}
    (hRun : (do
      let norm ← authorized platform layer db env instanceName path mode
      auditAnd platform layer env instanceName norm operation reason (call norm) principal :
        Run Reply).run w = (.ok reply, w')) :
    ∃ norm, namespaceGuard platform path = some norm ∧
      Says env w w' [⟨instanceName, call norm, .ok reply⟩] := by
  have hWall := authorized_speaks env platform layer db instanceName path mode w
  rcases authorized_decides platform layer db env instanceName path mode w with
    ⟨norm, w₁, hPasses, hPass, _⟩ | ⟨_, err, w₁, _, _, hRefuse, _⟩
  · rw [hPass] at hWall
    rw [Effect.bind_ok hPass] at hRun
    rcases auditAnd_leaves platform layer env instanceName w₁ norm operation reason (call norm)
        principal with ⟨hPermits, result, w₂, hCall, hReply, _⟩ | ⟨_, err, w₂, hCall, _⟩
    · have hSays := auditAnd_speaks platform (call norm) hPermits
      rw [hRun] at hCall hSays
      cases hCall
      rw [(hReply reply).mp rfl] at hSays
      exact ⟨norm, hPasses.guard, hWall.trans hSays⟩
    · rw [hRun] at hCall
      cases hCall
  · rw [Effect.bind_error hRefuse] at hRun
    cases hRun

def putQuestion (w : World) : Nat := callQuestion { w with asked := w.asked + 2 }

def unlockQuestion (w : World) : Nat := callQuestion { w with asked := putQuestion w + 1 }

variable (platform layer db env instanceName) in
structure CarriesThrough (path : Text) (principal : Option Text) (w : World) (norm : Text) : Prop where
  passes : Passes platform layer db env.clock w.asked instanceName path WRITE norm
  recorded : Permits env (w.asked + 2) w.audit
    (allowedEntry layer instanceName norm "checkin".toList "granted write".toList principal)
  written : ∃ reply, env.reply (putQuestion w) = .ok reply
  recordedNext : PermitsNext env (putQuestion w + 1) w.audit
    (allowedEntry layer instanceName norm "checkin-unlock".toList "lock released".toList principal)
  unlocked : ∃ reply, env.reply (unlockQuestion w) = .ok reply

variable (platform layer db env instanceName) in
/-- A checkin returns exactly if it is carried through, and then it has put and unlocked. -/
theorem checkin_cases (path : Text) (data : Bytes) (lockToken : Text) (principal : Option Text)
    (w : World) :
    ∃ result w', (checkin platform layer db env instanceName path data lockToken principal).run w =
        (result, w') ∧
      ((∃ value, result = .ok value) ↔
        ∃ norm, CarriesThrough env platform layer db instanceName path principal w norm) ∧
      ((∃ value, result = .ok value) → ∃ norm written unlocked, Says env w w'
        [⟨instanceName, .put norm data (some lockToken), written⟩,
          ⟨instanceName, .unlock norm lockToken, unlocked⟩]) := by
  have hWall := authorized_speaks env platform layer db instanceName path WRITE w
  rcases authorized_decides platform layer db env instanceName path WRITE w with
    ⟨norm, w₁, hPasses, hPass, hAsked, hAudit, _⟩ | ⟨hNone, err, w₁, _, _, hRefuse, _⟩
  swap
  · refine ⟨.error err, w₁, Effect.bind_error hRefuse, iff_of_false (by simp) ?_, by simp⟩
    exact fun ⟨norm, hCarries⟩ => hNone norm hCarries.passes
  have hNorm {norm' : Text}
      (h : CarriesThrough env platform layer db instanceName path principal w norm') :
      norm' = norm := h.passes.norm_eq hPasses.guard
  have hPut : callQuestion w₁ = putQuestion w :=
    callQuestion_congr hAsked (congrArg Option.isSome hAudit)
  rw [hPass] at hWall
  rcases auditAnd_leaves platform layer env instanceName w₁ norm "checkin".toList
      "granted write".toList (.put norm data (some lockToken)) principal with
    ⟨hPermits, written, w₂, hWrite, hWritten, hAsked₂, hNext, hAudit₂, _⟩ | ⟨hNot, err, w₂, hWrite, _⟩
  swap
  · refine ⟨.error err, w₂, (Effect.bind_ok hPass).trans (Effect.bind_error hWrite),
      iff_of_false (by simp) ?_, by simp⟩
    rintro ⟨norm', hCarries⟩
    cases hNorm hCarries
    rw [hAsked, hAudit] at hNot
    exact hNot hCarries.recorded
  have hSaid := auditAnd_speaks platform (.put norm data (some lockToken)) hPermits
  rw [hWrite, hPut] at hSaid
  rw [hPut] at hWritten hAsked₂
  cases written with
  | error err =>
    refine ⟨.error err, w₂, (Effect.bind_ok hPass).trans (Effect.bind_error hWrite),
      iff_of_false (by simp) ?_, by simp⟩
    rintro ⟨norm', hCarries⟩
    obtain ⟨reply, hOk⟩ := hCarries.written
    cases (hWritten reply).mpr hOk
  | ok written =>
  have hUnlock : callQuestion w₂ = unlockQuestion w :=
    callQuestion_congr hAsked₂ (hAudit₂.trans (congrArg Option.isSome hAudit))
  rw [hAudit] at hNext hPermits
  rw [hAsked] at hPermits
  rcases auditAnd_leaves platform layer env instanceName w₂ norm "checkin-unlock".toList
      "lock released".toList (.unlock norm lockToken) principal with
    ⟨hPermits₂, unlocked, w₃, hRelease, hUnlocked, _⟩ | ⟨hNot, err, w₃, hRelease, _⟩
  swap
  · refine ⟨.error err, w₃, (Effect.bind_ok hPass).trans ((Effect.bind_ok hWrite).trans
      (Effect.bind_error hRelease)), iff_of_false (by simp) ?_, by simp⟩
    rintro ⟨norm', hCarries⟩
    cases hNorm hCarries
    rw [hNext, hAsked₂] at hNot
    exact hNot hCarries.recordedNext
  have hReleased := auditAnd_speaks platform (.unlock norm lockToken) hPermits₂
  rw [hRelease, hUnlock] at hReleased
  rw [hUnlock] at hUnlocked
  cases unlocked with
  | error err =>
    refine ⟨.error err, w₃, (Effect.bind_ok hPass).trans ((Effect.bind_ok hWrite).trans
      (Effect.bind_error hRelease)), iff_of_false (by simp) ?_, by simp⟩
    rintro ⟨norm', hCarries⟩
    obtain ⟨reply, hOk⟩ := hCarries.unlocked
    cases (hUnlocked reply).mpr hOk
  | ok unlocked =>
    rw [hNext, hAsked₂] at hPermits₂
    refine ⟨.ok (written.truth, unlocked.truth), w₃, (Effect.bind_ok hPass).trans
      ((Effect.bind_ok hWrite).trans ((Effect.bind_ok hRelease).trans rfl)),
      iff_of_true ⟨_, rfl⟩ ⟨norm, hPasses, hPermits, ⟨written, (hWritten written).mp rfl⟩,
        hPermits₂, unlocked, (hUnlocked unlocked).mp rfl⟩, fun _ => ?_⟩
    exact ⟨norm, _, _, hWall.trans (hSaid.trans hReleased)⟩

variable (platform layer db env instanceName) in
theorem operation_checkin_cases (path : Text) (data : Bytes) (lockToken : Text)
    (principal : Option Text) (w : World) :
    ∃ result w', ((Operation.checkin path data lockToken principal).run platform layer db env
        instanceName).run w = (result, w') ∧
      ((∃ answer, result = .ok answer) ↔
        ∃ norm, CarriesThrough env platform layer db instanceName path principal w norm) ∧
      ((∃ answer, result = .ok answer) → ∃ norm written unlocked, Says env w w'
        [⟨instanceName, .put norm data (some lockToken), written⟩,
          ⟨instanceName, .unlock norm lockToken, unlocked⟩]) := by
  obtain ⟨result, w', hRun, hIff, hSays⟩ :=
    checkin_cases env platform layer db instanceName path data lockToken principal w
  cases result with
  | error err =>
    refine ⟨.error err, w', Effect.bind_error hRun, (iff_of_false (by simp) ?_), by simp⟩
    exact fun h => nomatch hIff.mpr h
  | ok value =>
    refine ⟨.ok (.checkedIn value.1 value.2), w', (Effect.bind_ok hRun).trans rfl, ?_, ?_⟩
    · exact iff_of_true ⟨_, rfl⟩ (hIff.mp ⟨value, rfl⟩)
    · exact fun _ => hSays ⟨value, rfl⟩

end Dialogues

end AccessBroker.Nextcloud
