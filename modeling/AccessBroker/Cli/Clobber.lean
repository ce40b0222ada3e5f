import AccessBroker.Cli.Endings
import AccessBroker.Cli.LockTokens

/-! # Pushes against an expectation

The command line takes `--force`, `--expect-size` and `--expect-sha` for a push, and there is an
exit code for a push that would clobber the remote file. Neither is used.
-/

namespace AccessBroker.Cli
open Py
set_option autoImplicit false

def MayWrite (platform : Platform) (remote : Option Bytes) (force : Bool)
    (expectSize : Option Int) (expectSha : Option Text) : Prop :=
  force = true ∨ ∀ content, remote = some content →
    (expectSize.isSome = true ∨ expectSha.isSome = true) ∧
      (∀ size, expectSize = some size → (content.length : Int) = size) ∧
      ∀ sha, expectSha = some sha → platform.sha256 content = sha

/-- The remote file after the tool calls, the first of which is the `n`-th: a write that the broker
accepts replaces it. -/
def remoteAfter (inv : Invocation) (remote : Option Bytes) : Nat → List ToolCall → Option Bytes
  | _, [] => remote
  | n, .write _ data :: calls =>
    match inv.answer n >>= checkinStatus with
    | .ok none => remoteAfter inv (some data) (n + 1) calls
    | _ => remoteAfter inv remote (n + 1) calls
  | n, _ :: calls => remoteAfter inv remote (n + 1) calls

/-- It writes only where it may, and where it may not it says so and leaves the remote file. -/
structure Guarded (platform : Platform) (inv : Invocation) (remote : Option Bytes)
    (may : Prop) (path : Text) (run : Except Failure Outcome × World) : Prop where
  writes : (∃ data, .write path data ∈ run.2.calls) → may
  refuses : ¬may → (exitOf run.1).code = EXIT_CLOBBER ∧ remoteAfter inv remote 0 run.2.calls = remote

section Push

variable {platform : Platform} {instanceName : Text} {inv : Invocation}

theorem cliErrorExit_ne_clobber (message : Text) : cliErrorExit message ≠ EXIT_CLOBBER := by
  unfold cliErrorExit
  split
  · decide
  split
  · decide
  split <;> decide

theorem handled_ne_clobber (failure : Failure) :
    (exitOf (handled failure)).code ≠ EXIT_CLOBBER := by
  cases failure with
  | cli message => exact cliErrorExit_ne_clobber message
  | escaped exc => exact (by decide : 1 ≠ EXIT_CLOBBER)

/-- No push exits with the code for a clobber. -/
theorem push_ne_clobber (staging : Staging) (clock : Int) (path : Text) (fromFile : Option Bytes)
    (force : Bool) (expectSize : Option Int) (expectSha : Option Text) :
    (exitOf ((runTransfer platform instanceName inv
      (.push path fromFile force expectSize expectSha)).run ⟨staging, clock, []⟩).1).code ≠
        EXIT_CLOBBER := by
  have hEnds := transfer_ends platform instanceName inv staging clock
    (.push path fromFile force expectSize expectSha)
  rw [runTransfer_run]
  generalize (transfer platform instanceName inv (.push path fromFile force expectSize expectSha)).run
    ⟨staging, clock, []⟩ = run at hEnds ⊢
  cases hEnds with
  | stops _ hResult _ _ =>
    rw [hResult]
    exact (by decide : EXIT_LOCAL ≠ EXIT_CLOBBER)
  | written _ _ _ hResult =>
    rcases hResult with ⟨code, hStatus, rfl⟩ | ⟨failure, _, rfl⟩
    · rcases checkinStatus_code hStatus with rfl | rfl
      · exact (by decide : EXIT_REFUSED ≠ EXIT_CLOBBER)
      · exact (by decide : EXIT_INFRA ≠ EXIT_CLOBBER)
    · cases failure with
      | cli message => exact handled_ne_clobber (.cli message)
      | escaped exc => exact handled_ne_clobber (.escaped exc)
  | readBack _ _ _ _ =>
    match inv.answer 1 >>= readReply platform with
    | .error (.cli message) => exact (by decide : EXIT_VERIFICATION ≠ EXIT_CLOBBER)
    | .error (.escaped exc) => exact (by decide : 1 ≠ EXIT_CLOBBER)
    | .ok back =>
      rw [readBackEnd]
      split
      · exact (by decide : EXIT_VERIFICATION ≠ EXIT_CLOBBER)
      · exact (by decide : EXIT_OK ≠ EXIT_CLOBBER)

end Push

/-- A push keeps to its expectation exactly if it happens to be allowed: in no other case does it
refuse. -/
theorem push_guarded_iff (platform : Platform) (instanceName : Text) (inv : Invocation)
    (staging : Staging) (clock : Int) (remote : Option Bytes) (path : Text)
    (fromFile : Option Bytes) (force : Bool) (expectSize : Option Int) (expectSha : Option Text) :
    Guarded platform inv remote (MayWrite platform remote force expectSize expectSha) path
        ((runTransfer platform instanceName inv
          (.push path fromFile force expectSize expectSha)).run ⟨staging, clock, []⟩) ↔
      MayWrite platform remote force expectSize expectSha := by
  constructor
  · intro h
    by_contra hMay
    exact push_ne_clobber staging clock path fromFile force expectSize expectSha (h.refuses hMay).1
  · exact fun hMay => ⟨fun _ => hMay, fun h => absurd hMay h⟩

/-- A file of another size than expected is overwritten, and the push succeeds. -/
theorem push_clobbers :
    let may := MayWrite plainPlatform (some [1, 2]) false (some 5) none
    let run := (runTransfer plainPlatform "nc".toList plainInvocation
      (.push "a".toList (some [120]) false (some 5) none)).run ⟨⟨[], []⟩, 0, []⟩
    ¬may ∧ (exitOf run.1).code = EXIT_OK ∧
      remoteAfter plainInvocation (some [1, 2]) 0 run.2.calls = some [120] ∧
      ¬Guarded plainPlatform plainInvocation (some [1, 2]) may "a".toList run := by
  intro may run
  have hMay : ¬may := by
    rintro (h | h)
    · cases h
    · have hSize := (h [1, 2] rfl).2.1 5 rfl
      cases hSize
  have hCode : (exitOf run.1).code = EXIT_OK := by decide +kernel
  refine ⟨hMay, hCode, by decide +kernel, fun h => ?_⟩
  have hClobber := (h.refuses hMay).1
  rw [hCode] at hClobber
  cases hClobber

end AccessBroker.Cli
