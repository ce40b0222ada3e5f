import AccessBroker.Cli.Endings
import AccessBroker.Cli.LockTokens

/-! # What is staged without verification

A fetch and a checkout file nothing before what the broker returned is verified. The line of
a checkout is printed after it has filed everything, and printing can fail.
-/

namespace AccessBroker.Cli
open Py
set_option autoImplicit false

/-- The transfers that stage a file: a checkout with its timeout, or a fetch. -/
def stagingTransfer (path : Text) : Option Int → Transfer
  | none => .fetch path
  | some timeout => .checkout path timeout

/-- What the tool call returned, if it is good: the content, and a checkout's token. -/
def Transfer.returned (platform : Platform) (inv : Invocation) :
    Transfer → Option (Bytes × Option Json.Value)
  | .fetch _ => (inv.answer 0 >>= readReply platform).toOption.map fun data => (data, none)
  | .checkout _ _ => (inv.answer 0 >>= checkoutReply platform).toOption.map fun locked =>
      (locked.1, some locked.2)
  | _ => none

/-- A content is filed under its digest, with a manifest that says what it is. -/
structure Staging.Records (platform : Platform) (instanceName path : Text) (data : Bytes)
    (lockToken : Option Json.Value) (staging : Staging) : Prop where
  content : ∃ entry ∈ staging.contents, entry.digest = platform.sha256 data ∧ entry.value = data
  manifest : ∃ entry ∈ staging.manifests, entry.digest = platform.sha256 data ∧
    entry.value.sha256 = platform.sha256 data ∧ entry.value.sizeBytes = data.length ∧
    entry.value.instanceName = instanceName ∧ entry.value.remotePath = path ∧
    entry.value.lockToken = lockToken

/-- Nothing but the age-based collection has touched the directory. -/
def Staging.OnlyCollected (staging : Staging) (clock : Int) (after : Staging) : Prop :=
  after = staging ∨ after = staging.collect clock

/-- Either it succeeds and the returned content is filed, or it fails and nothing is. -/
def StagesVerified (platform : Platform) (instanceName : Text) (inv : Invocation)
    (staging : Staging) (clock : Int) (t : Transfer) (path : Text)
    (run : Except Failure Outcome × World) : Prop :=
  ((exitOf run.1).code = EXIT_OK ∧ ∃ data lockToken,
    t.returned platform inv = some (data, lockToken) ∧
    run.2.staging.Records platform instanceName path data lockToken) ∨
  ((exitOf run.1).code ≠ EXIT_OK ∧ staging.OnlyCollected clock run.2.staging)

section Staging

variable {platform : Platform} {instanceName : Text} {inv : Invocation} {staging : Staging}
  {clock : Int} {path : Text}

theorem stagedIn_records (data : Bytes) (lockToken : Option Json.Value)
    (checkedOut : Option Bool) (clock : Int) (staging : Staging) :
    (stagedIn data { fetchManifest platform instanceName path data with lockToken, checkedOut }
      clock staging).Records platform instanceName path data lockToken where
  content := ⟨_, List.mem_cons_self, rfl, rfl⟩
  manifest := ⟨_, List.mem_cons_self, rfl, rfl, rfl, rfl, rfl, rfl⟩

/-- A command whose call failed, or that has not got to it, has filed nothing. -/
theorem stagesVerified_of_failed {t : Transfer} {result : Except Failure Outcome} {w : World}
    (hCode : (exitOf result).code ≠ EXIT_OK) (hStaging : staging.OnlyCollected clock w.staging) :
    StagesVerified platform instanceName inv staging clock t path (result, w) :=
  Or.inr ⟨hCode, hStaging⟩

theorem exits_local_ne_ok {result : Except Failure Outcome}
    (h : concluded result = .ok (exits EXIT_LOCAL)) :
    (exitOf (concluded result >>= printed)).code ≠ EXIT_OK := by
  rw [h]
  exact Nat.one_ne_zero

theorem fetch_stages (platform : Platform) (instanceName : Text) (inv : Invocation)
    (staging : Staging) (clock : Int) (path : Text) :
    StagesVerified platform instanceName inv staging clock (.fetch path) path
      ((runTransfer platform instanceName inv (.fetch path)).run ⟨staging, clock, []⟩) := by
  have hEnds := transfer_ends platform instanceName inv staging clock (.fetch path)
  rw [runTransfer_run]
  generalize (transfer platform instanceName inv (.fetch path)).run ⟨staging, clock, []⟩ = run
    at hEnds ⊢
  cases hEnds with
  | stops _ hResult _ hStaging =>
    exact stagesVerified_of_failed (exits_local_ne_ok hResult) hStaging
  | fetch _ hStaging _ _ =>
    cases hAnswer : inv.answer 0 >>= readReply platform with
    | error failure =>
      refine stagesVerified_of_failed ?_ (Or.inr hStaging)
      rw [fetchEnd, concluded_handled]
      exact handled_ne_ok failure
    | ok data =>
      refine Or.inl ⟨rfl, data, none, ?_, stagedIn_records data none none _ _⟩
      rw [Transfer.returned, hAnswer]
      rfl

theorem checkout_stages_iff (platform : Platform) (instanceName : Text) (inv : Invocation)
    (staging : Staging) (clock : Int) (path : Text) (timeout : Int) :
    StagesVerified platform instanceName inv staging clock (.checkout path timeout) path
        ((runTransfer platform instanceName inv (.checkout path timeout)).run
          ⟨staging, clock, []⟩) ↔
      ∀ data lockToken, inv.connects = true →
        inv.answer 0 >>= checkoutReply platform = .ok (data, lockToken) →
        printable lockToken = true ∨ staging.OnlyCollected clock (stagedIn data
          (checkoutManifest platform instanceName path data lockToken) (clock + inv.took 0)
          (staging.collect clock)) := by
  have hEnds := transfer_ends platform instanceName inv staging clock (.checkout path timeout)
  rw [runTransfer_run]
  generalize (transfer platform instanceName inv (.checkout path timeout)).run ⟨staging, clock, []⟩
    = run at hEnds ⊢
  cases hEnds with
  | stops hReaches hResult _ hStaging =>
    refine iff_of_true (stagesVerified_of_failed (exits_local_ne_ok hResult) hStaging) ?_
    exact fun _ _ hConnects => absurd hConnects hReaches
  | checkout hReaches hStaging _ hClock =>
    cases hAnswer : inv.answer 0 >>= checkoutReply platform with
    | error failure =>
      refine iff_of_true (stagesVerified_of_failed ?_ (Or.inr hStaging)) nofun
      rw [checkoutEnd, concluded_handled]
      exact handled_ne_ok failure
    | ok locked =>
      obtain ⟨data, lockToken⟩ := locked
      have hReturned : (Transfer.checkout path timeout).returned platform inv =
          some (data, some lockToken) := by
        rw [Transfer.returned, hAnswer]
        rfl
      have hPrinted : printed ⟨EXIT_OK, some (.checkedOut (platform.sha256 data) data.length
          lockToken)⟩ = if printable lockToken then
            .ok ⟨EXIT_OK, some (.checkedOut (platform.sha256 data) data.length lockToken)⟩
          else .error (.escaped "UnicodeEncodeError".toList) := rfl
      rw [checkoutEnd]
      change StagesVerified _ _ _ _ _ _ _ (printed _, _) ↔ _
      rw [hPrinted, World.stage, hStaging, hClock]
      cases hPrintable : printable lockToken with
      | true =>
        refine iff_of_true (Or.inl ⟨rfl, data, some lockToken, hReturned, ?_⟩) ?_
        · exact stagedIn_records data (some lockToken) (some true) _ _
        · intro data' lockToken' _ hSame
          cases hSame
          exact Or.inl hPrintable
      | false =>
        constructor
        · rintro (⟨hCode, _⟩ | ⟨_, hSame⟩) data' lockToken' _ hReply
          · cases hCode
          · cases hReply
            exact Or.inr hSame
        · intro h
          refine Or.inr ⟨Nat.one_ne_zero, ?_⟩
          exact (h data lockToken hReaches rfl).resolve_left (by rw [hPrintable]; decide)

/-- Whatever the broker answers, a fetch or a checkout that succeeds has filed what was returned,
and one that fails has filed nothing, unless it is a checkout whose token cannot be printed. -/
theorem stagesVerified_iff (platform : Platform) (instanceName : Text) (inv : Invocation)
    (staging : Staging) (clock : Int) (path : Text) (timeout : Option Int) :
    StagesVerified platform instanceName inv staging clock (stagingTransfer path timeout) path
        ((runTransfer platform instanceName inv (stagingTransfer path timeout)).run
          ⟨staging, clock, []⟩) ↔
      ∀ data lockToken, timeout.isSome = true → inv.connects = true →
        inv.answer 0 >>= checkoutReply platform = .ok (data, lockToken) →
        printable lockToken = true ∨ staging.OnlyCollected clock (stagedIn data
          (checkoutManifest platform instanceName path data lockToken) (clock + inv.took 0)
          (staging.collect clock)) := by
  cases timeout with
  | none =>
    refine iff_of_true (fetch_stages platform instanceName inv staging clock path) ?_
    exact fun _ _ h => by cases h
  | some timeout =>
    rw [stagingTransfer, checkout_stages_iff]
    simp

/-- A token that holds half a surrogate pair. -/
def surrogateInvocation : Invocation :=
  { plainInvocation with
    answer := fun _ => .ok (.obj [(Json.codes "result".toList,
        .obj [(Json.codes "content_b64".toList, .ofText "x".toList),
          (Json.codes "lock_token".toList, .str [0xD800])]),
      (Json.codes "status".toList, .ofText "ok".toList)]) }

theorem staged_unprinted :
    ¬StagesVerified plainPlatform "nc".toList surrogateInvocation ⟨[], []⟩ 0
      (stagingTransfer "a".toList (some 0)) "a".toList
      ((runTransfer plainPlatform "nc".toList surrogateInvocation
        (stagingTransfer "a".toList (some 0))).run ⟨⟨[], []⟩, 0, []⟩) := by
  rintro (⟨hCode, _⟩ | ⟨_, hSame | hSame⟩)
  · exact absurd hCode (by decide +kernel)
  · exact absurd (congrArg (fun staging => staging.contents.length) hSame) (by decide +kernel)
  · exact absurd (congrArg (fun staging => staging.contents.length) hSame) (by decide +kernel)

end Staging

end AccessBroker.Cli
