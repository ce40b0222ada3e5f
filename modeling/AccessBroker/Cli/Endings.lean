import AccessBroker.Cli.Running
import AccessBroker.Cli.Transfers

/-! # How a transfer ends

A transfer stops at home, or its exit code, its line and what it stages follow from the
answers to its tool calls.
-/

namespace AccessBroker.Cli
open Py
set_option autoImplicit false

/-! ## Answers -/

inductive Said where
  | ok
  | refused
  | failed
  deriving DecidableEq

def said (dict : Json.Dict) : Said :=
  let status := field dict "status".toList .null
  if isText "refused".toList status then .refused
  else if isText "ok".toList status then .ok
  else .failed

def Failure.Exits (code : Nat) (failure : Failure) : Prop :=
  ∃ message, failure = .cli message ∧ cliErrorExit message = code

theorem exits_refused (reason : Text) :
    Failure.Exits EXIT_REFUSED (.cli ("REFUSED: ".toList ++ reason)) := ⟨_, rfl, rfl⟩

theorem handled_exits {code : Nat} {failure : Failure} (h : failure.Exits code) :
    handled failure = .ok (exits code) := by
  obtain ⟨message, rfl, hCode⟩ := h
  rw [handled, hCode]

theorem concluded_handled (failure : Failure) :
    concluded (handled failure) >>= printed = handled failure := by
  cases failure <;> rfl

def resultOf (dict : Json.Dict) : Except Failure Json.Dict :=
  if truth (field dict "result".toList .null) then members (field dict "result".toList .null)
  else .ok []

theorem isText_eq {text : Text} {v : Json.Value} (h : isText text v = true) :
    v = .str (Json.codes text) := by
  cases v with
  | str s => exact congrArg Json.Value.str (beq_iff_eq.mp h)
  | null | bool | int | float | arr | obj => cases h

theorem not_ok_of_error {v : Json.Value} (h : isText "error".toList v = true) :
    isText "ok".toList v = false := by
  rw [isText_eq h]
  decide

theorem okResult_said (platform : Platform) {infra : Text}
    (hInfra : ∀ message, cliErrorExit (infra ++ message) = EXIT_INFRA) (dict : Json.Dict) :
    match said dict with
    | .ok => okResult platform infra (.obj dict) = resultOf dict
    | .refused => ∃ failure, okResult platform infra (.obj dict) = .error failure ∧
        failure.Exits EXIT_REFUSED
    | .failed => ∃ failure, okResult platform infra (.obj dict) = .error failure ∧
        failure.Exits EXIT_INFRA := by
  have hResult : okResult platform infra (.obj dict) =
      if isText "refused".toList (field dict "status".toList .null) then
        .error (.cli ("REFUSED: ".toList ++
          platform.shown (field dict "reason".toList (.ofText "no active grant".toList))))
      else if isText "error".toList (field dict "status".toList .null) then
        .error (.cli (infra ++
          platform.shown (field dict "message".toList (.ofText "unknown".toList))))
      else if !isText "ok".toList (field dict "status".toList .null) then
        .error (.cli ("INFRA: unexpected envelope status ".toList ++
          platform.repr (field dict "status".toList .null)))
      else resultOf dict := rfl
  rw [hResult, said]
  cases hRefused : isText "refused".toList (field dict "status".toList .null) with
  | true => exact ⟨_, rfl, exits_refused _⟩
  | false =>
    cases hError : isText "error".toList (field dict "status".toList .null) with
    | true =>
      rw [not_ok_of_error hError]
      exact ⟨_, rfl, _, rfl, hInfra _⟩
    | false =>
      cases isText "ok".toList (field dict "status".toList .null) with
      | true => rfl
      | false => exact ⟨_, rfl, _, rfl, rfl⟩

theorem resultOf_error {dict : Json.Dict} {failure : Failure}
    (h : resultOf dict = .error failure) : ∃ exc, failure = .escaped exc := by
  rw [resultOf] at h
  split at h
  · cases hResult : field dict "result".toList .null <;> rw [hResult] at h <;> cases h <;>
      exact ⟨_, rfl⟩
  · cases h

/-- What comes of an envelope: its status decides, and only a good one is looked into. -/
theorem envelope_cases {α : Type} (platform : Platform) (infra : Text)
    (hInfra : ∀ message, cliErrorExit (infra ++ message) = EXIT_INFRA) (dict : Json.Dict)
    (content : Json.Dict → Except Failure α) :
    (said dict = .refused ∧ ∃ failure, okResult platform infra (.obj dict) >>= content =
      .error failure ∧ failure.Exits EXIT_REFUSED) ∨
    (said dict = .failed ∧ ∃ failure, okResult platform infra (.obj dict) >>= content =
      .error failure ∧ failure.Exits EXIT_INFRA) ∨
    said dict = .ok ∧ okResult platform infra (.obj dict) >>= content = resultOf dict >>= content := by
  have hSaid := okResult_said platform hInfra dict
  cases h : said dict with
  | refused =>
    rw [h] at hSaid
    obtain ⟨failure, hFailure, hExits⟩ := hSaid
    rw [hFailure]
    exact Or.inl ⟨rfl, failure, rfl, hExits⟩
  | failed =>
    rw [h] at hSaid
    obtain ⟨failure, hFailure, hExits⟩ := hSaid
    rw [hFailure]
    exact Or.inr (Or.inl ⟨rfl, failure, rfl, hExits⟩)
  | ok =>
    rw [h] at hSaid
    exact Or.inr (Or.inr ⟨rfl, congrArg (· >>= content) hSaid⟩)

/-- A result that fails verification. -/
def Unverified {α : Type} (reply : Except Failure α) : Prop :=
  ∃ failure, reply = .error failure ∧ failure.Exits EXIT_VERIFICATION

theorem decodeContent_cases (platform : Platform) (bad : Text)
    (hBad : cliErrorExit bad = EXIT_VERIFICATION) (content : Json.Str) :
    match platform.decode content with
    | some data => decodeContent platform bad content = .ok data
    | none => Unverified (decodeContent platform bad content) := by
  rw [decodeContent]
  cases platform.decode content with
  | some data => rfl
  | none => exact ⟨_, rfl, _, rfl, hBad⟩

def contentOf (platform : Platform) (result : Json.Dict) : Option Bytes :=
  match field result "content_b64".toList .null with
  | .str content => platform.decode content
  | _ => none

def readContent (platform : Platform) (result : Json.Dict) : Except Failure Bytes :=
  match field result "content_b64".toList .null with
  | .str content => decodeContent platform "VERIFY: content is not valid base64".toList content
  | _ => .error (.cli "VERIFY: no content_b64 in envelope".toList)

theorem readReply_eq (platform : Platform) (out : Json.Value) : readReply platform out =
    okResult platform "INFRA: broker error: ".toList out >>= readContent platform := rfl

theorem readContent_cases (platform : Platform) (result : Json.Dict) :
    match contentOf platform result with
    | some data => readContent platform result = .ok data
    | none => Unverified (readContent platform result) := by
  rw [contentOf, readContent]
  cases field result "content_b64".toList .null with
  | str content => exact decodeContent_cases platform _ rfl content
  | null | bool | int | float | arr | obj => exact ⟨_, rfl, _, rfl, rfl⟩

def lockedOf (platform : Platform) (result : Json.Dict) : Option (Bytes × Json.Value) :=
  if truth (field result "lock_token".toList .null) then
    (contentOf platform result).map fun data => (data, field result "lock_token".toList .null)
  else none

def lockedContent (platform : Platform) (result : Json.Dict) :
    Except Failure (Bytes × Json.Value) :=
  match field result "content_b64".toList .null with
  | .str content =>
    let lockToken := field result "lock_token".toList .null
    if !truth lockToken then .error (.cli "VERIFY: checkout returned no lock_token".toList)
    else
      (decodeContent platform "VERIFY: checkout content is not valid base64".toList content).map
        fun data => (data, lockToken)
  | _ => .error (.cli "VERIFY: no content_b64 in checkout envelope".toList)

theorem lockedContent_cases (platform : Platform) (result : Json.Dict) :
    match lockedOf platform result with
    | some locked => lockedContent platform result = .ok locked
    | none => Unverified (lockedContent platform result) := by
  rw [lockedOf, contentOf, lockedContent]
  cases field result "content_b64".toList .null with
  | str content =>
    have hDecode := decodeContent_cases platform
      "VERIFY: checkout content is not valid base64".toList rfl content
    dsimp only
    cases truth (field result "lock_token".toList .null) with
    | false => exact ⟨_, rfl, _, rfl, rfl⟩
    | true =>
      cases hData : platform.decode content with
      | some data =>
        rw [hData] at hDecode
        rw [show decodeContent platform _ content = .ok data from hDecode]
        rfl
      | none =>
        rw [hData] at hDecode
        obtain ⟨failure, hFailure, hExits⟩ := hDecode
        rw [hFailure]
        exact ⟨failure, rfl, hExits⟩
  | null | bool | int | float | arr | obj =>
    cases truth (field result "lock_token".toList .null) <;> exact ⟨_, rfl, _, rfl, rfl⟩

/-- The status of an envelope that is not `ok`, by its exit code. -/
theorem checkinStatus_said (dict : Json.Dict) : checkinStatus (.obj dict) = .ok
    (match said dict with
    | .ok => none
    | .refused => some EXIT_REFUSED
    | .failed => some EXIT_INFRA) := by
  have hStatus : checkinStatus (.obj dict) =
      if isText "refused".toList (field dict "status".toList .null) then .ok (some EXIT_REFUSED)
      else if isText "error".toList (field dict "status".toList .null) then .ok (some EXIT_INFRA)
      else if !isText "ok".toList (field dict "status".toList .null) then .ok (some EXIT_INFRA)
      else .ok none := rfl
  rw [hStatus, said]
  cases isText "refused".toList (field dict "status".toList .null) with
  | true => rfl
  | false =>
    cases hError : isText "error".toList (field dict "status".toList .null) with
    | true =>
      rw [not_ok_of_error hError]
      rfl
    | false => cases isText "ok".toList (field dict "status".toList .null) <;> rfl

theorem checkinStatus_code {answer : Except Failure Json.Value} {code : Nat}
    (h : answer >>= checkinStatus = .ok (some code)) : code = EXIT_REFUSED ∨ code = EXIT_INFRA := by
  cases answer with
  | error failure => cases h
  | ok out =>
    change checkinStatus out = .ok (some code) at h
    cases out with
    | obj dict =>
      rw [checkinStatus_said] at h
      split at h <;> cases h
      · exact Or.inl rfl
      · exact Or.inr rfl
    | null | bool | int | float | str | arr => cases h

/-! ## Running a transfer -/

def stagedIn (data : Bytes) (manifest : Manifest) (clock : Int) (staging : Staging) : Staging where
  contents := file ⟨manifest.sha256, clock, data⟩ staging.contents
  manifests := file ⟨manifest.sha256, clock, manifest⟩ staging.manifests

def World.stage (w : World) (data : Bytes) (manifest : Manifest) : World :=
  { w with staging := stagedIn data manifest w.clock w.staging }

def fetchManifest (platform : Platform) (instanceName path : Text) (data : Bytes) : Manifest where
  sha256 := platform.sha256 data
  sizeBytes := data.length
  instanceName
  remotePath := path
  lockToken := none
  checkedOut := none

def checkoutManifest (platform : Platform) (instanceName path : Text) (data : Bytes)
    (lockToken : Json.Value) : Manifest :=
  { fetchManifest platform instanceName path data with
    lockToken := some lockToken, checkedOut := some true }

/-- The transfer gets as far as its own tool call. -/
def Transfer.Reaches (platform : Platform) (inv : Invocation) (staging : Staging) (clock : Int) :
    Transfer → Prop
  | .fetch _ => inv.connects = true ∧
      totalBytes platform (staging.collect clock) + inv.elsewhere ≤ GC_MAX_TOTAL_BYTES
  | .push _ fromFile _ _ _ => inv.connects = true ∧ fromFile.isSome = true ∧ inv.lockFree = true
  | .checkout _ _ => inv.connects = true
  | .checkin _ manifestSha fromFile =>
    ∃ data found, Attempts inv staging.manifests manifestSha fromFile data found

section Running

variable (platform : Platform) (instanceName : Text) (inv : Invocation)

def fetchEnd (path : Text) (w : World) : Except Failure Bytes → Except Failure Outcome × World
  | .ok data => (.ok ⟨EXIT_OK, some (.staged (platform.sha256 data) data.length)⟩,
      w.stage data (fetchManifest platform instanceName path data))
  | .error failure => (handled failure, w)

def checkoutEnd (path : Text) (w : World) :
    Except Failure (Bytes × Json.Value) → Except Failure Outcome × World
  | .ok (data, lockToken) =>
    (.ok ⟨EXIT_OK, some (.checkedOut (platform.sha256 data) data.length lockToken)⟩,
      w.stage data (checkoutManifest platform instanceName path data lockToken))
  | .error failure => (handled failure, w)

def readBackEnd (data : Bytes) : Except Failure Bytes → Except Failure Outcome
  | .ok back =>
    if platform.sha256 back ≠ platform.sha256 data then .ok (exits EXIT_VERIFICATION)
    else .ok ⟨EXIT_OK, some (.pushed (platform.sha256 data) data.length)⟩
  | .error (.cli _) => .ok (exits EXIT_VERIFICATION)
  | .error (.escaped exc) => .error (.escaped exc)

inductive Ends (staging : Staging) (clock : Int) : Transfer → Except Failure Outcome × World → Prop
  | stops {t : Transfer} {result : Except Failure Outcome} {w : World}
      (hReaches : ¬t.Reaches platform inv staging clock)
      (hResult : concluded result = .ok (exits EXIT_LOCAL)) (hCalls : w.calls = [])
      (hStaging : w.staging = staging ∨ w.staging = staging.collect clock) :
      Ends staging clock t (result, w)
  | fetch {path : Text} {w : World}
      (hReaches : (Transfer.fetch path).Reaches platform inv staging clock)
      (hStaging : w.staging = staging.collect clock) (hCalls : w.calls = [.read path])
      (hClock : w.clock = clock + inv.took 0) :
      Ends staging clock (.fetch path)
        (fetchEnd platform instanceName path w (inv.answer 0 >>= readReply platform))
  | checkout {path : Text} {timeout : Int} {w : World}
      (hReaches : (Transfer.checkout path timeout).Reaches platform inv staging clock)
      (hStaging : w.staging = staging.collect clock) (hCalls : w.calls = [.checkout path timeout])
      (hClock : w.clock = clock + inv.took 0) :
      Ends staging clock (.checkout path timeout)
        (checkoutEnd platform instanceName path w (inv.answer 0 >>= checkoutReply platform))
  | checkin {path : Text} {manifestSha : Option Text} {fromFile : Option Bytes} {data : Bytes}
      {found : Staged Manifest} {w : World}
      (hAttempts : Attempts inv staging.manifests manifestSha fromFile data found)
      (hStaging : w.staging = staging)
      (hCalls : w.calls = [.checkin path data (found.value.lockToken.getD .null)]) :
      Ends staging clock (.checkin path manifestSha fromFile)
        (checkinEnd platform data found w (inv.answer 0 >>= checkinStatus))
  | written {path : Text} {data : Bytes} {force : Bool} {expectSize : Option Int}
      {expectSha : Option Text} {w : World} {result : Except Failure Outcome}
      (hReaches : inv.connects = true ∧ inv.lockFree = true) (hStaging : w.staging = staging)
      (hCalls : w.calls = [.write path data])
      (hResult : (∃ code, inv.answer 0 >>= checkinStatus = .ok (some code) ∧
          result = .ok (exits code)) ∨
        ∃ failure, inv.answer 0 >>= checkinStatus = .error failure ∧ result = .error failure) :
      Ends staging clock (.push path (some data) force expectSize expectSha) (result, w)
  | readBack {path : Text} {data : Bytes} {force : Bool} {expectSize : Option Int}
      {expectSha : Option Text} {w : World}
      (hReaches : inv.connects = true ∧ inv.lockFree = true) (hStaging : w.staging = staging)
      (hCalls : w.calls = [.write path data, .read path])
      (hAccepted : inv.answer 0 >>= checkinStatus = .ok none) :
      Ends staging clock (.push path (some data) force expectSize expectSha)
        (readBackEnd platform data (inv.answer 1 >>= readReply platform), w)

variable {platform instanceName inv}

/-- A tool call within `except CliError`, with what the command does with the reply. -/
theorem Ends.asked {α : Type} {t : Transfer} {call : ToolCall}
    {read : Json.Value → Except Failure α} {rest : α → Run Outcome} {w : World}
    {staging : Staging} {clock : Int} (hNone : w.calls = [])
    (endOf : World → Except Failure α → Except Failure Outcome × World)
    (hOk : ∀ w a, (rest a).run w = endOf w (.ok a))
    (hError : ∀ w failure, endOf w (.error failure) = (handled failure, w))
    (hEnds : ∀ w', w'.staging = w.staging → w'.calls = [call] →
      w'.clock = w.clock + inv.took 0 → Ends platform instanceName inv staging clock t
        (endOf w' (inv.answer 0 >>= read))) :
    Ends platform instanceName inv staging clock t
      ((catching (do lift (read (← callTool inv call))) rest).run w) := by
  obtain ⟨w', hAsk, hStaging, hCalls, hClock⟩ := ask_run inv call read w
  rw [hNone] at hAsk hCalls hClock
  have hEnd := hEnds w' hStaging hCalls hClock
  rw [List.length_nil] at hAsk
  cases hAnswer : inv.answer 0 >>= read with
  | ok a =>
    rw [hAnswer] at hAsk hEnd
    rw [catching_ok hAsk, hOk]
    exact hEnd
  | error failure =>
    rw [hAnswer] at hAsk hEnd
    rw [catching_error hAsk, ← hError]
    exact hEnd

variable (platform instanceName inv) (staging : Staging) (clock : Int)

theorem fetch_ends (path : Text) : Ends platform instanceName inv staging clock (.fetch path)
    ((cmdFetch platform instanceName inv path).run ⟨staging, clock, []⟩) := by
  rw [cmdFetch]
  rcases connected_run inv _ ⟨staging, clock, []⟩ with
    ⟨hConnects, hRun⟩ | ⟨hConnects, result, hRun, hLocal⟩
  · rw [hRun, gcStaging, Effect.bind_ok (Effect.modify_run _ _), Effect.bind_ok (Effect.get_run _)]
    split
    · rename_i hSize
      exact .stops (fun h => absurd h.2 (Nat.not_le.mpr hSize)) rfl rfl (Or.inr rfl)
    · rename_i hSize
      exact Ends.asked rfl (fetchEnd platform instanceName path) (fun _ _ => rfl) (fun _ _ => rfl)
        fun w hStaging hCalls hClock => .fetch ⟨hConnects, Nat.not_lt.mp hSize⟩ hStaging hCalls hClock
  · rw [hRun]
    refine .stops (fun h => ?_) hLocal rfl (Or.inl rfl)
    rw [h.1] at hConnects
    cases hConnects

theorem checkout_ends (path : Text) (timeout : Int) :
    Ends platform instanceName inv staging clock (.checkout path timeout)
      ((cmdCheckout platform instanceName inv path timeout).run ⟨staging, clock, []⟩) := by
  rw [cmdCheckout]
  rcases connected_run inv _ ⟨staging, clock, []⟩ with
    ⟨hConnects, hRun⟩ | ⟨hConnects, result, hRun, hLocal⟩
  · rw [hRun, gcStaging, Effect.bind_ok (Effect.modify_run _ _)]
    exact Ends.asked rfl (checkoutEnd platform instanceName path) (fun _ _ => rfl) (fun _ _ => rfl)
      fun w hStaging hCalls hClock => .checkout hConnects hStaging hCalls hClock
  · rw [hRun]
    refine .stops (fun h => ?_) hLocal rfl (Or.inl rfl)
    rw [show inv.connects = true from h] at hConnects
    cases hConnects

theorem checkin_ends (path : Text) (manifestSha : Option Text) (fromFile : Option Bytes) :
    Ends platform instanceName inv staging clock (.checkin path manifestSha fromFile)
      ((cmdCheckin platform inv path manifestSha fromFile).run ⟨staging, clock, []⟩) := by
  rcases hRun : (cmdCheckin platform inv path manifestSha fromFile).run ⟨staging, clock, []⟩ with
    ⟨result, w⟩
  have hCheckin := cmdCheckin_run platform inv path manifestSha fromFile staging clock
  rw [hRun] at hCheckin
  rcases hCheckin with ⟨hNone, hSame, hLocal⟩ | ⟨data, found, w', hAttempts, hStaging, hCalls, hEnd⟩
  · have hWorld : w = ⟨staging, clock, []⟩ := hSame
    refine .stops (fun ⟨data, found, h⟩ => hNone data found h) hLocal ?_ (Or.inl ?_) <;> rw [hWorld]
  · rw [hEnd]
    exact .checkin hAttempts hStaging hCalls

theorem push_ends (path : Text) (fromFile : Option Bytes) (force : Bool) (expectSize : Option Int)
    (expectSha : Option Text) :
    Ends platform instanceName inv staging clock (.push path fromFile force expectSize expectSha)
      ((cmdPush platform inv path fromFile).run ⟨staging, clock, []⟩) := by
  unfold cmdPush
  rcases connected_run inv _ ⟨staging, clock, []⟩ with
    ⟨hConnects, hRun⟩ | ⟨hConnects, result, hRun, hLocal⟩
  · rw [hRun]
    cases fromFile with
    | none => exact .stops (fun h => by cases h.2.1) rfl rfl (Or.inl rfl)
    | some data =>
      dsimp only
      split
      · rename_i hLock
        refine .stops (fun h => ?_) rfl rfl (Or.inl rfl)
        rw [h.2.2] at hLock
        cases hLock
      · rename_i hLock
        have hReaches : inv.connects = true ∧ inv.lockFree = true :=
          ⟨hConnects, by simpa using hLock⟩
        rw [← Effect.bind_assoc]
        obtain ⟨w, hAsk, hStaging, hCalls, _⟩ :=
          ask_run inv (.write path data) checkinStatus ⟨staging, clock, []⟩
        rcases hStatus : inv.answer 0 >>= checkinStatus with failure | _ | code
        · rw [Effect.bind_error (hAsk.trans (congrArg (·, w) hStatus))]
          exact .written hReaches hStaging hCalls (Or.inr ⟨failure, hStatus, rfl⟩)
        · rw [Effect.bind_ok (hAsk.trans (congrArg (·, w) hStatus))]
          obtain ⟨w', hRead, hStaging', hCalls', _⟩ :=
            ask_run inv (.read path) (readReply platform) w
          have hBack : (readBack platform inv path data).run w =
              (readBackEnd platform data (inv.answer 1 >>= readReply platform), w') := by
            rw [hCalls] at hRead
            change _ = (inv.answer 1 >>= readReply platform, w') at hRead
            rw [readBack, Effect.bind_ok (Effect.attempt_run hRead)]
            rcases inv.answer 1 >>= readReply platform with (message | exc) | back
            · rfl
            · rfl
            · rw [readBackEnd]
              dsimp only
              split <;> rfl
          rw [hBack]
          refine .readBack hReaches (hStaging'.trans hStaging) ?_ hStatus
          rw [hCalls', hCalls]
          rfl
        · rw [Effect.bind_ok (hAsk.trans (congrArg (·, w) hStatus))]
          exact .written hReaches hStaging hCalls (Or.inl ⟨code, hStatus, rfl⟩)
  · rw [hRun]
    refine .stops (fun h => ?_) hLocal rfl (Or.inl rfl)
    rw [h.1] at hConnects
    cases hConnects

theorem transfer_ends (t : Transfer) : Ends platform instanceName inv staging clock t
    ((transfer platform instanceName inv t).run ⟨staging, clock, []⟩) :=
  match t with
  | .fetch path => fetch_ends platform instanceName inv staging clock path
  | .push path fromFile force expectSize expectSha =>
    push_ends platform instanceName inv staging clock path fromFile force expectSize expectSha
  | .checkout path timeout => checkout_ends platform instanceName inv staging clock path timeout
  | .checkin path manifestSha fromFile =>
    checkin_ends platform instanceName inv staging clock path manifestSha fromFile

theorem runTransfer_run (t : Transfer) (w : World) :
    (runTransfer platform instanceName inv t).run w =
      (concluded ((transfer platform instanceName inv t).run w).1 >>= printed,
        ((transfer platform instanceName inv t).run w).2) := by
  have hCatching := catching_pure (transfer platform instanceName inv t) w
  rw [runTransfer]
  cases hConcluded : concluded ((transfer platform instanceName inv t).run w).1 with
  | error failure =>
    rw [hConcluded] at hCatching
    exact Effect.bind_error hCatching
  | ok outcome =>
    rw [hConcluded] at hCatching
    rw [Effect.bind_ok hCatching]
    exact lift_run _ _

end Running

end AccessBroker.Cli
