import AccessBroker.Cli.Endings
import AccessBroker.Cli.LockTokens

/-! # What an exit code says

Agents branch on the exit code of a transfer. A failure on the way to the broker's tools is
raised without a prefix, so it exits as a local one, or it is an exception that nobody
catches.
-/

namespace AccessBroker.Cli
open Py
set_option autoImplicit false

/-! ## What the replies carry -/

/-- A failure that does not say whose it is. -/
def Unmarked {α : Type} (result : Except Failure α) : Prop :=
  ∀ message, result = .error (.cli message) → cliErrorExit message = EXIT_LOCAL

namespace Unmarked

variable {α β : Type}

theorem ok (a : α) : Unmarked (.ok a) := nofun

theorem escaped (exc : Text) : Unmarked (.error (.escaped exc) : Except Failure α) := nofun

theorem cli {message : Text} (h : cliErrorExit message = EXIT_LOCAL) :
    Unmarked (.error (.cli message) : Except Failure α) := by
  intro other hSame
  cases hSame
  exact h

theorem bind {result : Except Failure α} {f : α → Except Failure β} (h : Unmarked result)
    (hf : ∀ a, Unmarked (f a)) : Unmarked (result >>= f) := by
  cases result with
  | ok a => exact hf a
  | error failure =>
    intro message hSame
    cases hSame
    exact h message rfl

end Unmarked

section Replies

variable (platform : Platform) (loads : Json.Str → Except LoadError Json.Value)
  (replies : Nat → Reply)

/-- What a tool returned, if the POST was answered with a JSON-RPC result. -/
def carried : Reply → Option Json.Value
  | .answered _ body => (parseResponse platform loads body).toOption
  | _ => none

def Reply.session : Reply → Option Text
  | .answered session _ => session
  | _ => none

/-- The broker does not take the token. -/
def Reply.rejects : Reply → Prop
  | .httpError code => code = 401
  | _ => False

def firstReturned : Option Json.Value :=
  (carried platform loads (replies 0)).bind fun _ => carried platform loads (replies 1)

/-- What the second returned, initialized again if there is no session. -/
def secondReturned : Option Json.Value :=
  if (replies 0).session.isSome then carried platform loads (replies 2)
  else (carried platform loads (replies 2)).bind fun _ => carried platform loads (replies 3)

def firstRejected : Prop :=
  (replies 0).rejects ∨ carried platform loads (replies 0) ≠ none ∧ (replies 1).rejects

def secondRejected : Prop :=
  if (replies 0).session.isSome then (replies 2).rejects
  else (replies 2).rejects ∨ carried platform loads (replies 2) ≠ none ∧ (replies 3).rejects

variable {platform loads}

theorem members_unmarked (v : Json.Value) : Unmarked (members v) := by
  cases v with
  | obj dict => exact .ok dict
  | null | bool | int | float | str | arr => exact .escaped _

theorem responseLine_unmarked (lines : List Text) : Unmarked (responseLine loads lines) := by
  induction lines with
  | nil => exact .ok none
  | cons line lines ih =>
    rw [responseLine]
    split
    · split
      · exact .ok _
      · exact ih
    · exact ih
    · exact ih
    · exact .escaped _

theorem parseEnvelope_unmarked (body : Text) : Unmarked (parseEnvelope loads body) := by
  rw [parseEnvelope]
  split
  · split
    · exact .ok _
    · exact .cli rfl
    · exact .escaped _
  · split
    · exact .cli rfl
    · split
      · exact .ok _
      · exact .cli rfl
      · rename_i failure hLine
        intro message hSame
        cases hSame
        exact responseLine_unmarked _ message hLine

theorem innerValue_unmarked (inner : Json.Value) : Unmarked (innerValue loads inner) := by
  unfold innerValue
  split
  · split
    · exact .ok _
    · exact .ok _
    · exact .escaped _
  · exact .escaped _

theorem toolResult_unmarked (result : Json.Dict) : Unmarked (toolResult loads result) := by
  rw [toolResult]
  split
  · refine (members_unmarked _).bind fun dict => ?_
    dsimp only
    split
    · exact innerValue_unmarked _
    · exact .ok _
  · exact .ok _

theorem parseResponse_unmarked (body : Text) : Unmarked (parseResponse platform loads body) := by
  rw [parseResponse]
  refine (parseEnvelope_unmarked body).bind fun envelope => ?_
  refine (members_unmarked envelope).bind fun dict => ?_
  dsimp only
  split
  · exact .cli rfl
  · split
    · exact toolResult_unmarked _
    · exact .ok _

/-- What is carried is returned, and otherwise a failure raised without a prefix; a token that is
not taken is a failure that is caught. -/
structure Delivered (value : Option Json.Value) (rejected : Prop) (result : Except Failure Json.Value) :
    Prop where
  value : result.toOption = value
  unmarked : Unmarked result
  caught : rejected → ∃ message, result = .error (.cli message)

theorem Delivered.answer {returned : Option Json.Value} {rejected : Prop}
    {result : Except Failure Json.Value} (h : Delivered returned rejected result) {v : Json.Value}
    (hReturned : returned = some v) : result = .ok v := by
  have hValue := h.value.trans hReturned
  cases result with
  | error failure => cases hValue
  | ok value => exact congrArg _ (Option.some.inj hValue)

variable (platform loads)

theorem post_delivered (expectSession : Bool) (client : McpClient) :
    Delivered (carried platform loads (replies client.posts)) (replies client.posts).rejects
      (post platform loads replies expectSession client).1 := by
  rw [post]
  cases replies client.posts with
  | answered session body => exact ⟨rfl, parseResponse_unmarked body, False.elim⟩
  | httpError code =>
    dsimp only
    split
    · exact ⟨rfl, .cli rfl, fun _ => ⟨_, rfl⟩⟩
    · exact ⟨rfl, .cli rfl, fun _ => ⟨_, rfl⟩⟩
  | unreachable reason => exact ⟨rfl, .cli rfl, False.elim⟩
  | broken exc => exact ⟨rfl, .escaped exc, False.elim⟩

theorem post_client (expectSession : Bool) (client : McpClient)
    (h : carried platform loads (replies client.posts) ≠ none) :
    (post platform loads replies expectSession client).2 =
      ⟨if expectSession then (replies client.posts).session else client.sessionId,
        client.posts + 1⟩ := by
  rw [post]
  cases hReply : replies client.posts with
  | answered session body => cases expectSession <;> rfl
  | httpError code =>
    rw [hReply] at h
    exact absurd rfl h
  | unreachable reason =>
    rw [hReply] at h
    exact absurd rfl h
  | broken exc =>
    rw [hReply] at h
    exact absurd rfl h

variable {platform loads replies}

/-- What a tool call returns. -/
theorem callTool_delivered (client : McpClient) :
    Delivered (if client.sessionId.isSome then carried platform loads (replies client.posts)
        else (carried platform loads (replies client.posts)).bind fun _ =>
          carried platform loads (replies (client.posts + 1)))
      (if client.sessionId.isSome then (replies client.posts).rejects
        else (replies client.posts).rejects ∨
          carried platform loads (replies client.posts) ≠ none ∧ (replies (client.posts + 1)).rejects)
      (client.callTool platform loads replies).1 := by
  have hPost := post_delivered platform loads replies
  rw [McpClient.callTool]
  cases hSession : client.sessionId with
  | some session => exact hPost false client
  | none =>
    have hFirst := hPost true client
    have hClient := post_client platform loads replies true client
    rcases hRun : post platform loads replies true client with ⟨failure | value, client'⟩
    · rw [hRun] at hFirst
      dsimp only
      rw [← hFirst.value]
      refine ⟨rfl, hFirst.unmarked, ?_⟩
      rintro (hRejected | ⟨hCarried, _⟩)
      · exact hFirst.caught hRejected
      · exact absurd rfl hCarried
    · rw [hRun] at hFirst hClient
      dsimp only
      rw [← hFirst.value]
      have hPosts := hClient (by rw [← hFirst.value]; nofun)
      rw [show client' = _ from hPosts]
      have hSecond := hPost false ⟨(replies client.posts).session, client.posts + 1⟩
      refine ⟨hSecond.value, hSecond.unmarked, ?_⟩
      rintro (hRejected | ⟨_, hRejected⟩)
      · obtain ⟨message, hMessage⟩ := hFirst.caught hRejected
        cases hMessage
      · exact hSecond.caught hRejected

theorem answers_zero : Delivered (firstReturned platform loads replies)
    (firstRejected platform loads replies) (answers platform loads replies 0) :=
  callTool_delivered ⟨none, 0⟩

theorem clientAfter_one (h : firstReturned platform loads replies ≠ none) :
    clientAfter platform loads replies 1 = ⟨(replies 0).session, 2⟩ := by
  have hZero : carried platform loads (replies 0) ≠ none := fun hNone => h (by
    rw [firstReturned, hNone]
    rfl)
  have hOne : carried platform loads (replies 1) ≠ none := fun hNone => h (by
    rw [firstReturned, hNone]
    cases carried platform loads (replies 0) <;> rfl)
  have hFirst := post_delivered platform loads replies true ⟨none, 0⟩
  have hClient := post_client platform loads replies true ⟨none, 0⟩ hZero
  unfold clientAfter clientAfter McpClient.callTool
  dsimp only
  rcases hRun : post platform loads replies true ⟨none, 0⟩ with ⟨failure | value, client'⟩
  · rw [hRun] at hFirst
    exact absurd hFirst.value.symm hZero
  · rw [hRun] at hClient
    dsimp only
    rw [show client' = _ from hClient]
    exact post_client platform loads replies false _ hOne

theorem answers_one (h : firstReturned platform loads replies ≠ none) :
    Delivered (secondReturned platform loads replies) (secondRejected platform loads replies)
      (answers platform loads replies 1) := by
  rw [answers, clientAfter_one h]
  exact callTool_delivered ⟨(replies 0).session, 2⟩

end Replies

/-! ## The contract -/

/-- What a tool call says for the transfer: anything that is no envelope is a failure of the
broker or of the transport. -/
def saidBy : Option Json.Value → Said
  | some (.obj dict) => said dict
  | _ => .failed

theorem saidBy_no_envelope {returned : Option Json.Value} (h : ∀ dict, returned ≠ some (.obj dict)) :
    saidBy returned = .failed := by
  cases returned with
  | none => rfl
  | some v =>
    cases v with
    | obj dict => exact absurd rfl (h dict)
    | null | bool | int | float | str | arr => rfl

def resultBy : Option Json.Value → Option Json.Dict
  | some (.obj dict) => (resultOf dict).toOption
  | _ => none

/-- What was returned fails verification: it cannot be decoded, a checkout comes without a token,
or what is read back is not what was written. -/
def Transfer.Unverified (platform : Platform) (first second : Option Json.Value) : Transfer → Prop
  | .fetch _ => (resultBy first).bind (contentOf platform) = none
  | .checkout _ _ => (resultBy first).bind (lockedOf platform) = none
  | .push _ fromFile _ _ _ => saidBy second = .ok ∧
      ∀ back, (resultBy second).bind (contentOf platform) = some back →
        some (platform.sha256 back) ≠ fromFile.map platform.sha256
  | .checkin _ _ _ => False

/-- The exit code tells what became of the transfer's own call and of the read-back. Of a call at
which the token is not taken, it only tells that it did not go well. -/
structure Contract (platform : Platform) (t : Transfer) (reaches : Prop)
    (first second : Option Json.Value) (rejected rejected' : Prop) (result : Except Failure Outcome) :
    Prop where
  returns : ∃ outcome, result = .ok outcome
  refused : (exitOf result).code = EXIT_REFUSED ↔ reaches ∧ saidBy first = .refused
  failed : reaches → saidBy first = .failed → ¬rejected → (exitOf result).code = EXIT_INFRA
  readBack : reaches → saidBy first = .ok →
    (∃ path fromFile force expectSize expectSha,
      t = .push path fromFile force expectSize expectSha) →
    saidBy second = .failed → ¬rejected' → (exitOf result).code = EXIT_INFRA
  unverified : reaches → saidBy first = .ok → t.Unverified platform first second →
    (exitOf result).code = EXIT_VERIFICATION
  ok : (exitOf result).code = EXIT_OK → reaches ∧ saidBy first = .ok

/-- Every POST of a call was answered, and with an envelope. A good one has a result, and the
token in it can be printed. -/
def Transfer.Sound (platform : Platform) (first second : Option Json.Value) (t : Transfer) : Prop :=
  ∃ dict, first = some (.obj dict) ∧ (said dict = .ok →
    match t with
    | .fetch _ => resultBy first ≠ none
    | .checkout _ _ => resultBy first ≠ none ∧ ∀ data lockToken,
        (resultBy first).bind (lockedOf platform) = some (data, lockToken) →
          printable lockToken = true
    | .push _ _ _ _ _ => ∃ dict', second = some (.obj dict') ∧ said dict' ≠ .failed ∧
        (said dict' = .ok → resultBy second ≠ none)
    | .checkin _ _ _ => True)

def Transfer.Rejected (first : Option Json.Value) (rejected rejected' : Prop) : Transfer → Prop
  | .push _ _ _ _ _ => rejected ∨ saidBy first = .ok ∧ rejected'
  | _ => rejected

section Contract

variable {platform : Platform} {t : Transfer} {reaches : Prop} {first second : Option Json.Value}
variable {rejected rejected' : Prop}

theorem Contract.stopped (hReaches : ¬reaches) :
    Contract platform t reaches first second rejected rejected' (.ok (exits EXIT_LOCAL)) where
  returns := ⟨_, rfl⟩
  refused := iff_of_false (by decide) fun h => hReaches h.1
  failed h := absurd h hReaches
  readBack h := absurd h hReaches
  unverified h := absurd h hReaches
  ok h := absurd h (by decide)

theorem Contract.refusal (hReaches : reaches) (hSaid : saidBy first = .refused) :
    Contract platform t reaches first second rejected rejected' (.ok (exits EXIT_REFUSED)) where
  returns := ⟨_, rfl⟩
  refused := iff_of_true rfl ⟨hReaches, hSaid⟩
  failed _ h := nomatch hSaid.symm.trans h
  readBack _ h := nomatch hSaid.symm.trans h
  unverified _ h := nomatch hSaid.symm.trans h
  ok h := absurd h (by decide)

theorem Contract.failure (hSaid : saidBy first = .failed) :
    Contract platform t reaches first second rejected rejected' (.ok (exits EXIT_INFRA)) where
  returns := ⟨_, rfl⟩
  refused := iff_of_false (by decide) fun h => nomatch hSaid.symm.trans h.2
  failed _ _ _ := rfl
  readBack _ h := nomatch hSaid.symm.trans h
  unverified _ h := nomatch hSaid.symm.trans h
  ok h := absurd h (by decide)

/-- The failure of a token that is not taken is reported as a local one. -/
theorem Contract.rejection (hRejected : rejected) (hSaid : saidBy first = .failed) :
    Contract platform t reaches first second rejected rejected' (.ok (exits EXIT_LOCAL)) where
  returns := ⟨_, rfl⟩
  refused := iff_of_false (by decide) fun h => nomatch hSaid.symm.trans h.2
  failed _ _ h := absurd hRejected h
  readBack _ h := nomatch hSaid.symm.trans h
  unverified _ h := nomatch hSaid.symm.trans h
  ok h := absurd h (by decide)

theorem Contract.accepted (hReaches : reaches) (hSaid : saidBy first = .ok) {outcome : Outcome}
    (hCode : outcome.code ≠ EXIT_REFUSED)
    (hBack : (∃ path fromFile force expectSize expectSha,
        t = .push path fromFile force expectSize expectSha) →
      saidBy second = .failed → ¬rejected' → outcome.code = EXIT_INFRA)
    (hUnverified : t.Unverified platform first second → outcome.code = EXIT_VERIFICATION) :
    Contract platform t reaches first second rejected rejected' (.ok outcome) where
  returns := ⟨_, rfl⟩
  refused := iff_of_false hCode fun h => nomatch hSaid.symm.trans h.2
  failed _ h := nomatch hSaid.symm.trans h
  readBack _ _ := hBack
  unverified _ _ := hUnverified
  ok _ := ⟨hReaches, hSaid⟩

theorem not_contract_of_escaped {exc : Text} :
    ¬Contract platform t reaches first second rejected rejected' (.error (.escaped exc)) := fun h => by
  obtain ⟨outcome, hReturns⟩ := h.returns
  cases hReturns

/-- A failure without a prefix never exits with the code of the infrastructure. -/
theorem not_contract_of_lost {failure : Failure}
    (hUnmarked : Unmarked (.error failure : Except Failure Json.Value)) (hReaches : reaches)
    (hSaid : saidBy first = .failed) (hTaken : ¬rejected) :
    ¬Contract platform t reaches first second rejected rejected' (handled failure) := by
  intro h
  cases failure with
  | escaped exc => exact not_contract_of_escaped h
  | cli message =>
    have hCode : cliErrorExit message = EXIT_INFRA := h.failed hReaches hSaid hTaken
    exact absurd ((hUnmarked message rfl).symm.trans hCode) (by decide)

variable (platform t second) in
/-- An own call that returned nothing, or no envelope. -/
theorem contract_of_no_envelope {α : Type} {read : Json.Value → Except Failure α}
    {answer : Except Failure Json.Value} (hRead : ∀ v, (∀ dict, v ≠ .obj dict) →
      ∃ exc, read v = .error (.escaped exc)) (hDelivered : Delivered first rejected answer)
    (hNone : ∀ dict, first ≠ some (.obj dict)) (hReaches : reaches) (hTaken : ¬rejected) :
    ∃ failure, answer >>= read = .error failure ∧
      ¬Contract platform t reaches first second rejected rejected' (handled failure) := by
  have hSaid := saidBy_no_envelope hNone
  cases answer with
  | error failure =>
    exact ⟨failure, rfl, not_contract_of_lost hDelivered.unmarked hReaches hSaid hTaken⟩
  | ok v =>
    have hFirst : first = some v := hDelivered.value.symm
    obtain ⟨exc, hExc⟩ := hRead v fun dict hDict => hNone dict (hFirst.trans (congrArg some hDict))
    exact ⟨_, hExc, not_contract_of_escaped⟩

/-- A call at which the token was not taken ends the transfer with a local failure. -/
theorem contract_of_rejected {α : Type} {read : Json.Value → Except Failure α}
    {answer : Except Failure Json.Value} (hDelivered : Delivered first rejected answer)
    (hRejected : rejected) (finish : Except Failure α → Except Failure Outcome)
    (hFinish : ∀ failure, finish (.error failure) = handled failure) :
    Contract platform t reaches first second rejected rejected' (finish (answer >>= read)) := by
  obtain ⟨message, rfl⟩ := hDelivered.caught hRejected
  have hFirst : first = none := hDelivered.value.symm
  have hExits : handled (.cli message) = .ok (exits EXIT_LOCAL) :=
    handled_exits ⟨message, rfl, hDelivered.unmarked message rfl⟩
  change Contract _ _ _ _ _ _ _ (finish (.error (.cli message)))
  rw [hFinish, hExits]
  exact .rejection hRejected (saidBy_no_envelope fun dict h => nomatch hFirst.symm.trans h)

theorem resultBy_obj (dict : Json.Dict) : resultBy (some (.obj dict)) = (resultOf dict).toOption :=
  rfl

theorem read_escapes {α : Type} (infra : Text) (content : Json.Dict → Except Failure α)
    (v : Json.Value) (h : ∀ dict, v ≠ .obj dict) :
    ∃ exc, okResult platform infra v >>= content = .error (.escaped exc) := by
  cases v with
  | obj dict => exact absurd rfl (h dict)
  | null | bool | int | float | str | arr => exact ⟨_, rfl⟩

/-- The calls that return a content: the contract is kept where a good envelope has a result, and
its content comes to an outcome that the contract allows. -/
theorem contract_of_content {α : Type} (infra : Text)
    (hInfra : ∀ message, cliErrorExit (infra ++ message) = EXIT_INFRA)
    (content : Json.Dict → Except Failure α) {answer : Except Failure Json.Value}
    (hDelivered : Delivered first rejected answer) (hReaches : reaches)
    (finish : Except Failure α → Except Failure Outcome)
    (hFinish : ∀ failure, finish (.error failure) = handled failure)
    (hSound : ∀ dict, first = some (.obj dict) →
      (t.Sound platform first second ↔ (said dict = .ok → resultBy first ≠ none ∧
        ∀ result, resultOf dict = .ok result →
          Contract platform t reaches first second rejected rejected' (finish (content result))))) :
    Contract platform t reaches first second rejected rejected'
        (finish (answer >>= fun out => okResult platform infra out >>= content)) ↔
      rejected ∨ t.Sound platform first second := by
  by_cases hRejected : rejected
  · exact iff_of_true (contract_of_rejected hDelivered hRejected finish hFinish) (Or.inl hRejected)
  rw [or_iff_right hRejected]
  by_cases hDict : ∃ dict, first = some (.obj dict)
  · obtain ⟨dict, hDict⟩ := hDict
    have hSaidBy : saidBy first = said dict := by rw [hDict, saidBy]
    rw [hSound dict hDict, hDelivered.answer hDict]
    change Contract _ _ _ _ _ _ _ (finish (okResult platform infra (.obj dict) >>= content)) ↔ _
    rcases envelope_cases platform infra hInfra dict content with
      ⟨hSaid, failure, hFailure, hExits⟩ | ⟨hSaid, failure, hFailure, hExits⟩ | ⟨hSaid, hOk⟩
    · rw [hFailure, hFinish, handled_exits hExits]
      exact iff_of_true (.refusal hReaches (hSaidBy.trans hSaid)) fun h => nomatch hSaid.symm.trans h
    · rw [hFailure, hFinish, handled_exits hExits]
      exact iff_of_true (.failure (hSaidBy.trans hSaid)) fun h => nomatch hSaid.symm.trans h
    · rw [hOk, hDict, resultBy_obj]
      cases hResult : resultOf dict with
      | error failure =>
        obtain ⟨exc, rfl⟩ := resultOf_error hResult
        refine iff_of_false ?_ fun h => (h hSaid).1 rfl
        change ¬Contract _ _ _ _ _ _ _ (finish (.error (.escaped exc)))
        rw [hFinish]
        exact not_contract_of_escaped
      | ok result =>
        constructor
        · intro h _
          refine ⟨nofun, fun other hOther => ?_⟩
          cases hOther
          exact h
        · exact fun h => (h hSaid).2 result rfl
  · have hNone : ∀ dict, first ≠ some (.obj dict) := fun dict h => hDict ⟨dict, h⟩
    obtain ⟨failure, hFailure, hNot⟩ := contract_of_no_envelope platform t second
      (read_escapes infra content) hDelivered hNone hReaches hRejected
    have hUnsound : ¬t.Sound platform first second := by
      rintro ⟨dict, h, _⟩
      exact hNone dict h
    rw [hFailure, hFinish]
    exact iff_of_false hNot hUnsound

/-- An own call of which only the status is looked at. -/
theorem contract_of_status {answer : Except Failure Json.Value} {sound : Prop}
    (hDelivered : Delivered first rejected answer) (hReaches : reaches)
    (finish : Except Failure (Option Nat) → Except Failure Outcome)
    (hCode : ∀ code, finish (.ok (some code)) = .ok (exits code))
    (hFailure : ∀ failure, finish (.error failure) = handled failure)
    (hEnvelope : sound → ∃ dict, first = some (.obj dict))
    (hSound : ∀ dict, first = some (.obj dict) → (sound ↔
      (said dict = .ok → Contract platform t reaches first second rejected rejected' (finish (.ok none))))) :
    Contract platform t reaches first second rejected rejected' (finish (answer >>= checkinStatus)) ↔
      rejected ∨ sound := by
  by_cases hRejected : rejected
  · exact iff_of_true (contract_of_rejected hDelivered hRejected finish hFailure) (Or.inl hRejected)
  rw [or_iff_right hRejected]
  by_cases hDict : ∃ dict, first = some (.obj dict)
  · obtain ⟨dict, hDict⟩ := hDict
    have hSaidBy : saidBy first = said dict := by rw [hDict, saidBy]
    rw [hSound dict hDict, hDelivered.answer hDict]
    change Contract _ _ _ _ _ _ _ (finish (checkinStatus (.obj dict))) ↔ _
    rw [checkinStatus_said]
    cases hSaid : said dict with
    | refused =>
      dsimp only
      rw [hCode]
      exact iff_of_true (.refusal hReaches (hSaidBy.trans hSaid)) nofun
    | failed =>
      dsimp only
      rw [hCode]
      exact iff_of_true (.failure (hSaidBy.trans hSaid)) nofun
    | ok => exact ⟨fun h _ => h, fun h => h rfl⟩
  · have hNone : ∀ dict, first ≠ some (.obj dict) := fun dict h => hDict ⟨dict, h⟩
    have hRead : ∀ v, (∀ dict, v ≠ .obj dict) →
        ∃ exc, checkinStatus v = .error (.escaped exc) := by
      intro v h
      cases v with
      | obj dict => exact absurd rfl (h dict)
      | null | bool | int | float | str | arr => exact ⟨_, rfl⟩
    obtain ⟨failure, hLost, hNot⟩ := contract_of_no_envelope platform t second
      hRead hDelivered hNone hReaches hRejected
    rw [hLost, hFailure]
    exact iff_of_false hNot fun h => hDict (hEnvelope h)

/-! ## The transfers -/

theorem sound_iff {dict : Json.Dict} (h : first = some (.obj dict)) :
    t.Sound platform first second ↔ (said dict = .ok →
      match t with
      | .fetch _ => resultBy first ≠ none
      | .checkout _ _ => resultBy first ≠ none ∧ ∀ data lockToken,
          (resultBy first).bind (lockedOf platform) = some (data, lockToken) →
            printable lockToken = true
      | .push _ _ _ _ _ => ∃ dict', second = some (.obj dict') ∧ said dict' ≠ .failed ∧
          (said dict' = .ok → resultBy second ≠ none)
      | .checkin _ _ _ => True) := by
  constructor
  · rintro ⟨dict', hDict, hSound⟩
    cases h.symm.trans hDict
    exact hSound
  · exact fun hSound => ⟨dict, h, hSound⟩

theorem resultBy_of_ok {dict : Json.Dict} {result : Json.Dict} (h : first = some (.obj dict))
    (hResult : resultOf dict = .ok result) : resultBy first = some result := by
  rw [h, resultBy_obj, hResult]
  rfl

variable {instanceName : Text} {w : World} {answer : Except Failure Json.Value}

theorem ok_ne_refused : EXIT_OK ≠ EXIT_REFUSED := by decide

theorem not_push_fetch {path : Text} : ¬∃ path' fromFile force expectSize expectSha,
    Transfer.fetch path = .push path' fromFile force expectSize expectSha := by
  rintro ⟨_, _, _, _, _, h⟩
  cases h

theorem fetch_contract {path : Text} (hDelivered : Delivered first rejected answer) (hReaches : reaches) :
    Contract platform (.fetch path) reaches first second rejected rejected'
        (concluded (fetchEnd platform instanceName path w (answer >>= readReply platform)).1 >>=
          printed) ↔
      rejected ∨ (Transfer.fetch path).Sound platform first second := by
  refine contract_of_content (t := .fetch path) "INFRA: broker error: ".toList (fun _ => rfl)
    (readContent platform) hDelivered hReaches
    (fun reply =>
      concluded (fetchEnd platform instanceName path w reply).1 >>= printed)
    concluded_handled fun dict hDict => ?_
  rw [sound_iff hDict]
  refine forall_congr' fun hSaid => ?_
  have hSaidBy : saidBy first = .ok := by rw [hDict, saidBy, hSaid]
  refine ⟨fun h => ⟨h, fun result hResult => ?_⟩, fun h => h.1⟩
  have hBy := resultBy_of_ok hDict hResult
  have hContent := readContent_cases platform result
  cases hData : contentOf platform result with
  | some data =>
    rw [hData] at hContent
    rw [show readContent platform result = .ok data from hContent]
    refine .accepted hReaches hSaidBy ok_ne_refused (fun h => absurd h not_push_fetch) fun hNone => ?_
    rw [Transfer.Unverified, hBy, Option.bind_some, hData] at hNone
    cases hNone
  | none =>
    rw [hData] at hContent
    obtain ⟨failure, hFailure, hExits⟩ := hContent
    rw [hFailure, fetchEnd, concluded_handled, handled_exits hExits]
    exact .accepted hReaches hSaidBy (by decide) (fun h => absurd h not_push_fetch) fun _ => rfl

theorem not_push_checkout {path : Text} {timeout : Int} :
    ¬∃ path' fromFile force expectSize expectSha,
      Transfer.checkout path timeout = .push path' fromFile force expectSize expectSha := by
  rintro ⟨_, _, _, _, _, h⟩
  cases h

theorem checkout_contract {path : Text} {timeout : Int} (hDelivered : Delivered first rejected answer)
    (hReaches : reaches) :
    Contract platform (.checkout path timeout) reaches first second rejected rejected'
        (concluded (checkoutEnd platform instanceName path w
          (answer >>= checkoutReply platform)).1 >>= printed) ↔
      rejected ∨ (Transfer.checkout path timeout).Sound platform first second := by
  refine contract_of_content (t := .checkout path timeout) "INFRA: ".toList (fun _ => rfl)
    (lockedContent platform) hDelivered hReaches
    (fun reply =>
      concluded (checkoutEnd platform instanceName path w reply).1 >>= printed)
    concluded_handled fun dict hDict => ?_
  rw [sound_iff hDict]
  refine forall_congr' fun hSaid => ?_
  have hSaidBy : saidBy first = .ok := by rw [hDict, saidBy, hSaid]
  refine and_congr_right fun hResultBy => ?_
  obtain ⟨result, hBy⟩ := Option.ne_none_iff_exists'.mp hResultBy
  have hResult : resultOf dict = .ok result := by
    rw [hDict, resultBy_obj] at hBy
    cases hOk : resultOf dict with
    | error failure =>
      rw [hOk] at hBy
      cases hBy
    | ok other =>
      rw [hOk] at hBy
      exact congrArg _ (Option.some.inj hBy)
  have hOnly (P : Json.Dict → Prop) : (∀ other, resultOf dict = .ok other → P other) ↔ P result :=
    ⟨fun h => h result hResult, fun h other hOther => Except.ok.inj (hResult.symm.trans hOther) ▸ h⟩
  rw [hOnly, hBy, Option.bind_some]
  have hContent := lockedContent_cases platform result
  cases hLocked : lockedOf platform result with
  | some locked =>
    obtain ⟨data, lockToken⟩ := locked
    rw [hLocked] at hContent
    rw [show lockedContent platform result = .ok (data, lockToken) from hContent]
    have hPrinted : printed ⟨EXIT_OK, some (.checkedOut (platform.sha256 data) data.length
        lockToken)⟩ = if printable lockToken then
          .ok ⟨EXIT_OK, some (.checkedOut (platform.sha256 data) data.length lockToken)⟩
        else .error (.escaped "UnicodeEncodeError".toList) := rfl
    change _ ↔ Contract _ _ _ _ _ _ _ (printed _)
    rw [hPrinted]
    cases hPrintable : printable lockToken with
    | true =>
      refine iff_of_true (fun data' lockToken' hSame => ?_) (.accepted hReaches hSaidBy ok_ne_refused
        (fun h => absurd h not_push_checkout) fun hNone => ?_)
      · cases hSame
        exact hPrintable
      · rw [Transfer.Unverified, hBy, Option.bind_some, hLocked] at hNone
        cases hNone
    | false =>
      refine iff_of_false (fun h => ?_) not_contract_of_escaped
      rw [h data lockToken rfl] at hPrintable
      cases hPrintable
  | none =>
    rw [hLocked] at hContent
    obtain ⟨failure, hFailure, hExits⟩ := hContent
    rw [hFailure, checkoutEnd, concluded_handled, handled_exits hExits]
    refine iff_of_true nofun (.accepted hReaches hSaidBy (by decide)
      (fun h => absurd h not_push_checkout) fun _ => rfl)

theorem not_push_checkin {path : Text} {manifestSha : Option Text} {fromFile : Option Bytes} :
    ¬∃ path' fromFile' force expectSize expectSha, Transfer.checkin path manifestSha fromFile =
      .push path' fromFile' force expectSize expectSha := by
  rintro ⟨_, _, _, _, _, h⟩
  cases h

theorem checkin_contract {path : Text} {manifestSha : Option Text} {fromFile : Option Bytes}
    {data : Bytes} {found : Staged Manifest} (hDelivered : Delivered first rejected answer)
    (hReaches : reaches) :
    Contract platform (.checkin path manifestSha fromFile) reaches first second rejected rejected'
        (concluded (checkinEnd platform data found w (answer >>= checkinStatus)).1 >>= printed) ↔
      rejected ∨ (Transfer.checkin path manifestSha fromFile).Sound platform first second := by
  refine contract_of_status (t := .checkin path manifestSha fromFile) hDelivered hReaches
    (fun status => concluded (checkinEnd platform data found w status).1 >>= printed)
    (fun _ => rfl) (fun failure => ?_) (fun h => h.imp fun _ h => h.1) fun dict hDict => ?_
  · cases failure <;> rfl
  · rw [sound_iff hDict]
    refine forall_congr' fun hSaid => iff_of_true trivial ?_
    have hSaidBy : saidBy first = .ok := by rw [hDict, saidBy, hSaid]
    exact .accepted hReaches hSaidBy ok_ne_refused (fun h => absurd h not_push_checkin) nofun

def pushEnd (platform : Platform) (data : Bytes) (answer : Except Failure Json.Value) :
    Except Failure (Option Nat) → Except Failure Outcome
  | .ok none => concluded (readBackEnd platform data (answer >>= readReply platform)) >>= printed
  | .ok (some code) => .ok (exits code)
  | .error failure => handled failure

section ReadBack

variable {path : Text} {data : Bytes} {force : Bool} {expectSize : Option Int}
variable {expectSha : Option Text} {answer' : Except Failure Json.Value}
variable (hReaches : reaches) (hSaid : saidBy first = .ok)

include hReaches hSaid

theorem readBack_unverified (hBack : saidBy second = .failed → rejected') :
    Contract platform (.push path (some data) force expectSize expectSha) reaches first second rejected
      rejected' (.ok (exits EXIT_VERIFICATION)) :=
  .accepted hReaches hSaid (by decide) (fun _ hFailed hTaken => absurd (hBack hFailed) hTaken)
    fun _ => rfl

/-- A read-back that failed exits with 4 or raises, whatever has failed. -/
theorem not_readBack_failed (hFailed : saidBy second = .failed) (hTaken : ¬rejected')
    (failure : Failure) :
    ¬Contract platform (.push path (some data) force expectSize expectSha) reaches first second
      rejected rejected' (concluded (readBackEnd platform data (.error failure)) >>= printed) := by
  intro h
  cases failure with
  | cli message =>
    have hCode : EXIT_VERIFICATION = EXIT_INFRA :=
      h.readBack hReaches hSaid ⟨_, _, _, _, _, rfl⟩ hFailed hTaken
    exact absurd hCode (by decide)
  | escaped exc => exact not_contract_of_escaped h

omit hReaches hSaid in
theorem readBackEnd_exits {failure : Failure} {code : Nat} (h : failure.Exits code) :
    concluded (readBackEnd platform data (.error failure)) >>= printed =
      .ok (exits EXIT_VERIFICATION) := by
  obtain ⟨message, rfl, _⟩ := h
  rfl

/-- What is read back is compared, or does not even decode. -/
theorem readBack_content {result : Json.Dict} (hNot : saidBy second ≠ .failed)
    (hBy : resultBy second = some result) :
    Contract platform (.push path (some data) force expectSize expectSha) reaches first second rejected
      rejected' (concluded (readBackEnd platform data (readContent platform result)) >>= printed) := by
  have hUnverified : Contract platform (.push path (some data) force expectSize expectSha) reaches first
      second rejected rejected' (.ok (exits EXIT_VERIFICATION)) :=
    readBack_unverified hReaches hSaid fun h => absurd h hNot
  have hContent := readContent_cases platform result
  cases hData : contentOf platform result with
  | none =>
    rw [hData] at hContent
    obtain ⟨failure, hFail, hExits⟩ := hContent
    rw [hFail, readBackEnd_exits hExits]
    exact hUnverified
  | some back =>
    rw [hData] at hContent
    rw [show readContent platform result = .ok back from hContent, readBackEnd]
    split
    · exact hUnverified
    · rename_i hSame
      refine .accepted hReaches hSaid ok_ne_refused (fun _ h => absurd h hNot) fun h => ?_
      have hOther := h.2 back (by rw [hBy, Option.bind_some, hData])
      exact absurd (congrArg some (not_not.mp hSame)) hOther

theorem readBack_envelope {dict : Json.Dict} (hSecond : second = some (.obj dict))
    (hTaken : ¬rejected') :
    Contract platform (.push path (some data) force expectSize expectSha) reaches first second rejected
        rejected' (concluded (readBackEnd platform data (readReply platform (.obj dict))) >>=
          printed) ↔
      said dict ≠ .failed ∧ (said dict = .ok → resultBy second ≠ none) := by
  have hSaidBy : saidBy second = said dict := by rw [hSecond, saidBy]
  change Contract _ _ _ _ _ _ _ (concluded (readBackEnd platform data
    (okResult platform "INFRA: broker error: ".toList (.obj dict) >>= readContent platform)) >>= _) ↔ _
  rcases envelope_cases platform "INFRA: broker error: ".toList (fun _ => rfl) dict
      (readContent platform) with
    ⟨hRefused, failure, hFail, hExits⟩ | ⟨hFailed, failure, hFail, _⟩ | ⟨hOk, hRead⟩
  · rw [hFail, readBackEnd_exits hExits, hRefused]
    refine iff_of_true (readBack_unverified hReaches hSaid fun h => ?_) ⟨nofun, nofun⟩
    exact nomatch hRefused.symm.trans (hSaidBy.symm.trans h)
  · rw [hFail]
    exact iff_of_false (not_readBack_failed hReaches hSaid (hSaidBy.trans hFailed) hTaken failure)
      fun h => h.1 hFailed
  · have hNot : saidBy second ≠ .failed := fun h => nomatch hOk.symm.trans (hSaidBy.symm.trans h)
    rw [hRead]
    cases hResult : resultOf dict with
    | error failure =>
      obtain ⟨exc, rfl⟩ := resultOf_error hResult
      refine iff_of_false not_contract_of_escaped fun h => h.2 hOk ?_
      rw [hSecond, resultBy_obj, hResult]
      rfl
    | ok result =>
      have hBy := resultBy_of_ok hSecond hResult
      exact iff_of_true (readBack_content hReaches hSaid hNot hBy)
        ⟨hSaidBy ▸ hNot, fun _ => by rw [hBy]; nofun⟩

/-- The contract is kept by the read-back of a push exactly where it is answered by an envelope that
can be read, or the token is not taken. -/
theorem readBack_contract (hBack : Delivered second rejected' answer') :
    Contract platform (.push path (some data) force expectSize expectSha) reaches first second rejected
        rejected' (concluded (readBackEnd platform data (answer' >>= readReply platform)) >>=
          printed) ↔
      rejected' ∨ ∃ dict, second = some (.obj dict) ∧ said dict ≠ .failed ∧
        (said dict = .ok → resultBy second ≠ none) := by
  by_cases hRejected : rejected'
  · obtain ⟨message, rfl⟩ := hBack.caught hRejected
    exact iff_of_true (readBack_unverified hReaches hSaid fun _ => hRejected) (Or.inl hRejected)
  rw [or_iff_right hRejected]
  by_cases hDict : ∃ dict, second = some (.obj dict)
  · obtain ⟨dict, hDict⟩ := hDict
    rw [hBack.answer hDict]
    refine (readBack_envelope hReaches hSaid hDict hRejected).trans ⟨fun h => ⟨dict, hDict, h⟩, ?_⟩
    rintro ⟨other, hOther, h⟩
    cases hDict.symm.trans hOther
    exact h
  · have hNone : ∀ dict, second ≠ some (.obj dict) := fun dict h => hDict ⟨dict, h⟩
    refine iff_of_false ?_ fun ⟨dict, h, _⟩ => hNone dict h
    cases hAnswer : answer' with
    | error failure =>
      exact not_readBack_failed hReaches hSaid (saidBy_no_envelope hNone) hRejected failure
    | ok v =>
      have hSecond : second = some v := by
        rw [← hBack.value, hAnswer]
        rfl
      obtain ⟨exc, hExc⟩ := read_escapes "INFRA: broker error: ".toList
        (readContent platform) v fun dict h => hNone dict (hSecond.trans (congrArg some h))
      change ¬Contract _ _ _ _ _ _ _ (concluded (readBackEnd platform data
        (okResult platform "INFRA: broker error: ".toList v >>= readContent platform)) >>= _)
      rw [hExc]
      exact not_contract_of_escaped

end ReadBack

variable (platform) in
theorem push_contract (path : Text) (data : Bytes) (force : Bool) (expectSize : Option Int)
    (expectSha : Option Text) {answer' : Except Failure Json.Value}
    (hDelivered : Delivered first rejected answer) (hReaches : reaches)
    (hBack : first ≠ none → Delivered second rejected' answer') :
    Contract platform (.push path (some data) force expectSize expectSha) reaches first second rejected
        rejected' (pushEnd platform data answer' (answer >>= checkinStatus)) ↔
      rejected ∨ saidBy first = .ok ∧ rejected' ∨
        (Transfer.push path (some data) force expectSize expectSha).Sound platform first second := by
  refine contract_of_status (t := .push path (some data) force expectSize expectSha) hDelivered
    hReaches (pushEnd platform data answer') (fun _ => rfl) (fun _ => rfl) ?_ fun dict hDict => ?_
  · rintro (⟨hSaid, _⟩ | ⟨dict, hDict, _⟩)
    · by_contra hNone
      exact nomatch hSaid.symm.trans (saidBy_no_envelope fun dict h => hNone ⟨dict, h⟩)
    · exact ⟨dict, hDict⟩
  have hSaidBy : saidBy first = said dict := by rw [hDict, saidBy]
  rw [sound_iff hDict, hSaidBy]
  by_cases hSaid : said dict = .ok
  · have hFirst : saidBy first = .ok := hSaidBy.trans hSaid
    rw [pushEnd]
    simp only [hSaid, true_and, forall_const]
    exact (readBack_contract hReaches hFirst (hBack (by rw [hDict]; nofun))).symm
  · exact iff_of_true (Or.inr fun h => absurd h hSaid) fun h => absurd h hSaid

end Contract

/-- The invocation whose tool calls are answered over these POSTs. -/
def Invocation.over (platform : Platform) (loads : Json.Str → Except LoadError Json.Value)
    (replies : Nat → Reply) (inv : Invocation) : Invocation :=
  { inv with answer := answers platform loads replies }

theorem reaches_over {platform : Platform} {loads : Json.Str → Except LoadError Json.Value}
    {replies : Nat → Reply} {inv : Invocation} {staging : Staging} {clock : Int} {t : Transfer} :
    t.Reaches platform (inv.over platform loads replies) staging clock ↔
      t.Reaches platform inv staging clock := by
  cases t with
  | fetch | push | checkout => rfl
  | checkin path manifestSha fromFile =>
    refine exists_congr fun data => exists_congr fun found => ⟨fun h => ?_, fun h => ?_⟩ <;>
      exact ⟨h.connects, h.fromFile, h.picked, h.token, h.lockFree⟩

/-- The exit code of a transfer follows the contract if and only if, where the transfer calls the
broker at all, each of its calls is answered by an envelope and a good one can be read, or the token
is not taken. -/
theorem exitCodes_iff (platform : Platform) (instanceName : Text)
    (loads : Json.Str → Except LoadError Json.Value) (replies : Nat → Reply) (inv : Invocation)
    (staging : Staging) (clock : Int) (t : Transfer) :
    Contract platform t (t.Reaches platform inv staging clock)
        (firstReturned platform loads replies) (secondReturned platform loads replies)
        (firstRejected platform loads replies) (secondRejected platform loads replies)
        ((runTransfer platform instanceName (inv.over platform loads replies) t).run
          ⟨staging, clock, []⟩).1 ↔
      (t.Reaches platform inv staging clock →
        t.Rejected (firstReturned platform loads replies) (firstRejected platform loads replies)
          (secondRejected platform loads replies) ∨
        t.Sound platform (firstReturned platform loads replies)
          (secondReturned platform loads replies)) := by
  have hEnds := transfer_ends platform instanceName (inv.over platform loads replies) staging clock t
  have hFirst : Delivered (firstReturned platform loads replies) (firstRejected platform loads replies)
      ((inv.over platform loads replies).answer 0) := answers_zero
  have hSecond (h : firstReturned platform loads replies ≠ none) :
      Delivered (secondReturned platform loads replies) (secondRejected platform loads replies)
        ((inv.over platform loads replies).answer 1) := answers_one h
  have hReach {P : Prop} (hReaches : t.Reaches platform inv staging clock) :
      (t.Reaches platform inv staging clock → P) ↔ P := ⟨fun h => h hReaches, fun h _ => h⟩
  rw [runTransfer_run]
  generalize (transfer platform instanceName (inv.over platform loads replies) t).run
    ⟨staging, clock, []⟩ = run at hEnds ⊢
  cases hEnds with
  | stops hReaches hResult _ _ =>
    have hNot : ¬t.Reaches platform inv staging clock := fun h => hReaches (reaches_over.mpr h)
    rw [hResult]
    exact iff_of_true (.stopped hNot) fun h => absurd h hNot
  | fetch hReaches _ _ _ => exact (fetch_contract hFirst hReaches).trans (hReach hReaches).symm
  | checkout hReaches _ _ _ => exact (checkout_contract hFirst hReaches).trans (hReach hReaches).symm
  | @checkin path manifestSha fromFile data found w hAttempts _ _ =>
    have hReaches : (Transfer.checkin path manifestSha fromFile).Reaches platform inv staging clock :=
      reaches_over.mp ⟨data, found, hAttempts⟩
    exact (checkin_contract hFirst hReaches).trans (hReach hReaches).symm
  | @written path data force expectSize expectSha w result hReaches _ _ hResult =>
    have hGoes : inv.connects = true ∧ (some data).isSome = true ∧ inv.lockFree = true :=
      ⟨hReaches.1, rfl, hReaches.2⟩
    have hEnd : concluded result >>= printed =
        pushEnd platform data ((inv.over platform loads replies).answer 1)
          ((inv.over platform loads replies).answer 0 >>= checkinStatus) := by
      rcases hResult with ⟨code, hStatus, rfl⟩ | ⟨failure, hStatus, rfl⟩ <;> rw [hStatus]
      · rfl
      · cases failure <;> rfl
    dsimp only
    rw [hEnd]
    exact (push_contract _ _ _ _ _ _ hFirst hGoes hSecond).trans
      (or_assoc.symm.trans (hReach hGoes).symm)
  | @readBack path data force expectSize expectSha w hReaches _ _ hAccepted =>
    have hGoes : inv.connects = true ∧ (some data).isSome = true ∧ inv.lockFree = true :=
      ⟨hReaches.1, rfl, hReaches.2⟩
    have hPush := push_contract platform path data force expectSize expectSha hFirst
      hGoes hSecond
    rw [hAccepted] at hPush
    exact hPush.trans (or_assoc.symm.trans (hReach hGoes).symm)

/-! ## An unreachable broker -/

def refusedConnection : Nat → Reply := fun _ => .unreachable "Connection refused".toList

def noJson : Json.Str → Except LoadError Json.Value := fun _ => .error (.decode [])

/-- A broker that cannot be reached is reported as a local failure. -/
theorem unreachable_exits_local :
    let inv := plainInvocation.over plainPlatform noJson refusedConnection
    let run := (runTransfer plainPlatform "nc".toList inv (.fetch "a".toList)).run ⟨⟨[], []⟩, 0, []⟩
    (exitOf run.1).code = EXIT_LOCAL ∧
      ¬Contract plainPlatform (.fetch "a".toList)
        ((Transfer.fetch "a".toList).Reaches plainPlatform inv ⟨[], []⟩ 0)
        (firstReturned plainPlatform noJson refusedConnection)
        (secondReturned plainPlatform noJson refusedConnection)
        (firstRejected plainPlatform noJson refusedConnection)
        (secondRejected plainPlatform noJson refusedConnection) run.1 := by
  intro inv run
  have hCode : (exitOf run.1).code = EXIT_LOCAL := by decide +kernel
  have hReaches : (Transfer.fetch "a".toList).Reaches plainPlatform inv ⟨[], []⟩ 0 :=
    ⟨by decide, by decide +kernel⟩
  refine ⟨hCode, fun h => ?_⟩
  have hTaken : ¬firstRejected plainPlatform noJson refusedConnection := by
    rintro (hRejected | ⟨_, hRejected⟩) <;> exact hRejected
  have hInfra := h.failed hReaches rfl hTaken
  rw [hCode] at hInfra
  cases hInfra

end AccessBroker.Cli
