import AccessBroker.System.Posting

/-! # The answers of `request_access`

While the tool waits for the room its request can be decided. If a send fails
after that, the rollback meets a decided request and its exception escapes;
otherwise the answer agrees with the store.
-/

namespace AccessBroker.System
open Py Grants MatrixBot Server
set_option autoImplicit false

section

variable (w : Wiring) (env : Nextcloud.Environment)

/-- The request can be neither pending nor active at any instant. -/
def Closed (store : Settings) (rid : Nat) (db : Database) : Prop :=
  ∀ row, db.grants.get? rid = some row → ∀ now,
    effectiveState store now row ≠ .pending ∧ effectiveState store now row ≠ .active

/-- What the tool returns after a send, against the store it leaves: no exception escapes, an
error leaves the request closed, and `pending` comes with the record of the message. -/
def AgreesWithStore (req : GrantRecord) (stage : Posting) :
    Except BotError Progress × Desk → Prop
  | (.error _, _) => False
  | (.ok (.returns (some (.pending rid))), d) => rid = req.id ∧ ∃ eventId,
      sentEvent (.posting req stage .requestAccess) = some eventId ∧
        requestForEvent eventId d.db = some rid
  | (.ok (.returns _), d) => Closed w.layer.store req.id d.db
  | (.ok (.awaits _), _) => True

/-- A call that is refused stores no request, and no exception escapes it. -/
def RefusesCleanly (d : Desk) : Except BotError Progress × Desk → Prop
  | (.error _, _) => False
  | (.ok (.returns _), d') => d'.db = d.db
  | (.ok (.awaits _), _) => True

def Broker.AnswersTruly (s : Broker) : Act → Prop
  | .call .agent (.requestAccess instanceName reason items) =>
    RefusesCleanly s.desk
      ((requestAccess w.layer.store env.clock instanceName reason items).run s.desk)
  | .resume index outcome =>
    match s.tasks[index]? with
    | some (.posting req stage .requestAccess) => AgreesWithStore w req stage
        ((Server.resume w.layer.store env.clock (.posting req stage .requestAccess) outcome).run
          s.desk)
    | _ => True
  | _ => True

/-- A send of `request_access` fails only while the request is still pending. -/
def Broker.FailsUndecided (s : Broker) : Act → Prop
  | .resume index (.error _) =>
    match s.tasks[index]? with
    | some (.posting req _ .requestAccess) => s.desk.Pending w.layer.store env.clock req.id
    | _ => True
  | _ => True

instance (s : Broker) (act : Act) : Decidable (s.FailsUndecided w env act) := by
  have hTask (task : Option Pause) : Decidable (match task with
      | some (.posting req _ .requestAccess) => s.desk.Pending w.layer.store env.clock req.id
      | _ => True) := by
    split <;> infer_instance
  cases act with
  | resume index outcome =>
    cases outcome with
    | ok sent => exact instDecidableTrue
    | error cause => exact hTask s.tasks[index]?
  | _ => exact instDecidableTrue

end

variable {w : Wiring} {env : Nextcloud.Environment} {s : Broker}

theorem requestAccess_refusesCleanly (instanceName : Text) (reason : Option Text)
    (items : List RawItem) :
    RefusesCleanly s.desk
      ((requestAccess w.layer.store env.clock instanceName reason items).run s.desk) := by
  rcases requestAccess_cases w.layer.store env.clock instanceName reason
    items s.desk with ⟨cause, hRun⟩ | ⟨req, hResult, _⟩
  · rw [hRun]
    rfl
  · rcases hRun : (requestAccess w.layer.store env.clock instanceName reason items).run s.desk
      with ⟨result, d'⟩
    rw [hRun] at hResult
    cases hResult
    trivial

theorem closed_rejected {store : Settings} {rid : Nat} {now : Int} {source : Text} {db : Database} :
    Closed store rid (db.putGrants (db.grants.modify rid (Row.reject now source))) := by
  intro row hRow later
  rw [Database.putGrants_grants, AutoTable.get?_modify, if_pos rfl] at hRow
  obtain ⟨old, _, rfl⟩ := Option.map_eq_some_iff.mp hRow
  constructor <;> simp [effectiveState, Row.reject]

theorem sent_agrees (hDistinct : s.Distinct) {index : Nat} {req : GrantRecord} {stage : Posting}
    (hTask : s.tasks[index]? = some (.posting req stage .requestAccess)) (sent : Text) :
    AgreesWithStore w req stage
      ((resumePosting w.layer.store env.clock req stage (.ok sent) .requestAccess).run s.desk) := by
  have hBefore := erased_filter posts hTask
  rcases posting_sent_cases w env hDistinct hBefore sent with
    ⟨stage', hRun, _⟩ | ⟨eventId, emoji, rfl, hLookup, hRun⟩
  · rw [hRun]
    trivial
  · rw [hRun]
    refine ⟨rfl, eventId, rfl, ?_⟩
    rw [requestForEvent, List.lookup_append, hLookup, Option.none_or]
    simp

/-- After a send that failed the answer agrees exactly if the request was still pending. -/
theorem failed_agrees_iff {req : GrantRecord} {stage : Posting} {cause : SendError}
    (hUnreachable : cause.unreachable = true) :
    AgreesWithStore w req stage
        ((resumePosting w.layer.store env.clock req stage (.error cause) .requestAccess).run s.desk) ↔
      s.desk.Pending w.layer.store env.clock req.id := by
  rw [resumePosting_failed]
  by_cases hPending : s.desk.Pending w.layer.store env.clock req.id
  · rw [rollBack_pending hUnreachable hPending]
    exact iff_of_true closed_rejected hPending
  · obtain ⟨raised, hRun⟩ := rollBack_decided hUnreachable hPending
    rw [hRun]
    exact iff_of_false id hPending

theorem Broker.answersTruly_iff (hDistinct : s.Distinct) {act : Act}
    (hFails : FailsUnreachable act) :
    s.AnswersTruly w env act ↔ s.FailsUndecided w env act := by
  cases act with
  | wait => exact Iff.rfl
  | event event => exact Iff.rfl
  | sweep => exact Iff.rfl
  | restart => exact Iff.rfl
  | call surface tool =>
    refine iff_of_true ?_ trivial
    unfold Broker.AnswersTruly
    split
    · rename_i hAct
      cases hAct
      exact requestAccess_refusesCleanly _ _ _
    · rename_i hAct
      cases hAct
    · trivial
  | resume index outcome =>
    cases outcome with
    | ok sent =>
      refine iff_of_true ?_ trivial
      rw [Broker.AnswersTruly]
      split
      · rename_i req stage hTask
        exact sent_agrees hDistinct hTask sent
      · trivial
    | error cause =>
      rw [Broker.AnswersTruly, Broker.FailsUndecided]
      split
      · exact failed_agrees_iff hFails
      · exact Iff.rfl

/-- In every run, `request_access` agrees with the store in all its steps if and only if its
sends fail only while the request is still pending. -/
theorem request_access_agrees_iff (w : Wiring) (env : Nextcloud.Environment) (acts : List Act)
    (hFails : ∀ act ∈ acts, FailsUnreachable act)
    (hFresh : Machine.EveryStep (Broker.step w env) Broker.NamesFresh Broker.start acts) :
    Machine.EveryStep (Broker.step w env) (Broker.AnswersTruly w env) Broker.start acts ↔
      Machine.EveryStep (Broker.step w env) (Broker.FailsUndecided w env) Broker.start acts := by
  apply (run_distinct w env hFresh).everyStep_congr
  intro s hDistinct act hAct
  exact Broker.answersTruly_iff hDistinct (hFails act hAct)

def unreactedRequest : List Act :=
  [.restart, .call .agent (.requestAccess "nc".toList (some "why".toList)
      [⟨some "docs".toList, some Paths.READ⟩]),
    .resume 0 (.ok "$m".toList), .resume 0 (.error ⟨true, "down".toList⟩)]

theorem request_access_agrees_iff_unreacted :
    (Machine.EveryStep (Broker.step smallWiring smallEnvironment)
        (Broker.AnswersTruly smallWiring smallEnvironment) Broker.start unreactedRequest ↔
      Machine.EveryStep (Broker.step smallWiring smallEnvironment)
        (Broker.FailsUndecided smallWiring smallEnvironment) Broker.start unreactedRequest) ∧
    Machine.EveryStep (Broker.step smallWiring smallEnvironment)
      (Broker.FailsUndecided smallWiring smallEnvironment) Broker.start unreactedRequest :=
  ⟨request_access_agrees_iff smallWiring smallEnvironment unreactedRequest (by decide +kernel)
    (by decide +kernel), by decide +kernel⟩

/-- The request is approved by a reply while its reactions are placed, and then a reaction
cannot be placed. -/
def repliedRequest : List Act :=
  unreactedRequest.take 3 ++
    [.event ⟨"!room:x".toList, "$1".toList, "@owner:x".toList, .message "approve 1".toList⟩]

/-- The exception of the rollback escapes, and the grant stays active. -/
theorem approved_request_escapes :
    let failure : Act := .resume 0 (.error ⟨true, "down".toList⟩)
    (∀ act ∈ repliedRequest ++ [failure], FailsUnreachable act) ∧
      Machine.EveryStep (Broker.step smallWiring smallEnvironment) Broker.NamesFresh Broker.start
        (repliedRequest ++ [failure]) ∧
      ¬ Machine.EveryStep (Broker.step smallWiring smallEnvironment)
        (Broker.AnswersTruly smallWiring smallEnvironment) Broker.start
        (repliedRequest ++ [failure]) ∧
      ((Machine.run (Broker.step smallWiring smallEnvironment) Broker.start
        (repliedRequest ++ [failure])).active smallWiring smallEnvironment).map GrantRecord.id =
        [1] := by
  intro failure
  have hFresh : Machine.EveryStep (Broker.step smallWiring smallEnvironment) Broker.NamesFresh
      Broker.start (repliedRequest ++ [failure]) := by decide +kernel
  refine ⟨by decide +kernel, hFresh, fun hTruly => ?_, by decide +kernel⟩
  have hDistinct := run_distinct _ _ hFresh repliedRequest [failure] rfl
  have hLast := hTruly repliedRequest failure [] rfl
  have hFails : FailsUnreachable failure := by decide
  have hUndecided := (Broker.answersTruly_iff hDistinct hFails).mp hLast
  exact absurd hUndecided (by decide +kernel)

end AccessBroker.System
