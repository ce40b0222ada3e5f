import Mathlib.Data.Int.ConditionallyCompleteOrder
import Mathlib.Order.ConditionallyCompleteLattice.Basic
import AccessBroker.MatrixBot.Following

/-! # How requests become pending

Decisions only settle: they make no request pending and post no message. A
request becomes pending in the two handlers that then post it, and the posting
itself records its message last.
-/

namespace AccessBroker.Grants
open Py
set_option autoImplicit false

/-- No request becomes pending, none is forgotten, and the posted messages stay. -/
structure Database.Settles (db db' : Database) : Prop where
  posted : db'.posted = db.posted
  pending : ∀ rid row, db'.grants.get? rid = some row → row.state = .pending →
    db.grants.get? rid = some row
  known : ∀ rid, (db.grants.get? rid).isSome = true → (db'.grants.get? rid).isSome = true

instance : Std.Refl Database.Settles where
  refl _ := ⟨rfl, fun _ _ hRow _ => hRow, fun _ h => h⟩

instance : IsTrans Database Database.Settles where
  trans db db' db'' h h' := by
    constructor
    · rw [h'.posted, h.posted]
    · intro rid row hRow hPending
      exact h.pending rid row (h'.pending rid row hRow hPending) hPending
    · intro rid hKnown
      exact h'.known rid (h.known rid hKnown)

variable {cfg : Settings} {now : Int}

theorem Database.settles_update {db : Database} {f : Nat → Row → Row}
    (h : ∀ rid row, (f rid row).state = .pending → f rid row = row) :
    db.Settles (db.putGrants (db.grants.update f)) := by
  constructor
  · rfl
  · intro rid row hRow hPending
    rw [Database.putGrants_grants, AutoTable.get?_update] at hRow
    obtain ⟨old, hOld, rfl⟩ := Option.map_eq_some_iff.mp hRow
    rw [h rid old hPending]
    exact hOld
  · intro rid hKnown
    rw [Database.putGrants_grants, AutoTable.get?_update, Option.isSome_map]
    exact hKnown

theorem Database.settles_modify {db : Database} {rid : Nat} {f : Row → Row}
    (h : ∀ row, (f row).state ≠ .pending) :
    db.Settles (db.putGrants (db.grants.modify rid f)) := by
  apply Database.settles_update
  intro other row hPending
  split at hPending
  · exact absurd hPending (h row)
  · rename_i hOther
    rw [if_neg hOther]

theorem Change.settles {db db' : Database} {op : Operation} {result : Option GrantRecord}
    (h : Change cfg now db op result db') (hTarget : op.target.isSome = true) :
    db.Settles db' := by
  cases h with
  | created _ _ _ => cases hTarget
  | approved _ _ _ _ _ => exact Database.settles_modify fun _ => by simp [Row.activate]
  | emptied _ _ => exact Database.settles_modify fun _ => by simp [Row.reject]
  | rejected _ _ => exact Database.settles_modify fun _ => by simp [Row.reject]
  | withdrawn _ _ => exact Database.settles_modify fun _ => by simp [Row.reject]
  | revoked _ _ => exact Database.settles_modify fun _ => by simp [Row.revoke]
  | posted _ => cases hTarget
  | restarted => cases hTarget

theorem restart_settles (db : Database) : db.Settles (restartDiscardPending db) :=
  Database.settles_update fun _ row hPending => absurd hPending row.discard_state

/-- After a restart nothing is pending. -/
theorem restart_not_pending {db : Database} {rid : Nat} {row : Row}
    (hRow : (restartDiscardPending db).grants.get? rid = some row) : row.state ≠ .pending := by
  rw [restartDiscardPending, AutoTable.get?_update] at hRow
  obtain ⟨old, _, rfl⟩ := Option.map_eq_some_iff.mp hRow
  exact old.discard_state

theorem cleanItems_raises {items : List RawItem} {e : GrantError}
    (h : cleanItems items = .error e) : e.pyClass = .valueError := by
  induction items with
  | nil => cases h
  | cons item rest ih =>
    rw [cleanItems] at h
    cases hItem : cleanItem item with
    | error e' =>
      have hEq : e' = e := by simpa [hItem, bind, Except.bind] using h
      rw [← hEq]
      rw [cleanItem] at hItem
      split at hItem
      · cases hItem
        rfl
      split at hItem
      · cases hItem
        rfl
      split at hItem <;> cases hItem
      rfl
    | ok clean =>
      cases hRest : cleanItems rest with
      | error e' =>
        have hEq : e' = e := by simpa [hItem, hRest, bind, Except.bind] using h
        exact ih (by rw [hRest, hEq])
      | ok others => simp [hItem, hRest, bind, Except.bind, pure, Except.pure] at h

/-- Creating a request raises nothing but value errors. -/
theorem createRequest_raises {instanceName : Text} {reason : Option Text} {items : List RawItem}
    {db db' : Database} {e : GrantError}
    (h : (createRequest cfg now instanceName reason items).run db = (.error e, db')) :
    e.pyClass = .valueError := by
  cases reason with
  | none =>
    cases h
    rfl
  | some text =>
    rw [createRequest] at h
    split at h
    · cases h
      rfl
    split at h
    · cases h
      rfl
    split at h
    · cases h
      rfl
    split at h
    · rename_i e' hClean
      cases h
      exact cleanItems_raises hClean
    · rename_i clean _
      have hRow : (db.grants.insert (pendingRow now instanceName text clean)).get? db.grants.next =
          some (pendingRow now instanceName text clean) := by
        rw [AutoTable.get?_insert, if_pos rfl]
      rw [Effect.bind_ok (Effect.get_run db), Effect.bind_ok (Effect.modify_run _ db),
        getRow_run hRow] at h
      cases h

end AccessBroker.Grants

namespace AccessBroker.MatrixBot
open Py Grants Server
set_option autoImplicit false

structure Desk.Settles (d d' : Desk) : Prop where
  asked : d.asked ≤ d'.asked
  db : d.db.Settles d'.db

instance : Std.Refl Desk.Settles where
  refl d := ⟨le_refl _, Std.Refl.refl d.db⟩

instance : IsTrans Desk Desk.Settles where
  trans _ _ _ h h' := ⟨h.asked.trans h'.asked, IsTrans.trans _ _ _ h.db h'.db⟩

structure Desk.Opens (d : Desk) (req : GrantRecord) (d' : Desk) : Prop where
  asked : d.asked ≤ d'.asked
  posted : d'.db.posted = d.db.posted
  pending : ∀ rid row, d'.db.grants.get? rid = some row → row.state = .pending →
    rid = req.id ∨ d.db.grants.get? rid = some row
  known : ∀ rid, rid = req.id ∨ (d.db.grants.get? rid).isSome = true →
    (d'.db.grants.get? rid).isSome = true

theorem Desk.Settles.opens {d d' d'' : Desk} {req : GrantRecord} (h : d.Settles d')
    (h' : d'.Opens req d'') : d.Opens req d'' := by
  constructor
  · exact h.asked.trans h'.asked
  · rw [h'.posted, h.db.posted]
  · intro rid row hRow hPending
    exact (h'.pending rid row hRow hPending).imp id fun hBefore =>
      h.db.pending rid row hBefore hPending
  · intro rid hKnown
    exact h'.known rid (hKnown.imp id (h.db.known rid))

variable {store : Settings} {bot : Bot} {clock : Nat → Int}

theorem onDatabase_settles {α : Type} {op : Effect Database GrantError α}
    (h : Effect.Along Database.Settles op) : Effect.Along Desk.Settles (onDatabase op) :=
  Effect.Along.zoom (fun _ _ hDb => ⟨le_refl _, hDb⟩) h

theorem settles_conforms : Conforms store clock Desk.Settles fun _ => True where
  clock d := ⟨Nat.le_succ _, Std.Refl.refl d.db⟩
  memory f hDb hAsked d := by
    refine ⟨le_of_eq (hAsked d).symm, ?_⟩
    rw [Effect.modify_run, hDb]
    exact Std.Refl.refl d.db
  approve _ _ _ _ _ := onDatabase_settles <| approve_along fun _ _ _ h => h.settles rfl
  reject _ _ := onDatabase_settles <| reject_along fun _ _ _ h => h.settles rfl
  revoke _ _ := onDatabase_settles <| revoke_along fun _ _ _ h => h.settles rfl

/-! ## Handlers that post no request -/

def Progress.Quiet : Progress → Prop
  | .awaits (.posting _ _ _) => False
  | _ => True

/-- It is over, or waits for the send of a message. -/
def Progress.Plain : Progress → Prop
  | .returns _ | .awaits (.sending _) => True
  | _ => False

theorem Progress.Plain.quiet {progress : Progress} (h : progress.Plain) : progress.Quiet := by
  cases progress with
  | returns answer => trivial
  | awaits pause =>
    cases pause with
    | sending message => trivial
    | posting req stage caller => exact h.elim
    | noticing rid rest => trivial

theorem say_plain (message : Message) : Effect.Yields Progress.Plain (say message) :=
  .pure trivial

theorem reportRefused_plain (rid : Nat) (err : BotError) :
    Effect.Yields Progress.Plain (reportRefused rid err) := by
  cases err with
  | store cause =>
    rw [reportRefused]
    split
    · exact say_plain _
    · exact .raise
  | send cause => exact .raise
  | number cause => exact .raise

theorem decideRequest_plain (rid : Nat) (action : Text) (itemNumbers : Option (List Nat))
    (expiry : Option Text) :
    Effect.Yields Progress.Plain (decideRequest store clock rid action itemNumbers expiry) := by
  apply Effect.Yields.handle
  · split
    · exact .bind fun _ => .bind fun _ => say_plain _
    · exact .bind fun _ => .bind fun _ => .bind fun _ => .bind fun _ => say_plain _
  · exact reportRefused_plain rid

theorem revokeRequest_plain (rid : Nat) :
    Effect.Yields Progress.Plain (revokeRequest store clock rid) := by
  apply Effect.Yields.bind
  intro result
  split
  · split
    · exact say_plain _
    · exact .raise
  · exact .raise
  · exact .bind fun _ => .bind fun _ => .bind fun _ => say_plain _

theorem revokeMany_plain (instanceName : Option Text) :
    Effect.Yields Progress.Plain (revokeMany store clock instanceName) := by
  have hFinish (active : List GrantRecord) :
      Effect.Yields Progress.Plain (revokeMany.finish store clock instanceName active) := by
    apply Effect.Yields.bind
    intro revoked
    split
    · exact say_plain _
    · exact .bind fun _ => say_plain _
  apply Effect.Yields.bind
  intro active
  split
  · split
    · exact say_plain _
    · exact hFinish active
  · exact hFinish active

theorem handleDecision_plain (action : Text) (rid : Nat) (itemNumbers : Option (List Nat))
    (expiry : Option Text) :
    Effect.Yields Progress.Plain (handleDecision store clock action rid itemNumbers expiry) := by
  apply Effect.Yields.bind
  intro known
  split
  · exact say_plain _
  split
  · exact decideRequest_plain _ _ _ _
  split
  · exact decideRequest_plain _ _ _ _
  · exact revokeRequest_plain _

theorem handleReaction_plain (sender eventId emoji : Text) :
    Effect.Yields Progress.Plain (handleReaction store bot clock sender eventId emoji) := by
  rw [handleReaction]
  split
  · exact .pure trivial
  apply Effect.Yields.bind
  intro d
  split
  · exact .pure trivial
  split
  · exact decideRequest_plain _ _ _ _
  split
  · exact decideRequest_plain _ _ _ _
  split
  · exact revokeRequest_plain _
  split
  · exact .bind fun _ => say_plain _
  · exact .pure trivial

theorem handleReply_plain (sender text : Text)
    (hUndo : ∀ rid, parseReply text ≠ .ok (some (.undo rid))) :
    Effect.Yields Progress.Plain (handleReply store bot clock sender text) := by
  rw [handleReply]
  split
  · exact .pure trivial
  split
  · exact .raise
  · rw [teach]
    split <;> exact say_plain _
  · exact .bind fun _ => say_plain _
  · exact revokeMany_plain none
  · exact revokeMany_plain _
  · rename_i rid hParsed
    exact absurd hParsed (hUndo rid)
  · exact handleDecision_plain _ _ _ _

theorem sweepFrom_quiet (pending : List GrantRecord) :
    Effect.Yields Progress.Quiet (sweepFrom pending) := by
  induction pending with
  | nil => exact .pure trivial
  | cons record rest ih =>
    apply Effect.Yields.bind
    intro d
    split
    · exact .pure trivial
    · exact ih

theorem plain_quiet {handler : Handler Progress} (h : Effect.Yields Progress.Plain handler) :
    Effect.Yields Progress.Quiet handler := h.mono fun _ => Progress.Plain.quiet

/-- A handler that settles and posts no request. -/
structure Settled (d : Desk) (result : Except BotError Progress × Desk) : Prop where
  desk : d.Settles result.2
  quiet : ∀ progress, result.1 = .ok progress → progress.Quiet

/-- A handler that stored a request and is about to post it. -/
def Opened (caller : Caller) (d : Desk) (result : Except BotError Progress × Desk) : Prop :=
  ∃ req, result.1 = .ok (.awaits (.posting req .message caller)) ∧ d.Opens req result.2

theorem settled_of {handler : Handler Progress} (hDesk : Effect.Along Desk.Settles handler)
    (hQuiet : Effect.Yields Progress.Quiet handler) (d : Desk) : Settled d (handler.run d) :=
  ⟨hDesk d, hQuiet d⟩

theorem handleReaction_settled (sender eventId emoji : Text) (d : Desk) :
    Settled d ((handleReaction store bot clock sender eventId emoji).run d) :=
  ⟨settles_conforms.handles.handleReaction sender eventId emoji d (fun _ _ _ _ => trivial)
      fun _ _ _ _ => trivial,
    plain_quiet (handleReaction_plain sender eventId emoji) d⟩

theorem sweep_settled (d : Desk) : Settled d ((sweep store clock).run d) :=
  settled_of settles_conforms.handles.sweep (.bind fun _ => sweepFrom_quiet _) d

/-- After a send of no posting, the rest of the handler settles. -/
theorem resume_settled {pause : Pause} {outcome : Except SendError Text}
    (hPosting : ∀ req stage caller, pause ≠ .posting req stage caller) (d : Desk) :
    Settled d ((Server.resume store clock pause outcome).run d) := by
  apply settled_of
  · exact settles_conforms.handles.resume pause outcome fun req stage caller h =>
      absurd h (hPosting req stage caller)
  · cases pause with
    | posting req stage caller => exact absurd rfl (hPosting req stage caller)
    | sending message =>
      cases outcome with
      | ok _ =>
        rw [Server.resume]
        exact .pure trivial
      | error cause => exact .raise
    | noticing rid rest =>
      cases outcome with
      | ok _ => exact .bind fun _ => sweepFrom_quiet _
      | error cause => exact .raise

/-! ## Handlers that store a request -/

variable (clock) in
theorem onStore_run {α : Type} (op : Int → Effect Database GrantError α) (d : Desk) :
    (onStore clock op).run d = (((op (clock d.asked)).run d.db).1.mapError .store,
      { d with db := ((op (clock d.asked)).run d.db).2, asked := d.asked + 1 }) := rfl

theorem createRequest_desk (store : Settings) (clock : Nat → Int) (instanceName : Text)
    (reason : Option Text) (items : List RawItem) (d : Desk) :
    (∃ cause, cause.pyClass = .valueError ∧
      (onStore clock fun now => createRequest store now instanceName reason items).run d =
        (.error (.store cause), { d with asked := d.asked + 1 })) ∨
    ∃ req d', (onStore clock fun now => createRequest store now instanceName reason items).run d =
      (.ok req, d') ∧ d.Opens req d' := by
  rw [onStore_run]
  rcases createRequest_cases store (clock d.asked) instanceName reason items d.db with
    ⟨e, hRun⟩ | ⟨text, clean, rfl, hAllowed, hClean, hItems, hRun⟩
  · rw [hRun]
    exact Or.inl ⟨e, createRequest_raises hRun, rfl⟩
  · rw [hRun]
    refine Or.inr ⟨_, _, rfl, Nat.le_succ _, rfl, ?_, ?_⟩
    · intro rid row hRow hPending
      rw [Database.putGrants_grants, AutoTable.get?_insert] at hRow
      split at hRow
      · rename_i hNew
        exact Or.inl hNew
      · exact Or.inr hRow
    · intro rid hKnown
      rw [Database.putGrants_grants, AutoTable.get?_insert]
      split
      · rfl
      · rename_i hOther
        exact hKnown.resolve_left hOther

theorem settles_asked (d : Desk) (more : Nat) :
    d.Settles { d with asked := d.asked + more } :=
  ⟨Nat.le_add_right _ _, Std.Refl.refl d.db⟩

/-- An undo settles, or stores the request again and posts it. -/
theorem undo_cases (rid : Nat) (d : Desk) :
    Settled d ((undo store clock rid).run d) ∨ Opened .undo d ((undo store clock rid).run d) := by
  rw [undo, Effect.bind_ok (Effect.get_run d)]
  cases d.undoWindows.lookup rid with
  | none => exact Or.inl (settled_of (say_along _) (plain_quiet (say_plain _)) d)
  | some window =>
    dsimp only
    have hClock : (readClock clock).run d =
      (.ok (clock d.asked), { d with asked := d.asked + 1 }) := rfl
    have hClose : (closeUndo rid).run { d with asked := d.asked + 1 } =
      (.ok (), { d with
        asked := d.asked + 1
        undoWindows := d.undoWindows.filter (·.1 ≠ rid) }) := rfl
    rw [Effect.bind_ok hClock, Effect.bind_ok hClose]
    have hBefore : d.Settles { d with
        asked := d.asked + 1
        undoWindows := d.undoWindows.filter (·.1 ≠ rid) } :=
      ⟨Nat.le_succ _, Std.Refl.refl d.db⟩
    split
    · exact Or.inl ⟨hBefore, plain_quiet (say_plain _) _⟩
    · rw [recreate]
      rcases createRequest_desk store clock window.instanceName (some window.reason)
          (window.items.map fun item => ⟨some item.path, some item.mode⟩)
          { d with
            asked := d.asked + 1
            undoWindows := d.undoWindows.filter (·.1 ≠ rid) } with
        ⟨cause, _, hRun⟩ | ⟨req, d', hRun, hOpens⟩
      · rw [Effect.bind_error hRun]
        refine Or.inl ⟨IsTrans.trans _ _ _ hBefore (settles_asked _ 1), ?_⟩
        intro progress hProgress
        cases hProgress
      · rw [Effect.bind_ok hRun]
        exact Or.inr ⟨req, rfl, hBefore.opens hOpens⟩

variable (store bot clock) in
theorem handleReply_cases (sender text : Text) (d : Desk) :
    Settled d ((handleReply store bot clock sender text).run d) ∨
      Opened .undo d ((handleReply store bot clock sender text).run d) := by
  by_cases hUndo : ∃ rid, parseReply text = .ok (some (.undo rid))
  · obtain ⟨rid, hParsed⟩ := hUndo
    rw [handleReply]
    split
    · refine Or.inl ⟨Std.Refl.refl d, fun progress hProgress => ?_⟩
      cases hProgress
      trivial
    · rw [hParsed]
      exact undo_cases rid d
  · have hOther : ∀ rid, parseReply text ≠ .ok (some (.undo rid)) :=
      fun rid hParsed => hUndo ⟨rid, hParsed⟩
    refine Or.inl (settled_of ?_ (plain_quiet (handleReply_plain sender text hOther)) d)
    exact settles_conforms.handles.handleReply sender text
      (fun rid h => absurd h (hOther rid)) (fun _ _ _ _ _ => trivial) fun _ _ _ _ _ _ _ => trivial

variable (store clock) in
/-- The request tool raises nothing: it answers with an error and stores nothing, or posts
what it stored. -/
theorem requestAccess_cases (instanceName : Text) (reason : Option Text) (items : List RawItem)
    (d : Desk) :
    (∃ cause, (requestAccess store clock instanceName reason items).run d =
      (.ok (.returns (some (.invalid cause))), { d with asked := d.asked + 1 })) ∨
    Opened .requestAccess d ((requestAccess store clock instanceName reason items).run d) := by
  rw [requestAccess]
  rcases createRequest_desk store clock instanceName reason items d with
    ⟨cause, hClass, hRun⟩ | ⟨req, d', hRun, hOpens⟩
  · rw [Effect.bind_ok (Effect.attempt_run hRun)]
    refine Or.inl ⟨cause, ?_⟩
    dsimp only
    rw [if_pos hClass]
    rfl
  · rw [Effect.bind_ok (Effect.attempt_run hRun)]
    exact Or.inr ⟨req, rfl, hOpens⟩

/-! ## After a send of a posting -/

def Desk.Pending (store : Settings) (clock : Nat → Int) (d : Desk) (rid : Nat) : Prop :=
  ∃ row, d.db.grants.get? rid = some row ∧ effectiveState store (clock d.asked) row = .pending

instance (d : Desk) (rid : Nat) : Decidable (d.Pending store clock rid) :=
  decidable_of_iff ((d.db.grants.get? rid).any fun row =>
    effectiveState store (clock d.asked) row = .pending) (by
      simp [Desk.Pending, Option.any_eq_true])

/-- With a clock that does not run backwards, what is pending later is pending now. -/
theorem pending_earlier {now later : Int} (h : now ≤ later) {row : Row}
    (hPending : effectiveState store later row = .pending) :
    effectiveState store now row = .pending := by
  have hStored := effectiveState_eq_pending.mp hPending
  exact effectiveState_eq_pending.mpr ⟨hStored.1, by omega⟩

theorem Desk.Opens.pending_cases (hClock : Monotone clock) {d d' : Desk} {req : GrantRecord}
    (h : d.Opens req d') {rid : Nat} (hPending : d'.Pending store clock rid) :
    rid = req.id ∨ d.Pending store clock rid := by
  obtain ⟨row, hRow, hState⟩ := hPending
  refine (h.pending rid row hRow (effectiveState_eq_pending.mp hState).1).imp id fun hBefore => ?_
  exact ⟨row, hBefore, pending_earlier (hClock h.asked) hState⟩

theorem Desk.Settles.pending_before (hClock : Monotone clock) {d d' : Desk} (h : d.Settles d')
    {rid : Nat} (hPending : d'.Pending store clock rid) : d.Pending store clock rid := by
  obtain ⟨row, hRow, hState⟩ := hPending
  have hBefore := h.db.pending rid row hRow (effectiveState_eq_pending.mp hState).1
  exact ⟨row, hBefore, pending_earlier (hClock h.asked) hState⟩

/-- What the caller of `post_request` answers when it returns. -/
def Caller.answer (rid : Nat) : Caller → Option Answer
  | undo => none
  | requestAccess => some (.pending rid)

theorem resumePosting_message (req : GrantRecord) (eventId : Text) (caller : Caller) (d : Desk) :
    (resumePosting store clock req .message (.ok eventId) caller).run d =
      (.ok (.awaits (.posting req (.reaction eventId APPROVE_EMOJI
        [REJECT_EMOJI, REVOKE_EMOJI, STATUS_EMOJI]) caller)), d) := by
  cases caller <;> rfl

theorem resumePosting_reaction (req : GrantRecord) (eventId emoji next sent : Text)
    (rest : List Text) (caller : Caller) (d : Desk) :
    (resumePosting store clock req (.reaction eventId emoji (next :: rest)) (.ok sent) caller).run d =
      (.ok (.awaits (.posting req (.reaction eventId next rest) caller)), d) := by
  cases caller <;> rfl

theorem resumePosting_recorded (req : GrantRecord) (eventId emoji sent : Text) (caller : Caller)
    (d : Desk) (hFresh : d.db.posted.lookup eventId = none) :
    (resumePosting store clock req (.reaction eventId emoji []) (.ok sent) caller).run d =
      (.ok (.returns (caller.answer req.id)),
        { d with db := { d.db with posted := d.db.posted ++ [(eventId, req.id)] } }) := by
  have hRecord : (recordPosted eventId req.id).run d.db =
      (.ok (), { d.db with posted := d.db.posted ++ [(eventId, req.id)] }) := by
    rcases recordPosted_cases eventId req.id d.db with hRun | ⟨_, hRun⟩
    · rw [recordPosted, Effect.bind_ok (Effect.get_run d.db), if_neg (by simp [hFresh])] at hRun
      cases hRun
    · exact hRun
  have hStage : (Posting.resume req (.reaction eventId emoji []) (.ok sent)).run d =
      (.ok none, { d with db := { d.db with posted := d.db.posted ++ [(eventId, req.id)] } }) := by
    rw [Posting.resume]
    have hDatabase : (onDatabase (recordPosted eventId req.id)).run d =
        (.ok (), { d with db := { d.db with posted := d.db.posted ++ [(eventId, req.id)] } }) := by
      simp only [onDatabase, Effect.zoom, hRecord]
      rfl
    rw [Effect.bind_ok hDatabase]
    rfl
  cases caller with
  | undo =>
    rw [resumePosting, Effect.bind_ok hStage]
    rfl
  | requestAccess =>
    rw [resumePosting, Effect.bind_ok (Effect.attempt_run hStage)]
    rfl

theorem resumePosting_undo_failed (req : GrantRecord) (stage : Posting) (cause : SendError)
    (d : Desk) :
    (resumePosting store clock req stage (.error cause) .undo).run d = (.error (.send cause), d) := by
  cases stage <;> rfl

theorem resumePosting_failed (req : GrantRecord) (stage : Posting) (cause : SendError) (d : Desk) :
    (resumePosting store clock req stage (.error cause) .requestAccess).run d =
      (rollBack store clock req.id cause).run d := by
  cases stage <;> rfl

/-- A send that failed takes back the request that is still pending. -/
theorem rollBack_pending {rid : Nat} {cause : SendError} {d : Desk}
    (hUnreachable : cause.unreachable = true) (hPending : d.Pending store clock rid) :
    (rollBack store clock rid cause).run d = (.ok (.returns (some (.unreachable cause.exc))),
      { d with
        db := d.db.putGrants
          (d.db.grants.modify rid (Row.reject (clock d.asked) "rejection".toList))
        asked := d.asked + 1 }) := by
  obtain ⟨row, hRow, hState⟩ := hPending
  have hReject : (reject store (clock d.asked) rid).run d.db =
      (.ok (toRecord store (clock d.asked) rid (row.reject (clock d.asked) "rejection".toList)),
        d.db.putGrants
          (d.db.grants.modify rid (Row.reject (clock d.asked) "rejection".toList))) := by
    rw [reject, Effect.bind_ok (assertPending_run hRow hState)]
    exact updateGrant_getRow _ hRow
  rw [rollBack, if_pos hUnreachable]
  have hRun := onStore_run clock (fun now => reject store now rid) d
  rw [hReject] at hRun
  rw [Effect.bind_ok hRun]
  rfl

/-- A send that failed after the decision lets the store's exception escape. -/
theorem rollBack_decided {rid : Nat} {cause : SendError} {d : Desk}
    (hUnreachable : cause.unreachable = true) (hDecided : ¬ d.Pending store clock rid) :
    ∃ raised, (rollBack store clock rid cause).run d =
      (.error (.store raised), { d with asked := d.asked + 1 }) := by
  have hReject : ∃ raised, (reject store (clock d.asked) rid).run d.db = (.error raised, d.db) := by
    rcases assertPending_cases store (clock d.asked) rid d.db with
      ⟨raised, hRun⟩ | ⟨row, hRow, hState, _⟩
    · exact ⟨raised, Effect.bind_error hRun⟩
    · exact absurd ⟨row, hRow, hState⟩ hDecided
  obtain ⟨raised, hReject⟩ := hReject
  refine ⟨raised, ?_⟩
  rw [rollBack, if_pos hUnreachable]
  have hRun := onStore_run clock (fun now => reject store now rid) d
  rw [hReject] at hRun
  rw [Effect.bind_error hRun]

end AccessBroker.MatrixBot
