import AccessBroker.Grants.Steps
import AccessBroker.Library.Machine

/-! # Authority equals history

A session is a store together with its clock and the list of the operations
performed so far, each with its instant and its outcome. What the store hands
to the path checker is read off that list: one creation, one approval of it in
time, and no revocation since.
-/

namespace AccessBroker.Grants
open Py Paths
set_option autoImplicit false

structure Event where
  time : Int
  op : Operation
  result : Except GrantError (Option GrantRecord)

structure Session where
  db : Database
  now : Int
  events : List Event

/-- The clock only moves forward, and an operation reads it once. -/
inductive Act where
  | tick (elapsed : Nat)
  | call (op : Operation)
  deriving DecidableEq

def Session.start (now : Int) : Session := ⟨Database.empty, now, []⟩

def Session.step (cfg : Settings) (s : Session) : Act → Session
  | .tick elapsed => { s with now := s.now + elapsed }
  | .call op =>
    let outcome := (op.run cfg s.now).run s.db
    { s with db := outcome.2, events := s.events ++ [⟨s.now, op, outcome.1⟩] }

/-! ## What an event did to a request number -/

def Event.Creates (rid : Nat) (instanceName : Text) (stored : List Item) : Event → Prop
  | ⟨_, .createRequest name _ items, .ok (some record)⟩ =>
    record.id = rid ∧ name = instanceName ∧ cleanItems items = .ok stored
  | _ => False

/-- A successful approval with a non-empty selection. -/
def Event.Approves (rid : Nat) : Event → Prop
  | ⟨_, .approve rid' _ itemNumbers, .ok _⟩ => rid' = rid ∧ itemNumbers ≠ some []
  | _ => False

/-- An approval of the stored items that grants `items` until `expiry`. -/
def Event.Authorizes (cfg : Settings) (rid : Nat) (stored items : List Item) (expiry : Int) :
    Event → Prop
  | ⟨time, .approve rid' text itemNumbers, .ok _⟩ =>
    rid' = rid ∧ itemNumbers ≠ some [] ∧
      itemNumbers.elim (.ok stored) (chooseItems stored) = .ok items ∧
      ∃ parsed, parseExpiry text = .ok parsed ∧ expiry = time + parsed.getD cfg.defaultDuration
  | _ => False

/-- Rejected, revoked, emptied, or discarded by a restart. -/
def Event.Closes (rid : Nat) : Event → Prop
  | ⟨_, .reject rid', .ok _⟩ => rid' = rid
  | ⟨_, .revoke rid', .ok _⟩ => rid' = rid
  | ⟨_, .approve rid' _ itemNumbers, .ok _⟩ => rid' = rid ∧ itemNumbers = some []
  | ⟨_, .restart, .ok _⟩ => True
  | _ => False

def Event.Revokes (rid : Nat) : Event → Prop
  | ⟨_, .revoke rid', .ok _⟩ => rid' = rid
  | _ => False

theorem Event.Authorizes.approves {cfg : Settings} {rid : Nat} {stored items : List Item}
    {expiry : Int} {e : Event} (h : e.Authorizes cfg rid stored items expiry) : e.Approves rid := by
  unfold Event.Authorizes at h
  split at h
  · exact ⟨h.1, h.2.1⟩
  · exact h.elim

theorem Event.Revokes.closes {rid : Nat} {e : Event} (h : e.Revokes rid) : e.Closes rid := by
  unfold Event.Revokes at h
  split at h
  · exact h
  · exact h.elim

/-! ## What a history says about a request number -/

def Unapproved (events : List Event) (rid : Nat) : Prop := ∀ e ∈ events, ¬ e.Approves rid

/-- The number was requested at `time` and nothing has closed it since. -/
def Requested (events : List Event) (rid : Nat) (instanceName : Text) (stored : List Item)
    (time : Int) : Prop :=
  ∃ before created after, events = before ++ created :: after ∧
    created.Creates rid instanceName stored ∧ created.time = time ∧
    ∀ e ∈ after, ¬ e.Closes rid

/-- The one approval of the number came in time, on a request still open, and no
revocation followed it. -/
def Authorized (cfg : Settings) (events : List Event) (rid : Nat) (instanceName : Text)
    (items : List Item) (expiry : Int) : Prop :=
  ∃ before created between approved after stored,
    events = before ++ created :: between ++ approved :: after ∧
    created.Creates rid instanceName stored ∧
    approved.Authorizes cfg rid stored items expiry ∧
    approved.time - created.time < cfg.pendingTimeout ∧
    (∀ e ∈ between, ¬ e.Closes rid) ∧
    Unapproved (before ++ created :: between) rid ∧ Unapproved after rid ∧
    ∀ e ∈ after, ¬ e.Revokes rid

/-! ## One more event -/

theorem unapproved_concat {events : List Event} {rid : Nat} {e : Event} :
    Unapproved (events ++ [e]) rid ↔ Unapproved events rid ∧ ¬ e.Approves rid := by
  simp [Unapproved, or_imp, forall_and]

/-- A list ending in `x` splits at its last element or before it. -/
theorem concat_eq_append_cons {α : Type} {xs pre post : List α} {x y : α} :
    xs ++ [x] = pre ++ y :: post ↔
      (post = [] ∧ xs = pre ∧ x = y) ∨ ∃ post', post = post' ++ [x] ∧ xs = pre ++ y :: post' := by
  constructor
  · intro h
    rcases List.eq_nil_or_concat post with rfl | ⟨post', z, rfl⟩
    · obtain ⟨hInit, hLast⟩ := List.append_inj' h rfl
      cases hLast
      exact Or.inl ⟨rfl, hInit, rfl⟩
    · rw [List.concat_eq_append] at h ⊢
      rw [← List.cons_append, ← List.append_assoc] at h
      obtain ⟨hInit, hLast⟩ := List.append_inj' h rfl
      cases hLast
      exact Or.inr ⟨post', rfl, hInit⟩
  · rintro (⟨rfl, rfl, rfl⟩ | ⟨post', rfl, rfl⟩) <;> simp

theorem requested_concat {events : List Event} {e : Event} {rid : Nat} {name : Text}
    {stored : List Item} {time : Int} :
    Requested (events ++ [e]) rid name stored time ↔
      (Requested events rid name stored time ∧ ¬ e.Closes rid) ∨
      (e.Creates rid name stored ∧ e.time = time) := by
  constructor
  · rintro ⟨before, created, after, hEvents, hCreates, hTime, hOpen⟩
    rcases concat_eq_append_cons.mp hEvents with ⟨_, _, rfl⟩ | ⟨after', rfl, rfl⟩
    · exact Or.inr ⟨hCreates, hTime⟩
    · refine Or.inl ⟨⟨before, created, after', rfl, hCreates, hTime, ?_⟩, hOpen e (by simp)⟩
      exact fun x hx => hOpen x (List.mem_append_left _ hx)
  · rintro (⟨⟨before, created, after, rfl, hCreates, hTime, hOpen⟩, hLast⟩ | ⟨hCreates, hTime⟩)
    · refine ⟨before, created, after ++ [e], by simp, hCreates, hTime, ?_⟩
      intro x hx
      rcases List.mem_append.mp hx with h | h
      · exact hOpen x h
      · cases List.mem_singleton.mp h
        exact hLast
    · exact ⟨events, e, [], rfl, hCreates, hTime, by simp⟩

theorem authorized_concat {cfg : Settings} {events : List Event} {e : Event} {rid : Nat}
    {name : Text} {items : List Item} {expiry : Int} :
    Authorized cfg (events ++ [e]) rid name items expiry ↔
      (Authorized cfg events rid name items expiry ∧ ¬ e.Approves rid ∧ ¬ e.Revokes rid) ∨
      ∃ stored time, Requested events rid name stored time ∧ Unapproved events rid ∧
        e.Authorizes cfg rid stored items expiry ∧ e.time - time < cfg.pendingTimeout := by
  constructor
  · rintro ⟨before, created, between, approved, after, stored, hEvents, hCreates, hAuth, hYoung,
      hOpen, hBefore, hAfter, hKept⟩
    rcases concat_eq_append_cons.mp hEvents with ⟨_, rfl, rfl⟩ | ⟨after', rfl, rfl⟩
    · exact Or.inr ⟨stored, created.time, ⟨before, created, between, rfl, hCreates, rfl, hOpen⟩,
        hBefore, hAuth, hYoung⟩
    · rw [unapproved_concat] at hAfter
      refine Or.inl ⟨⟨before, created, between, approved, after', stored, rfl, hCreates, hAuth,
        hYoung, hOpen, hBefore, hAfter.1, ?_⟩, hAfter.2, hKept e (by simp)⟩
      exact fun x hx => hKept x (List.mem_append_left _ hx)
  · rintro (⟨⟨before, created, between, approved, after, stored, rfl, hCreates, hAuth, hYoung,
      hOpen, hBefore, hAfter, hKept⟩, hApproves, hRevokes⟩ |
      ⟨stored, time, ⟨before, created, between, rfl, hCreates, rfl, hOpen⟩, hBefore, hAuth, hYoung⟩)
    · refine ⟨before, created, between, approved, after ++ [e], stored, by simp, hCreates, hAuth,
        hYoung, hOpen, hBefore, unapproved_concat.mpr ⟨hAfter, hApproves⟩, ?_⟩
      intro x hx
      rcases List.mem_append.mp hx with h | h
      · exact hKept x h
      · cases List.mem_singleton.mp h
        exact hRevokes
    · exact ⟨before, created, between, e, [], stored, rfl, hCreates, hAuth, hYoung, hOpen, hBefore,
        by simp [Unapproved], by simp⟩

/-! ## The row agrees with the history -/

/-- What the history says of a request number is what its row says. -/
structure AgreesAt (cfg : Settings) (row? : Option Row) (events : List Event) (rid : Nat) :
    Prop where
  absent : row? = none → Unapproved events rid
  requested : ∀ name stored time,
    (Requested events rid name stored time ∧ Unapproved events rid) ↔
      ∃ row, row? = some row ∧ row.state = .pending ∧ row.instanceName = name ∧
        row.items = stored ∧ row.createdAt = time
  authorized : ∀ name items expiry,
    Authorized cfg events rid name items expiry ↔
      ∃ row, row? = some row ∧ row.state = .active ∧ row.instanceName = name ∧
        row.items = items ∧ row.expiresAt = some expiry

namespace AgreesAt

variable {cfg : Settings} {row? : Option Row} {row row' : Row} {events : List Event} {rid : Nat}
  {e : Event}

theorem start : AgreesAt cfg none [] rid where
  absent _ := by simp [Unapproved]
  requested name stored time := by simp [Requested]
  authorized name items expiry := by simp [Authorized]

/-- An event that leaves the row alone, and closes it only if it was closed already. -/
theorem quiet (h : AgreesAt cfg row? events rid)
    (hCreates : ∀ name stored, ¬ e.Creates rid name stored) (hApproves : ¬ e.Approves rid)
    (hRevokes : ¬ e.Revokes rid)
    (hCloses : e.Closes rid → ∀ row, row? = some row → row.state ≠ .pending) :
    AgreesAt cfg row? (events ++ [e]) rid where
  absent hNone := unapproved_concat.mpr ⟨h.absent hNone, hApproves⟩
  requested name stored time := by
    rw [← h.requested name stored time, requested_concat, unapproved_concat]
    constructor
    · rintro ⟨(⟨hReq, _⟩ | ⟨hNew, _⟩), hUn, _⟩
      · exact ⟨hReq, hUn⟩
      · exact absurd hNew (hCreates name stored)
    · rintro ⟨hReq, hUn⟩
      obtain ⟨row, hRow, hPending, _⟩ := (h.requested name stored time).mp ⟨hReq, hUn⟩
      exact ⟨Or.inl ⟨hReq, fun hClose => hCloses hClose row hRow hPending⟩, hUn, hApproves⟩
  authorized name items expiry := by
    rw [← h.authorized name items expiry, authorized_concat]
    constructor
    · rintro (⟨hAuth, _⟩ | ⟨_, _, _, _, hAuth, _⟩)
      · exact hAuth
      · exact absurd hAuth.approves hApproves
    · exact fun hAuth => Or.inl ⟨hAuth, hApproves, hRevokes⟩

theorem created {time : Int} {name : Text} {stored : List Item}
    (h : AgreesAt cfg none events rid) (hState : row.state = .pending)
    (hName : row.instanceName = name) (hItems : row.items = stored) (hTime : row.createdAt = time)
    (hCreates : ∀ name' stored', e.Creates rid name' stored' ↔ name = name' ∧ stored = stored')
    (hEvent : e.time = time) (hApproves : ¬ e.Approves rid) :
    AgreesAt cfg (some row) (events ++ [e]) rid where
  absent hNone := by cases hNone
  requested name' stored' time' := by
    have hNone : ¬ Requested events rid name' stored' time' := by
      intro hReq
      obtain ⟨_, hRow, _⟩ := (h.requested _ _ _).mp ⟨hReq, h.absent rfl⟩
      cases hRow
    rw [requested_concat, unapproved_concat, hCreates]
    simp [hNone, h.absent rfl, hApproves, hState, hName, hItems, hTime, hEvent, and_assoc]
  authorized name' items expiry := by
    rw [authorized_concat]
    constructor
    · rintro (⟨hAuth, _⟩ | ⟨_, _, _, _, hAuth, _⟩)
      · obtain ⟨_, hRow, _⟩ := (h.authorized _ _ _).mp hAuth
        cases hRow
      · exact absurd hAuth.approves hApproves
    · rintro ⟨_, hRow, hActive, _⟩
      cases hRow
      rw [hState] at hActive
      cases hActive

theorem approved {items : List Item} {expiry : Int} (h : AgreesAt cfg (some row) events rid)
    (hPending : row.state = .pending) (hYoung : e.time - row.createdAt < cfg.pendingTimeout)
    (hApproves : e.Approves rid)
    (hAuth : ∀ items' expiry', e.Authorizes cfg rid row.items items' expiry' ↔
      items = items' ∧ expiry = expiry') :
    AgreesAt cfg (some (row.activate e.time items expiry)) (events ++ [e]) rid where
  absent hNone := by cases hNone
  requested name stored time := by
    rw [unapproved_concat]
    simp [hApproves, Row.activate]
  authorized name items' expiry' := by
    obtain ⟨hReq, hUn⟩ := (h.requested _ _ _).mpr ⟨row, rfl, hPending, rfl, rfl, rfl⟩
    rw [authorized_concat]
    constructor
    · rintro (⟨_, hNot, _⟩ | ⟨stored, time, hReq', hUn', hAuth', _⟩)
      · exact absurd hApproves hNot
      · obtain ⟨_, hRow, _, hName, hStored, hTime⟩ := (h.requested _ _ _).mp ⟨hReq', hUn'⟩
        cases hRow
        cases hStored
        obtain ⟨rfl, rfl⟩ := (hAuth items' expiry').mp hAuth'
        exact ⟨_, rfl, rfl, hName, rfl, rfl⟩
    · rintro ⟨_, hRow, _, rfl, rfl, hExpiry⟩
      cases hRow
      cases hExpiry
      exact Or.inr ⟨_, _, hReq, hUn, (hAuth _ _).mpr ⟨rfl, rfl⟩, hYoung⟩

/-- An event that closes the row: a pending one in any way, an active one by revocation. -/
theorem closed (h : AgreesAt cfg (some row) events rid)
    (hCreates : ∀ name stored, ¬ e.Creates rid name stored) (hApproves : ¬ e.Approves rid)
    (hCloses : e.Closes rid) (hRevokes : row.state = .active → e.Revokes rid)
    (hPending : row'.state ≠ .pending) (hActive : row'.state ≠ .active) :
    AgreesAt cfg (some row') (events ++ [e]) rid where
  absent hNone := by cases hNone
  requested name stored time := by
    rw [requested_concat]
    simp [hCloses, hCreates, hPending]
  authorized name items expiry := by
    rw [authorized_concat]
    constructor
    · rintro (⟨hAuth, _, hNot⟩ | ⟨_, _, _, _, hAuth, _⟩)
      · obtain ⟨_, hRow, hWas, _⟩ := (h.authorized _ _ _).mp hAuth
        cases hRow
        exact absurd (hRevokes hWas) hNot
      · exact absurd hAuth.approves hApproves
    · rintro ⟨_, hRow, hIs, _⟩
      cases hRow
      exact absurd hIs hActive

end AgreesAt

/-! ## One step -/

def Session.Agrees (cfg : Settings) (s : Session) : Prop :=
  ∀ rid, AgreesAt cfg (s.db.grants.get? rid) s.events rid

section Errors

variable {time : Int} {op : Operation} {err : GrantError} {rid : Nat}

@[simp] theorem Event.not_creates_error {name : Text} {stored : List Item} :
    ¬ Event.Creates rid name stored ⟨time, op, .error err⟩ := by cases op <;> exact id

@[simp] theorem Event.not_approves_error : ¬ Event.Approves rid ⟨time, op, .error err⟩ := by
  cases op <;> exact id

@[simp] theorem Event.not_closes_error : ¬ Event.Closes rid ⟨time, op, .error err⟩ := by
  cases op <;> exact id

@[simp] theorem Event.not_revokes_error : ¬ Event.Revokes rid ⟨time, op, .error err⟩ := by
  cases op <;> exact id

end Errors

variable {cfg : Settings}

theorem agrees_error {s : Session} {op : Operation} {err : GrantError} (h : s.Agrees cfg) :
    Session.Agrees cfg ⟨s.db, s.now, s.events ++ [⟨s.now, op, .error err⟩]⟩ := fun rid =>
  (h rid).quiet (fun _ _ => Event.not_creates_error) Event.not_approves_error
    Event.not_revokes_error (fun hCloses => absurd hCloses Event.not_closes_error)

/-- A change of one row, seen from every request number. -/
theorem agrees_modify {s : Session} {op : Operation} {result : Option GrantRecord} {rid : Nat}
    {row : Row} {f : Row → Row} (h : s.Agrees cfg) (hRow : s.db.grants.get? rid = some row)
    (hOwn : AgreesAt cfg (some row) s.events rid →
      AgreesAt cfg (some (f row)) (s.events ++ [⟨s.now, op, .ok result⟩]) rid)
    (hCreates : ∀ other name stored, ¬ Event.Creates other name stored ⟨s.now, op, .ok result⟩)
    (hOther : ∀ other, other ≠ rid → ¬ Event.Approves other ⟨s.now, op, .ok result⟩ ∧
      ¬ Event.Closes other ⟨s.now, op, .ok result⟩) :
    Session.Agrees cfg ⟨s.db.putGrants (s.db.grants.modify rid f), s.now,
      s.events ++ [⟨s.now, op, .ok result⟩]⟩ := by
  intro other
  dsimp only [Database.putGrants_grants]
  rw [AutoTable.get?_modify]
  split
  · rename_i hEq
    have hOld := h rid
    rw [hRow] at hOld
    rw [hEq, hRow]
    exact hOwn hOld
  · rename_i hNe
    obtain ⟨hApproves, hCloses⟩ := hOther other hNe
    exact (h other).quiet (hCreates other) hApproves (fun hRevokes => hCloses hRevokes.closes)
      (fun hClose => absurd hClose hCloses)

theorem agrees_created {s : Session} {name reason : Text} {items : List RawItem}
    {clean : List Item} {result : Option GrantRecord} (h : s.Agrees cfg)
    (hClean : cleanItems items = .ok clean) (hNext : result.map (·.id) = some s.db.grants.next) :
    Session.Agrees cfg ⟨s.db.putGrants (s.db.grants.insert (pendingRow s.now name reason clean)),
      s.now, s.events ++ [⟨s.now, .createRequest name (some reason) items, .ok result⟩]⟩ := by
  obtain ⟨record, rfl, hId⟩ := Option.map_eq_some_iff.mp hNext
  intro rid
  dsimp only [Database.putGrants_grants]
  rw [AutoTable.get?_insert]
  split
  · rename_i hNew
    subst hNew
    have hOld := h s.db.grants.next
    rw [AutoTable.get?_next] at hOld
    refine hOld.created rfl rfl rfl rfl ?_ rfl id
    intro name' stored'
    constructor
    · rintro ⟨_, hName, hStored⟩
      rw [hClean] at hStored
      cases hStored
      exact ⟨hName, rfl⟩
    · rintro ⟨rfl, rfl⟩
      exact ⟨hId, rfl, hClean⟩
  · rename_i hOld
    refine (h rid).quiet ?_ id id (fun hCloses => hCloses.elim)
    intro name' stored' hCreates
    exact hOld (hCreates.1.symm.trans hId)

theorem agrees_approved {s : Session} {rid : Nat} {expiry : Option Text}
    {numbers : Option (List (Option Int))} {row : Row} {parsed : Option Int} {items : List Item}
    {result : Option GrantRecord} (h : s.Agrees cfg) (hRow : s.db.grants.get? rid = some row)
    (hOpen : effectiveState cfg s.now row = .pending) (hExpires : parseExpiry expiry = .ok parsed)
    (hChosen : numbers.elim (.ok row.items) (chooseItems row.items) = .ok items)
    (hSelected : numbers ≠ some []) :
    Session.Agrees cfg ⟨s.db.putGrants (s.db.grants.modify rid
        (Row.activate s.now items (s.now + parsed.getD cfg.defaultDuration))), s.now,
      s.events ++ [⟨s.now, .approve rid expiry numbers, .ok result⟩]⟩ := by
  obtain ⟨hPending, hYoung⟩ := effectiveState_eq_pending.mp hOpen
  have hApproves : Event.Approves rid ⟨s.now, .approve rid expiry numbers, .ok result⟩ :=
    ⟨rfl, hSelected⟩
  refine agrees_modify h hRow (fun hOld => hOld.approved hPending hYoung hApproves ?_)
    (fun _ _ _ => id) ?_
  · intro items' expiry'
    constructor
    · rintro ⟨_, _, hChosen', parsed', hParsed', rfl⟩
      rw [hChosen] at hChosen'
      rw [hExpires] at hParsed'
      cases hChosen'
      cases hParsed'
      exact ⟨rfl, rfl⟩
    · rintro ⟨rfl, rfl⟩
      exact ⟨rfl, hSelected, hChosen, parsed, hExpires, rfl⟩
  · intro other hNe
    exact ⟨fun hApproves => hNe hApproves.1.symm, fun hCloses => hNe hCloses.1.symm⟩

/-- A row that is neither pending nor active any more, and no other row with it. -/
theorem agrees_closed {s : Session} {op : Operation} {result : Option GrantRecord} {rid : Nat}
    {row : Row} {f : Row → Row} (h : s.Agrees cfg) (hRow : s.db.grants.get? rid = some row)
    (hEvent : ∀ other, ¬ Event.Approves other ⟨s.now, op, .ok result⟩ ∧
      (Event.Closes other ⟨s.now, op, .ok result⟩ ↔ rid = other))
    (hCreates : ∀ other name stored, ¬ Event.Creates other name stored ⟨s.now, op, .ok result⟩)
    (hRevokes : row.state = .active → Event.Revokes rid ⟨s.now, op, .ok result⟩)
    (hPending : (f row).state ≠ .pending) (hActive : (f row).state ≠ .active) :
    Session.Agrees cfg ⟨s.db.putGrants (s.db.grants.modify rid f), s.now,
      s.events ++ [⟨s.now, op, .ok result⟩]⟩ := by
  obtain ⟨hApproves, hCloses⟩ := hEvent rid
  refine agrees_modify h hRow (fun hOld => hOld.closed (hCreates rid) hApproves (hCloses.mpr rfl)
    hRevokes hPending hActive) hCreates ?_
  intro other hNe
  exact ⟨(hEvent other).1, fun hOther => hNe ((hEvent other).2.mp hOther).symm⟩

theorem agrees_restarted {s : Session} {result : Option GrantRecord} (h : s.Agrees cfg) :
    Session.Agrees cfg ⟨restartDiscardPending s.db, s.now,
      s.events ++ [⟨s.now, .restart, .ok result⟩]⟩ := by
  intro rid
  dsimp only [restartDiscardPending]
  rw [AutoTable.get?_update]
  have hOld := h rid
  cases hRow : s.db.grants.get? rid with
  | none =>
    rw [hRow] at hOld
    exact hOld.quiet (fun _ _ => id) id id (fun _ row hSome => by cases hSome)
  | some row =>
    rw [hRow] at hOld
    rw [Option.map_some, Row.discard]
    split
    · rename_i hPending
      exact hOld.closed (fun _ _ => id) id trivial (by simp [hPending]) (by simp) (by simp)
    · rename_i hDecided
      refine hOld.quiet (fun _ _ => id) id id ?_
      intro _ row' hSome
      cases hSome
      exact hDecided

theorem agrees_change {s : Session} {op : Operation} {result : Option GrantRecord}
    {db' : Database} (h : s.Agrees cfg) (hChange : Change cfg s.now s.db op result db') :
    Session.Agrees cfg ⟨db', s.now, s.events ++ [⟨s.now, op, .ok result⟩]⟩ := by
  cases hChange with
  | created _ hClean _ => exact agrees_created h hClean rfl
  | approved hRow hOpen hExpires hChosen hSelected =>
    exact agrees_approved h hRow hOpen hExpires hChosen hSelected
  | emptied hRow hOpen =>
    have hPending := (effectiveState_eq_pending.mp hOpen).1
    exact agrees_closed h hRow (fun _ => ⟨fun hApproves => hApproves.2 rfl, and_iff_left rfl⟩)
      (fun _ _ _ => id) (by simp [hPending]) (by simp [Row.reject]) (by simp [Row.reject])
  | rejected hRow hOpen =>
    have hPending := (effectiveState_eq_pending.mp hOpen).1
    exact agrees_closed h hRow (fun _ => ⟨id, Iff.rfl⟩) (fun _ _ _ => id) (by simp [hPending])
      (by simp [Row.reject]) (by simp [Row.reject])
  | withdrawn hRow hOpen =>
    exact agrees_closed h hRow (fun _ => ⟨id, Iff.rfl⟩) (fun _ _ _ => id) (fun _ => rfl)
      (by simp [Row.reject]) (by simp [Row.reject])
  | revoked hRow hLive =>
    exact agrees_closed h hRow (fun _ => ⟨id, Iff.rfl⟩) (fun _ _ _ => id) (fun _ => rfl)
      (by simp [Row.revoke]) (by simp [Row.revoke])
  | posted hFresh =>
    exact fun rid => (h rid).quiet (fun _ _ => id) id id (fun hCloses => hCloses.elim)
  | restarted => exact agrees_restarted h

theorem Session.step_call {s : Session} {op : Operation} {outcome : Except GrantError _}
    {db' : Database} (hRun : (op.run cfg s.now).run s.db = (outcome, db')) :
    s.step cfg (.call op) = ⟨db', s.now, s.events ++ [⟨s.now, op, outcome⟩]⟩ := by
  simp only [Session.step, hRun]

theorem agrees_step (s : Session) (act : Act) (h : s.Agrees cfg) : (s.step cfg act).Agrees cfg := by
  cases act with
  | tick elapsed => exact h
  | call op =>
    rcases op.run_cases cfg s.now s.db with ⟨e, hRun⟩ | ⟨result, db', hChange, hRun⟩
    · rw [Session.step_call hRun]
      exact agrees_error h
    · rw [Session.step_call hRun]
      exact agrees_change h hChange

end AccessBroker.Grants
