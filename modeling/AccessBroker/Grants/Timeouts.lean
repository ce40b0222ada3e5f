import AccessBroker.Grants.Lifecycle

/-! # Requests that have timed out

Nothing decides a request that has timed out, and nothing but a restart writes its row. What
was decided stays decided.
-/

namespace AccessBroker.Grants
open Py
set_option autoImplicit false

def Database.KeepsSettled (db db' : Database) : Prop :=
  ∀ rid row, db.grants.get? rid = some row → row.state ≠ .pending →
    ∃ row', db'.grants.get? rid = some row' ∧ row'.state ≠ .pending

/-- A row that has timed out is not written any more. -/
def Database.KeepsTimedOut (cfg : Settings) (now : Int) (db db' : Database) : Prop :=
  ∀ rid row, db.grants.get? rid = some row → row.TimedOut cfg now → db'.grants.get? rid = some row

variable {cfg : Settings} {now : Int} {db db' : Database}

theorem Database.keepsSettled_of_rows
    (h : ∀ rid row, db.grants.get? rid = some row → db'.grants.get? rid = some row) :
    db.KeepsSettled db' := fun rid row hRow hState => ⟨row, h rid row hRow, hState⟩

instance : Std.Refl Database.KeepsSettled where
  refl _ := Database.keepsSettled_of_rows fun _ _ hRow => hRow

instance : Std.Refl (Database.KeepsTimedOut cfg now) where
  refl _ := fun _ _ hRow _ => hRow

theorem Row.TimedOut.later {row : Row} (h : row.TimedOut cfg now) {later : Int} (hNow : now ≤ later) :
    row.TimedOut cfg later := ⟨h.1, by have := h.2; omega⟩

theorem timedOut_iff_expired {row : Row} (hPending : row.state = .pending) :
    row.TimedOut cfg now ↔ effectiveState cfg now row = .expired := by
  rw [effectiveState_expired_iff hPending, Row.TimedOut, and_iff_right hPending]

theorem get?_insert_of_get? {rid : Nat} {row new : Row} (hRow : db.grants.get? rid = some row) :
    (db.putGrants (db.grants.insert new)).grants.get? rid = some row := by
  rw [Database.putGrants_grants, AutoTable.get?_insert,
    if_neg (Nat.ne_of_lt (AutoTable.get?_lt hRow))]
  exact hRow

theorem createRequest_keeps {instanceName : Text} {reason : Option Text} {items : List RawItem}
    {rid : Nat} {row : Row} (hRow : db.grants.get? rid = some row) :
    ((createRequest cfg now instanceName reason items).run db).2.grants.get? rid = some row := by
  rcases createRequest_cases cfg now instanceName reason items db with
    ⟨e, hRun⟩ | ⟨text, clean, _, _, _, _, hRun⟩ <;> rw [hRun]
  · exact hRow
  · exact get?_insert_of_get? hRow

theorem Database.keepsSettled_update {f : Nat → Row → Row}
    (h : ∀ rid row, row.state ≠ .pending → (f rid row).state ≠ .pending) :
    db.KeepsSettled (db.putGrants (db.grants.update f)) := by
  intro rid row hRow hState
  refine ⟨f rid row, ?_, h rid row hState⟩
  rw [Database.putGrants_grants, AutoTable.get?_update, hRow]
  rfl

theorem Database.keepsSettled_modify {rid : Nat} {f : Row → Row}
    (h : ∀ row, (f row).state ≠ .pending) :
    db.KeepsSettled (db.putGrants (db.grants.modify rid f)) := by
  apply Database.keepsSettled_update
  intro other row hState
  split
  · exact h row
  · exact hState

theorem Change.keepsSettled {op : Operation} {result : Option GrantRecord}
    (h : Change cfg now db op result db') : db.KeepsSettled db' := by
  cases h with
  | created _ _ _ => exact Database.keepsSettled_of_rows fun _ _ hRow => get?_insert_of_get? hRow
  | approved _ _ _ _ _ => exact Database.keepsSettled_modify fun _ => by simp [Row.activate]
  | emptied _ _ => exact Database.keepsSettled_modify fun _ => by simp [Row.reject]
  | rejected _ _ => exact Database.keepsSettled_modify fun _ => by simp [Row.reject]
  | withdrawn _ _ => exact Database.keepsSettled_modify fun _ => by simp [Row.reject]
  | revoked _ _ => exact Database.keepsSettled_modify fun _ => by simp [Row.revoke]
  | posted _ => exact Database.keepsSettled_of_rows fun _ _ hRow => hRow
  | restarted => exact Database.keepsSettled_update fun _ row _ => row.discard_state

/-- A row that has timed out is not the one that is modified. -/
theorem Database.keepsTimedOut_modify {rid : Nat} {row : Row} {f : Row → Row}
    (hRow : db.grants.get? rid = some row) (h : effectiveState cfg now row ≠ .expired) :
    db.KeepsTimedOut cfg now (db.putGrants (db.grants.modify rid f)) := by
  intro other row' hOther hOut
  rw [Database.putGrants_grants, AutoTable.get?_modify, if_neg, hOther]
  rintro rfl
  rw [hRow] at hOther
  cases hOther
  exact h (effectiveState_timedOut hOut)

theorem Change.keepsTimedOut {op : Operation} {result : Option GrantRecord}
    (h : Change cfg now db op result db') (hOp : op ≠ .restart) : db.KeepsTimedOut cfg now db' := by
  have hOpen {row : Row} {state : State} (hState : effectiveState cfg now row = state)
      (hNot : state ≠ .expired) : effectiveState cfg now row ≠ .expired := by
    rw [hState]
    exact hNot
  cases h with
  | created _ _ _ => exact fun _ _ hRow _ => get?_insert_of_get? hRow
  | approved found open_ _ _ _ =>
    exact Database.keepsTimedOut_modify found (hOpen open_ nofun)
  | emptied found open_ => exact Database.keepsTimedOut_modify found (hOpen open_ nofun)
  | rejected found open_ => exact Database.keepsTimedOut_modify found (hOpen open_ nofun)
  | withdrawn found open_ => exact Database.keepsTimedOut_modify found (hOpen open_ nofun)
  | revoked found open_ => exact Database.keepsTimedOut_modify found (hOpen open_ nofun)
  | posted _ => exact fun rid row hRow _ => hRow
  | restarted => exact absurd rfl hOp

/-- A request that has timed out can be decided no more. -/
theorem timedOut_final {rid : Nat} {row : Row} (hRow : db.grants.get? rid = some row)
    (hOut : row.TimedOut cfg now) :
    (∀ expiry itemNumbers, ∃ e, (approve cfg now rid expiry itemNumbers).run db = (.error e, db)) ∧
      (∃ e, (reject cfg now rid).run db = (.error e, db)) ∧
      ∃ e, (revoke cfg now rid).run db = (.error e, db) := by
  have hState := effectiveState_timedOut hOut
  have hAssert : (assertPending cfg now rid).run db = (.error (.alreadyDecided rid .expired), db) := by
    rw [assertPending, Effect.bind_ok (Effect.get_run db), hRow]
    dsimp only
    rw [hState]
    rfl
  refine ⟨fun _ _ => ⟨_, Effect.bind_error hAssert⟩, ⟨_, Effect.bind_error hAssert⟩, ?_⟩
  refine ⟨.alreadyDecided rid .expired, ?_⟩
  rw [revoke, Effect.bind_ok (Effect.get_run db), hRow]
  dsimp only
  rw [hState]
  rfl

end AccessBroker.Grants
