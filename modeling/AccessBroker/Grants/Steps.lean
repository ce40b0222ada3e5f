import AccessBroker.Grants

/-! # What one store operation can do

Every operation either raises and leaves the database as it found it, or makes
one of the changes listed here. The invariants of whole runs are derived from
this list alone.
-/

namespace AccessBroker.Grants
open Py Paths
set_option autoImplicit false

inductive Operation where
  | createRequest (instanceName : Text) (reason : Option Text) (items : List RawItem)
  | approve (rid : Nat) (expiry : Option Text) (itemNumbers : Option (List (Option Int)))
  | reject (rid : Nat)
  | revoke (rid : Nat)
  | recordPosted (eventId : Text) (rid : Nat)
  | restart
  deriving DecidableEq

variable (cfg : Settings) (now : Int)

def Operation.run : Operation → Effect Database GrantError (Option GrantRecord)
  | createRequest instanceName reason items => do
    return some (← Grants.createRequest cfg now instanceName reason items)
  | approve rid expiry itemNumbers => do return some (← Grants.approve cfg now rid expiry itemNumbers)
  | reject rid => do return some (← Grants.reject cfg now rid)
  | revoke rid => do return some (← Grants.revoke cfg now rid)
  | recordPosted eventId rid => do
    Grants.recordPosted eventId rid
    return none
  | restart => do
    Effect.modify restartDiscardPending
    return none

def Operation.target : Operation → Option Nat
  | approve rid _ _ | reject rid | revoke rid => some rid
  | _ => none

def Database.putGrants (db : Database) (grants : AutoTable Row) : Database :=
  { db with grants := grants }

@[simp] theorem Database.putGrants_grants (db : Database) (grants : AutoTable Row) :
    (db.putGrants grants).grants = grants := rfl

inductive Change (db : Database) : Operation → Option GrantRecord → Database → Prop where
  | created {instanceName reason : Text} {items : List RawItem} {clean : List Item}
      (allowed : ∀ names, cfg.allowedInstances = some names → instanceName ∈ names)
      (cleaned : cleanItems items = .ok clean) (nonempty : items ≠ []) :
      Change db (.createRequest instanceName (some reason) items)
        (some (toRecord cfg now db.grants.next (pendingRow now instanceName reason clean)))
        (db.putGrants (db.grants.insert (pendingRow now instanceName reason clean)))
  | approved {rid : Nat} {expiry : Option Text} {itemNumbers : Option (List (Option Int))}
      {row : Row} {parsed : Option Int} {items : List Item}
      (found : db.grants.get? rid = some row) (open_ : effectiveState cfg now row = .pending)
      (expires : parseExpiry expiry = .ok parsed)
      (chosen : itemNumbers.elim (.ok row.items) (chooseItems row.items) = .ok items)
      (selected : itemNumbers ≠ some []) :
      Change db (.approve rid expiry itemNumbers)
        (some (toRecord cfg now rid
          (row.activate now items (now + parsed.getD cfg.defaultDuration))))
        (db.putGrants (db.grants.modify rid
          (Row.activate now items (now + parsed.getD cfg.defaultDuration))))
  | emptied {rid : Nat} {expiry : Option Text} {row : Row}
      (found : db.grants.get? rid = some row) (open_ : effectiveState cfg now row = .pending) :
      Change db (.approve rid expiry (some []))
        (some (toRecord cfg now rid (row.reject now "partial_empty".toList)))
        (db.putGrants (db.grants.modify rid (Row.reject now "partial_empty".toList)))
  | rejected {rid : Nat} {row : Row}
      (found : db.grants.get? rid = some row) (open_ : effectiveState cfg now row = .pending) :
      Change db (.reject rid)
        (some (toRecord cfg now rid (row.reject now "rejection".toList)))
        (db.putGrants (db.grants.modify rid (Row.reject now "rejection".toList)))
  | withdrawn {rid : Nat} {row : Row}
      (found : db.grants.get? rid = some row) (open_ : effectiveState cfg now row = .pending) :
      Change db (.revoke rid)
        (some (toRecord cfg now rid (row.reject now "pending_revoke".toList)))
        (db.putGrants (db.grants.modify rid (Row.reject now "pending_revoke".toList)))
  | revoked {rid : Nat} {row : Row}
      (found : db.grants.get? rid = some row) (live : effectiveState cfg now row = .active) :
      Change db (.revoke rid) (some (toRecord cfg now rid row.revoke))
        (db.putGrants (db.grants.modify rid Row.revoke))
  | posted {eventId : Text} {rid : Nat} (fresh : db.posted.lookup eventId = none) :
      Change db (.recordPosted eventId rid) none
        { db with posted := db.posted ++ [(eventId, rid)] }
  | restarted : Change db .restart none (restartDiscardPending db)

variable {cfg now}

theorem effectiveState_eq_pending {row : Row} :
    effectiveState cfg now row = .pending ↔
      row.state = .pending ∧ now - row.createdAt < cfg.pendingTimeout := by
  cases hState : row.state with
  | pending =>
    simp only [effectiveState, hState]
    split
    · simp
      omega
    · simp
      omega
  | active =>
    simp only [effectiveState, hState]
    split <;> simp
  | expired | revoked | rejected => simp [effectiveState, hState]

theorem effectiveState_expired_iff {row : Row} (hPending : row.state = .pending) :
    effectiveState cfg now row = .expired ↔ cfg.pendingTimeout ≤ now - row.createdAt := by
  rw [effectiveState, hPending]
  dsimp only
  split
  · rename_i hOld
    exact iff_of_true rfl hOld
  · rename_i hYoung
    exact iff_of_false (by decide) hYoung

theorem effectiveState_eq_active {row : Row} :
    effectiveState cfg now row = .active ↔
      row.state = .active ∧ ∃ expiry, row.expiresAt = some expiry ∧ now < expiry := by
  cases hState : row.state with
  | pending =>
    simp only [effectiveState, hState]
    split <;> simp
  | active =>
    obtain ⟨expiry, hExpiry⟩ := Option.ne_none_iff_exists'.mp (row.active_expires hState)
    simp only [effectiveState, hState, hExpiry, Option.all_some, decide_eq_true_eq]
    split
    · simp
      omega
    · simp
      omega
  | expired | revoked | rejected => simp [effectiveState, hState]

theorem Row.discard_state (row : Row) : row.discard.state ≠ .pending := by
  rw [Row.discard]
  split
  · simp
  · assumption

theorem not_mem_decided {state : State} : state ∉ decided ↔ state = .pending := by
  cases state <;> decide

theorem mem_pendingRecords {db : Database} {record : GrantRecord} :
    record ∈ pendingRecords cfg now db ↔ ∃ row, db.grants.get? record.id = some row ∧
      row.state = .pending ∧ record = toRecord cfg now record.id row := by
  constructor
  · intro hMem
    obtain ⟨⟨key, row⟩, hEntry, rfl⟩ := List.mem_map.mp hMem
    obtain ⟨hRow, hState⟩ := List.mem_filter.mp hEntry
    exact ⟨row, (AutoTable.mem_rows_iff _ _ _).mp hRow, of_decide_eq_true hState, rfl⟩
  · rintro ⟨row, hRow, hState, hRecord⟩
    refine List.mem_map.mpr ⟨(record.id, row), ?_, hRecord.symm⟩
    exact List.mem_filter.mpr ⟨(AutoTable.mem_rows_iff _ _ _).mpr hRow, decide_eq_true hState⟩

theorem pendingRecords_nodup (db : Database) :
    ((pendingRecords cfg now db).map GrantRecord.id).Nodup := by
  have hKeys : ((db.grants.rows.filter fun entry => entry.2.state = .pending).map Prod.fst).Nodup := by
    rw [List.Nodup, List.pairwise_map]
    exact (db.grants.sorted.filter _).imp Nat.ne_of_lt
  rw [pendingRecords, List.map_map]
  exact hKeys

theorem getRow_run {rid : Nat} {row : Row} {db : Database} (hRow : db.grants.get? rid = some row) :
    (getRow cfg now rid).run db = (.ok (toRecord cfg now rid row), db) := by
  simp [getRow, Effect.bind_run, hRow]

theorem assertPending_run {rid : Nat} {row : Row} {db : Database}
    (hRow : db.grants.get? rid = some row) (hOpen : effectiveState cfg now row = .pending) :
    (assertPending cfg now rid).run db = (.ok row, db) := by
  rw [assertPending, Effect.bind_ok (Effect.get_run db), hRow]
  dsimp only
  rw [if_neg (not_mem_decided.mpr hOpen)]
  rfl

theorem assertPending_cases (cfg : Settings) (now : Int) (rid : Nat) (db : Database) :
    (∃ e, (assertPending cfg now rid).run db = (.error e, db)) ∨
    (∃ row, db.grants.get? rid = some row ∧ effectiveState cfg now row = .pending ∧
      (assertPending cfg now rid).run db = (.ok row, db)) := by
  rw [assertPending, Effect.bind_ok (Effect.get_run db)]
  cases hRow : db.grants.get? rid with
  | none => exact Or.inl ⟨_, rfl⟩
  | some row =>
    dsimp only
    split
    · exact Or.inl ⟨_, rfl⟩
    · rename_i hOpen
      exact Or.inr ⟨row, rfl, not_mem_decided.mp hOpen, rfl⟩

/-- Writing a row that exists and reading it back. -/
theorem updateGrant_getRow {rid : Nat} {row : Row} {db : Database} (f : Row → Row)
    (hRow : db.grants.get? rid = some row) :
    (do updateGrant rid f; getRow cfg now rid : Effect Database GrantError GrantRecord).run db =
      (.ok (toRecord cfg now rid (f row)), db.putGrants (db.grants.modify rid f)) := by
  have hGet : (db.grants.modify rid f).get? rid = some (f row) := by
    rw [AutoTable.get?_modify, if_pos rfl, hRow]
    rfl
  rw [updateGrant, Effect.bind_ok (Effect.modify_run _ db)]
  exact getRow_run hGet

theorem chooseItems_eq_nil {items : List Item} {numbers : List (Option Int)} :
    chooseItems items numbers = .ok [] ↔ numbers = [] := by
  cases numbers with
  | nil => simp [chooseItems]
  | cons number rest =>
    cases number with
    | none => simp [chooseItems]
    | some n =>
      rw [chooseItems]
      split
      · simp
      split
      · simp
      · cases chooseItems items rest <;> simp [bind, Except.bind, pure, Except.pure]

/-- A request that passes every check is stored as pending. -/
theorem createRequest_run {instanceName text : Text} {items : List RawItem} {clean : List Item}
    (hReason : ¬ isBlank text = true) (hItems : items ≠ [])
    (hAllowed : ∀ names, cfg.allowedInstances = some names → instanceName ∈ names)
    (hClean : cleanItems items = .ok clean) (db : Database) :
    (createRequest cfg now instanceName (some text) items).run db =
      (.ok (toRecord cfg now db.grants.next (pendingRow now instanceName text clean)),
        db.putGrants (db.grants.insert (pendingRow now instanceName text clean))) := by
  have hKnown : ¬ cfg.allowedInstances.any (instanceName ∉ ·) = true := by
    intro h
    obtain ⟨names, hNames, hNot⟩ := Option.any_eq_true _ _ |>.mp h
    exact (of_decide_eq_true hNot) (hAllowed names hNames)
  rw [createRequest, if_neg hReason, if_neg hItems, if_neg hKnown, hClean]
  dsimp only
  rw [Effect.bind_ok (Effect.get_run db), Effect.bind_ok (Effect.modify_run _ db)]
  exact getRow_run (by simp [AutoTable.get?_insert])

theorem createRequest_cases (cfg : Settings) (now : Int) (instanceName : Text)
    (reason : Option Text) (items : List RawItem) (db : Database) :
    (∃ e, (createRequest cfg now instanceName reason items).run db = (.error e, db)) ∨
    (∃ text clean, reason = some text ∧
      (∀ names, cfg.allowedInstances = some names → instanceName ∈ names) ∧
      cleanItems items = .ok clean ∧ items ≠ [] ∧
      (createRequest cfg now instanceName reason items).run db =
        (.ok (toRecord cfg now db.grants.next (pendingRow now instanceName text clean)),
          db.putGrants (db.grants.insert (pendingRow now instanceName text clean)))) := by
  cases reason with
  | none => exact Or.inl ⟨_, rfl⟩
  | some text =>
    rw [createRequest]
    split
    · exact Or.inl ⟨_, rfl⟩
    split
    · exact Or.inl ⟨_, rfl⟩
    split
    · exact Or.inl ⟨_, rfl⟩
    split
    · exact Or.inl ⟨_, rfl⟩
    · rename_i hNonempty hAllowed _ clean hClean
      refine Or.inr ⟨text, clean, rfl, ?_, hClean, hNonempty, ?_⟩
      · intro names hNames
        simpa [hNames] using hAllowed
      · rw [Effect.bind_ok (Effect.get_run db), Effect.bind_ok (Effect.modify_run _ db)]
        exact getRow_run (by simp [AutoTable.get?_insert])

theorem approve_cases (cfg : Settings) (now : Int) (rid : Nat) (expiry : Option Text)
    (itemNumbers : Option (List (Option Int))) (db : Database) :
    (∃ e, (approve cfg now rid expiry itemNumbers).run db = (.error e, db)) ∨
    (∃ record db', Change cfg now db (.approve rid expiry itemNumbers) (some record) db' ∧
      (approve cfg now rid expiry itemNumbers).run db = (.ok record, db')) := by
  rcases assertPending_cases cfg now rid db with ⟨e, hRun⟩ | ⟨row, hRow, hOpen, hRun⟩
  · exact Or.inl ⟨e, Effect.bind_error hRun⟩
  rw [approve, Effect.bind_ok hRun]
  split
  · exact Or.inl ⟨_, rfl⟩
  rename_i parsed hParsed
  dsimp only
  split
  · exact Or.inl ⟨_, rfl⟩
  rename_i items hItems
  split
  · rename_i hEmpty
    obtain ⟨hSome, rfl⟩ := hEmpty
    obtain ⟨numbers, rfl⟩ := Option.isSome_iff_exists.mp hSome
    cases chooseItems_eq_nil.mp hItems
    exact Or.inr ⟨_, _, .emptied hRow hOpen, updateGrant_getRow _ hRow⟩
  · rename_i hSelected
    refine Or.inr ⟨_, _, .approved hRow hOpen hParsed hItems ?_, updateGrant_getRow _ hRow⟩
    rintro rfl
    exact hSelected ⟨rfl, by cases hItems; rfl⟩

theorem reject_cases (cfg : Settings) (now : Int) (rid : Nat) (db : Database) :
    (∃ e, (reject cfg now rid).run db = (.error e, db)) ∨
    (∃ record db', Change cfg now db (.reject rid) (some record) db' ∧
      (reject cfg now rid).run db = (.ok record, db')) := by
  rcases assertPending_cases cfg now rid db with ⟨e, hRun⟩ | ⟨row, hRow, hOpen, hRun⟩
  · exact Or.inl ⟨e, Effect.bind_error hRun⟩
  · rw [reject, Effect.bind_ok hRun]
    exact Or.inr ⟨_, _, .rejected hRow hOpen, updateGrant_getRow _ hRow⟩

theorem revoke_cases (cfg : Settings) (now : Int) (rid : Nat) (db : Database) :
    (∃ e, (revoke cfg now rid).run db = (.error e, db)) ∨
    (∃ record db', Change cfg now db (.revoke rid) (some record) db' ∧
      (revoke cfg now rid).run db = (.ok record, db')) := by
  rw [revoke, Effect.bind_ok (Effect.get_run db)]
  cases hRow : db.grants.get? rid with
  | none => exact Or.inl ⟨_, rfl⟩
  | some row =>
    dsimp only
    split
    · rename_i hOpen
      exact Or.inr ⟨_, _, .withdrawn hRow hOpen, updateGrant_getRow _ hRow⟩
    · rename_i hLive
      exact Or.inr ⟨_, _, .revoked hRow hLive, updateGrant_getRow _ hRow⟩
    · exact Or.inl ⟨_, rfl⟩

theorem recordPosted_cases (eventId : Text) (rid : Nat) (db : Database) :
    (recordPosted eventId rid).run db = (.error (.duplicateEvent eventId), db) ∨
    (db.posted.lookup eventId = none ∧ (recordPosted eventId rid).run db =
      (.ok (), { db with posted := db.posted ++ [(eventId, rid)] })) := by
  rw [recordPosted, Effect.bind_ok (Effect.get_run db)]
  split
  · exact Or.inl rfl
  · rename_i hFresh
    exact Or.inr ⟨Option.not_isSome_iff_eq_none.mp hFresh, rfl⟩

/-- Every operation raises and changes nothing, or makes one of the listed changes. -/
theorem Operation.run_cases (op : Operation) (cfg : Settings) (now : Int) (db : Database) :
    (∃ e, (op.run cfg now).run db = (.error e, db)) ∨
    (∃ result db', Change cfg now db op result db' ∧ (op.run cfg now).run db = (.ok result, db')) := by
  cases op with
  | createRequest instanceName reason items =>
    rcases createRequest_cases cfg now instanceName reason items db with
      ⟨e, hRun⟩ | ⟨text, clean, rfl, hAllowed, hClean, hItems, hRun⟩
    · exact Or.inl ⟨e, Effect.bind_error hRun⟩
    · exact Or.inr ⟨_, _, .created hAllowed hClean hItems, Effect.bind_ok hRun⟩
  | approve rid expiry itemNumbers =>
    rcases approve_cases cfg now rid expiry itemNumbers db with
      ⟨e, hRun⟩ | ⟨record, db', hChange, hRun⟩
    · exact Or.inl ⟨e, Effect.bind_error hRun⟩
    · exact Or.inr ⟨_, _, hChange, Effect.bind_ok hRun⟩
  | reject rid =>
    rcases reject_cases cfg now rid db with ⟨e, hRun⟩ | ⟨record, db', hChange, hRun⟩
    · exact Or.inl ⟨e, Effect.bind_error hRun⟩
    · exact Or.inr ⟨_, _, hChange, Effect.bind_ok hRun⟩
  | revoke rid =>
    rcases revoke_cases cfg now rid db with ⟨e, hRun⟩ | ⟨record, db', hChange, hRun⟩
    · exact Or.inl ⟨e, Effect.bind_error hRun⟩
    · exact Or.inr ⟨_, _, hChange, Effect.bind_ok hRun⟩
  | recordPosted eventId rid =>
    rcases recordPosted_cases eventId rid db with hRun | ⟨hFresh, hRun⟩
    · exact Or.inl ⟨_, Effect.bind_error hRun⟩
    · exact Or.inr ⟨_, _, .posted hFresh, Effect.bind_ok hRun⟩
  | restart => exact Or.inr ⟨_, _, .restarted, rfl⟩

end AccessBroker.Grants
