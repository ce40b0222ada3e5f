import AccessBroker.Grants.History

/-! # Authority along a run

The active grants of a session are the numbers its history authorizes, with the
items and the expiry of the one approval, and nothing later rewrites either.
-/

namespace AccessBroker.Grants
open Py Paths
set_option autoImplicit false

variable {cfg : Settings}

theorem mem_activeGrants {now : Int} {instance? : Option Text} {db : Database} {r : GrantRecord} :
    r ∈ activeGrants cfg now instance? db ↔
      ∃ row expiry, db.grants.get? r.id = some row ∧ row.state = .active ∧
        row.expiresAt = some expiry ∧ now < expiry ∧
        (∀ name, instance? = some name → row.instanceName = name) ∧
        r = toRecord cfg now r.id row := by
  rw [activeGrants, List.mem_filterMap]
  constructor
  · rintro ⟨⟨rid, row⟩, hMem, hSome⟩
    dsimp only at hSome
    split at hSome
    · cases hSome
    split at hSome
    · cases hSome
    split at hSome
    · cases hSome
    rename_i hStored hInstance hLive
    cases hSome
    obtain ⟨hActive, expiry, hExpiry, hBefore⟩ :=
      effectiveState_eq_active.mp (Decidable.not_not.mp hLive)
    refine ⟨row, expiry, (AutoTable.mem_rows_iff _ _ _).mp hMem, hActive, hExpiry, hBefore, ?_, rfl⟩
    intro name hName
    cases hName
    have hSame : name = row.instanceName := by simpa using hInstance
    exact hSame.symm
  · rintro ⟨row, expiry, hRow, hActive, hExpiry, hBefore, hInstance, hRecord⟩
    refine ⟨(r.id, row), (AutoTable.mem_rows_iff _ _ _).mpr hRow, ?_⟩
    have hLive : effectiveState cfg now row = .active :=
      effectiveState_eq_active.mpr ⟨hActive, expiry, hExpiry, hBefore⟩
    dsimp only
    rw [if_neg (not_not_intro hActive), if_neg, if_neg (not_not_intro hLive), ← hRecord]
    cases instance? with
    | none => simp
    | some name => simp [hInstance name rfl]

/-! ## What later operations leave alone -/

/-- A decided row keeps what was decided. -/
def Row.Keeps (row row' : Row) : Prop :=
  row.state ≠ .pending → row'.state ≠ .pending ∧ row'.instanceName = row.instanceName ∧
    row'.items = row.items ∧ row'.expiresAt = row.expiresAt

def Database.Keeps (db db' : Database) : Prop :=
  ∀ rid row, db.grants.get? rid = some row → ∃ row', db'.grants.get? rid = some row' ∧ row.Keeps row'

theorem Row.Keeps.refl (row : Row) : row.Keeps row := fun h => ⟨h, rfl, rfl, rfl⟩

theorem Database.Keeps.refl (db : Database) : db.Keeps db := fun _ row hRow =>
  ⟨row, hRow, Row.Keeps.refl row⟩

theorem Database.Keeps.trans {db db' db'' : Database} (h : db.Keeps db') (h' : db'.Keeps db'') :
    db.Keeps db'' := by
  intro rid row hRow
  obtain ⟨row', hRow', hKeeps⟩ := h rid row hRow
  obtain ⟨row'', hRow'', hKeeps'⟩ := h' rid row' hRow'
  refine ⟨row'', hRow'', fun hDecided => ?_⟩
  obtain ⟨hDecided', hName, hItems, hExpires⟩ := hKeeps hDecided
  obtain ⟨hDecided'', hName', hItems', hExpires'⟩ := hKeeps' hDecided'
  exact ⟨hDecided'', hName'.trans hName, hItems'.trans hItems, hExpires'.trans hExpires⟩

theorem Database.keeps_modify {db : Database} {rid : Nat} {row : Row} {f : Row → Row}
    (hRow : db.grants.get? rid = some row) (h : row.Keeps (f row)) :
    db.Keeps (db.putGrants (db.grants.modify rid f)) := by
  intro other row' hOther
  rw [Database.putGrants_grants, AutoTable.get?_modify]
  split
  · rename_i hEq
    rw [hEq, hRow] at hOther
    cases hOther
    exact ⟨f row, by rw [hRow]; rfl, h⟩
  · exact ⟨row', hOther, Row.Keeps.refl row'⟩

theorem Change.keeps {now : Int} {db db' : Database} {op : Operation}
    {result : Option GrantRecord} (h : Change cfg now db op result db') : db.Keeps db' := by
  cases h with
  | created _ _ _ =>
    intro rid row hRow
    refine ⟨row, ?_, Row.Keeps.refl row⟩
    rw [Database.putGrants_grants, AutoTable.get?_insert,
      if_neg (Nat.ne_of_lt (AutoTable.get?_lt hRow))]
    exact hRow
  | approved hRow hOpen _ _ _ =>
    exact Database.keeps_modify hRow fun h => absurd (effectiveState_eq_pending.mp hOpen).1 h
  | emptied hRow hOpen =>
    exact Database.keeps_modify hRow fun h => absurd (effectiveState_eq_pending.mp hOpen).1 h
  | rejected hRow hOpen =>
    exact Database.keeps_modify hRow fun h => absurd (effectiveState_eq_pending.mp hOpen).1 h
  | withdrawn hRow hOpen =>
    exact Database.keeps_modify hRow fun h => absurd (effectiveState_eq_pending.mp hOpen).1 h
  | revoked hRow _ =>
    exact Database.keeps_modify hRow fun _ => ⟨by simp [Row.revoke], rfl, rfl, rfl⟩
  | posted _ => exact Database.Keeps.refl db
  | restarted =>
    intro rid row hRow
    refine ⟨row.discard, by rw [restartDiscardPending, AutoTable.get?_update, hRow]; rfl, ?_⟩
    intro hDecided
    rw [Row.discard, if_neg hDecided]
    exact ⟨hDecided, rfl, rfl, rfl⟩

theorem Session.step_keeps (s : Session) (act : Act) : s.db.Keeps (s.step cfg act).db := by
  cases act with
  | tick elapsed => exact Database.Keeps.refl s.db
  | call op =>
    rcases op.run_cases cfg s.now s.db with ⟨e, hRun⟩ | ⟨result, db', hChange, hRun⟩
    · rw [Session.step_call hRun]
      exact Database.Keeps.refl s.db
    · rw [Session.step_call hRun]
      exact hChange.keeps

theorem Session.run_keeps (cfg : Settings) (s : Session) (acts : List Act) :
    s.db.Keeps (Machine.run (Session.step cfg) s acts).db :=
  Machine.run_relation (R := fun s s' => s.db.Keeps s'.db) (fun s => Database.Keeps.refl s.db)
    (fun _ _ _ => Database.Keeps.trans) Session.step_keeps s acts

/-- The request numbers whose rows an operation may write. -/
def Operation.MayWrite (db : Database) (rid : Nat) : Operation → Prop
  | .createRequest _ _ _ => rid = db.grants.next
  | .approve rid' _ _ | .reject rid' | .revoke rid' => rid = rid'
  | .recordPosted _ _ => False
  | .restart => ∃ row, db.grants.get? rid = some row ∧ row.state = .pending

theorem Change.frame {now : Int} {db db' : Database} {op : Operation}
    {result : Option GrantRecord} (h : Change cfg now db op result db') {rid : Nat}
    (hOutside : ¬ op.MayWrite db rid) : db'.grants.get? rid = db.grants.get? rid := by
  cases h with
  | created _ _ _ =>
    rw [Database.putGrants_grants, AutoTable.get?_insert]
    exact if_neg hOutside
  | approved _ _ _ _ _ | emptied _ _ | rejected _ _ | withdrawn _ _ | revoked _ _ =>
    rw [Database.putGrants_grants, AutoTable.get?_modify]
    exact if_neg hOutside
  | posted _ => rfl
  | restarted =>
    rw [restartDiscardPending, AutoTable.get?_update]
    cases hRow : db.grants.get? rid with
    | none => rfl
    | some row =>
      rw [Option.map_some, Row.discard, if_neg]
      exact fun hPending => hOutside ⟨row, hRow, hPending⟩

/-! ## The sessions a store can reach -/

/-- Authority is history: who is active, with what, and what operations leave alone. -/
structure Session.AuthorityIsHistory (cfg : Settings) (s : Session) : Prop where
  active_iff : ∀ instance? rid,
    (∃ r ∈ activeGrants cfg s.now instance? s.db, r.id = rid) ↔
      ∃ name items expiry, Authorized cfg s.events rid name items expiry ∧ s.now < expiry ∧
        ∀ name', instance? = some name' → name = name'
  payload : ∀ instance?, ∀ r ∈ activeGrants cfg s.now instance? s.db,
    ∃ expiry, r.expiresAt = some expiry ∧
      Authorized cfg s.events r.id r.instanceName r.items expiry
  lasting : ∀ instance? instance?' acts, ∀ r ∈ activeGrants cfg s.now instance? s.db,
    let later := Machine.run (Session.step cfg) s acts
    ∀ r' ∈ activeGrants cfg later.now instance?' later.db, r'.id = r.id →
      r'.instanceName = r.instanceName ∧ r'.items = r.items ∧ r'.expiresAt = r.expiresAt
  raising : ∀ (op : Operation) e db', (op.run cfg s.now).run s.db = (.error e, db') → db' = s.db
  frame : ∀ (op : Operation) outcome db', (op.run cfg s.now).run s.db = (outcome, db') →
    ∀ rid, ¬ op.MayWrite s.db rid → db'.grants.get? rid = s.db.grants.get? rid

theorem Session.Agrees.authority {s : Session} (h : s.Agrees cfg) : s.AuthorityIsHistory cfg where
  active_iff instance? rid := by
    constructor
    · rintro ⟨r, hr, rfl⟩
      obtain ⟨row, expiry, hRow, hActive, hExpiry, hBefore, hInstance, _⟩ := mem_activeGrants.mp hr
      exact ⟨row.instanceName, row.items, expiry,
        ((h r.id).authorized _ _ _).mpr ⟨row, hRow, hActive, rfl, rfl, hExpiry⟩, hBefore, hInstance⟩
    · rintro ⟨name, items, expiry, hAuth, hBefore, hInstance⟩
      obtain ⟨row, hRow, hActive, rfl, rfl, hExpiry⟩ := ((h rid).authorized _ _ _).mp hAuth
      exact ⟨toRecord cfg s.now rid row,
        mem_activeGrants.mpr ⟨row, expiry, hRow, hActive, hExpiry, hBefore, hInstance, rfl⟩, rfl⟩
  payload instance? r hr := by
    obtain ⟨row, expiry, hRow, hActive, hExpiry, _, _, hRecord⟩ := mem_activeGrants.mp hr
    refine ⟨expiry, by rw [hRecord]; exact hExpiry, ?_⟩
    rw [hRecord]
    exact ((h r.id).authorized _ _ _).mpr ⟨row, hRow, hActive, rfl, rfl, hExpiry⟩
  lasting instance? instance?' acts r hr := by
    intro later r' hr' hId
    obtain ⟨row, expiry, hRow, hActive, _, _, _, hRecord⟩ := mem_activeGrants.mp hr
    obtain ⟨row', expiry', hRow', _, _, _, _, hRecord'⟩ := mem_activeGrants.mp hr'
    obtain ⟨kept, hKept, hKeeps⟩ := Session.run_keeps cfg s acts r.id row hRow
    rw [hId] at hRow'
    cases hRow'.symm.trans hKept
    obtain ⟨_, hName, hItems, hExpires⟩ := hKeeps (by simp [hActive])
    rw [hRecord, hRecord']
    exact ⟨hName, hItems, hExpires⟩
  raising op e db' hRun := by
    rcases op.run_cases cfg s.now s.db with ⟨e', hRun'⟩ | ⟨_, _, _, hRun'⟩
    · cases hRun.symm.trans hRun'
      rfl
    · cases hRun.symm.trans hRun'
  frame op outcome db' hRun rid hOutside := by
    rcases op.run_cases cfg s.now s.db with
      ⟨e', hRun'⟩ | ⟨_, _, hChange, hRun'⟩
    · cases hRun.symm.trans hRun'
      rfl
    · cases hRun.symm.trans hRun'
      exact hChange.frame hOutside

theorem Session.run_agrees (now : Int) (acts : List Act) :
    (Machine.run (Session.step cfg) (Session.start now) acts).Agrees cfg :=
  Machine.run_invariant (fun s act => agrees_step s act) (fun _ => AgreesAt.start) acts

theorem authority_is_history (cfg : Settings) (now : Int) (acts : List Act) :
    (Machine.run (Session.step cfg) (Session.start now) acts).AuthorityIsHistory cfg :=
  (Session.run_agrees now acts).authority

end AccessBroker.Grants
