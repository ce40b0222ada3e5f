import AccessBroker.Grants.Display
import AccessBroker.MatrixBot.Settling

/-! # Mass revocation

`revoke all` and `revoke <instance>` list the active grants once and then revoke them one
after the other, each at its own reading of the clock. What expires before its turn is
passed over.
-/

namespace AccessBroker.MatrixBot
open Py Paths Grants
set_option autoImplicit false

/-- The rows that were revoked at questions from `first` on and before `last`. -/
structure Revoked (store : Settings) (clock : Nat → Int) (first last : Nat) (ids : List Nat)
    (db db' : Database) : Prop where
  row : ∀ rid, db'.grants.get? rid =
    if rid ∈ ids then (db.grants.get? rid).map Row.revoke else db.grants.get? rid
  live : ∀ rid ∈ ids, ∃ row k, db.grants.get? rid = some row ∧ first ≤ k ∧ k < last ∧
    effectiveState store (clock k) row = .active

def PassedOver (store : Settings) (clock : Nat → Int) (first last : Nat) (db : Database)
    (rid : Nat) : Prop :=
  ∃ row k, db.grants.get? rid = some row ∧ first ≤ k ∧ k < last ∧
    effectiveState store (clock k) row = .expired

section Rows

variable {store : Settings} {clock : Nat → Int} {now : Int} {db : Database} {rid : Nat} {row : Row}

theorem revoke_active (hRow : db.grants.get? rid = some row)
    (hLive : effectiveState store now row = .active) :
    (revoke store now rid).run db =
      (.ok (toRecord store now rid row.revoke), db.putGrants (db.grants.modify rid Row.revoke)) := by
  rw [revoke, Effect.bind_ok (Effect.get_run db), hRow]
  dsimp only
  rw [hLive]
  exact updateGrant_getRow _ hRow

theorem revoke_expired (hRow : db.grants.get? rid = some row)
    (hExpired : effectiveState store now row = .expired) :
    (revoke store now rid).run db = (.error (.alreadyDecided rid .expired), db) := by
  rw [revoke, Effect.bind_ok (Effect.get_run db), hRow]
  dsimp only
  rw [hExpired]
  rfl

theorem effectiveState_stored_active (hActive : row.state = .active) :
    effectiveState store now row = .active ∨ effectiveState store now row = .expired := by
  rw [effectiveState, hActive]
  dsimp only
  split
  · exact Or.inr rfl
  · exact Or.inl rfl

theorem activeGrants_nodup (now : Int) (instance? : Option Text) (db : Database) :
    ((activeGrants store now instance? db).map GrantRecord.id).Nodup := by
  rw [List.Nodup, List.pairwise_map, activeGrants, List.pairwise_filterMap]
  apply db.grants.sorted.imp
  intro a b hLt r hr r' hr'
  have hId : ∀ {entry : Nat × Row} {record : GrantRecord},
      (if entry.2.state ≠ .active then none
        else if instance?.any (· ≠ entry.2.instanceName) then none
        else if effectiveState store now entry.2 ≠ .active then none
        else some (toRecord store now entry.1 entry.2)) = some record → record.id = entry.1 := by
    intro entry record h
    split at h
    · cases h
    split at h
    · cases h
    split at h
    · cases h
    · cases h
      rfl
  rw [hId hr, hId hr']
  exact Nat.ne_of_lt hLt

/-! ## The loop -/

theorem Revoked.cons {first last : Nat} {ids : List Nat} {db' : Database}
    (hRow : db.grants.get? rid = some row) (hLive : effectiveState store (clock first) row = .active)
    (hLast : first < last) (hFresh : rid ∉ ids)
    (h : Revoked store clock (first + 1) last ids
      (db.putGrants (db.grants.modify rid Row.revoke)) db') :
    Revoked store clock first last (rid :: ids) db db' := by
  constructor
  · intro other
    rw [h.row, Database.putGrants_grants, AutoTable.get?_modify]
    by_cases hOther : other = rid
    · simp [hOther, hFresh]
    · simp [hOther]
  · intro other hMem
    rcases List.mem_cons.mp hMem with rfl | hTail
    · exact ⟨row, first, hRow, le_refl _, hLast, hLive⟩
    · obtain ⟨row', k, hRow', hFirst, hBefore, hActive⟩ := h.live other hTail
      have hOther : other ≠ rid := fun hSame => hFresh (hSame ▸ hTail)
      rw [Database.putGrants_grants, AutoTable.get?_modify, if_neg hOther] at hRow'
      exact ⟨row', k, hRow', by omega, hBefore, hActive⟩

theorem Revoked.later {first last : Nat} {ids : List Nat} {db' : Database}
    (h : Revoked store clock (first + 1) last ids db db') :
    Revoked store clock first last ids db db' := by
  refine ⟨h.row, fun other hMem => ?_⟩
  obtain ⟨row, k, hRow, hFirst, hRest⟩ := h.live other hMem
  exact ⟨row, k, hRow, by omega, hRest⟩

theorem PassedOver.later {first last : Nat}
    (h : PassedOver store clock (first + 1) last db rid) :
    PassedOver store clock first last db rid := by
  obtain ⟨row, k, hRow, hFirst, hRest⟩ := h
  exact ⟨row, k, hRow, by omega, hRest⟩

theorem PassedOver.unmodified {first last other : Nat} (hOther : other ≠ rid)
    (h : PassedOver store clock first last (db.putGrants (db.grants.modify rid Row.revoke)) other) :
    PassedOver store clock first last db other := by
  obtain ⟨row, k, hRow, hRest⟩ := h
  rw [Database.putGrants_grants, AutoTable.get?_modify, if_neg hOther] at hRow
  exact ⟨row, k, hRow, hRest⟩

end Rows

section Loop

variable {store : Settings} {clock : Nat → Int}

/-- One turn on a stored active row: it is revoked, or it has expired and is passed over. -/
theorem revokeEach_cons {record : GrantRecord} {d : Desk} {row : Row} (rest : List GrantRecord)
    (hRow : d.db.grants.get? record.id = some row) (hActive : row.state = .active) :
    (effectiveState store (clock d.asked) row = .active ∧
      (revokeEach store clock (record :: rest)).run d =
        (do return record.id :: (← revokeEach store clock rest) : Handler (List Nat)).run
          { d with
            db := d.db.putGrants (d.db.grants.modify record.id Row.revoke)
            asked := d.asked + 1 }) ∨
    (effectiveState store (clock d.asked) row = .expired ∧
      (revokeEach store clock (record :: rest)).run d =
        (revokeEach store clock rest).run { d with asked := d.asked + 1 }) := by
  rcases effectiveState_stored_active hActive with hLive | hExpired
  · refine Or.inl ⟨hLive, ?_⟩
    have hTurn := onStore_run clock (fun now => revoke store now record.id) d
    rw [revoke_active hRow hLive] at hTurn
    rw [revokeEach, Effect.bind_ok (Effect.attempt_run hTurn)]
    rfl
  · refine Or.inr ⟨hExpired, ?_⟩
    have hTurn := onStore_run clock (fun now => revoke store now record.id) d
    rw [revoke_expired hRow hExpired] at hTurn
    rw [revokeEach, Effect.bind_ok (Effect.attempt_run hTurn)]
    rfl

theorem revokeEach_run (records : List GrantRecord) :
    ∀ d : Desk, (records.map GrantRecord.id).Nodup →
      (∀ record ∈ records, ∃ row, d.db.grants.get? record.id = some row ∧ row.state = .active) →
      ∃ ids db, (revokeEach store clock records).run d =
          (.ok ids, { d with db := db, asked := d.asked + records.length }) ∧
        ids.Sublist (records.map GrantRecord.id) ∧
        Revoked store clock d.asked (d.asked + records.length) ids d.db db ∧
        ∀ record ∈ records, record.id ∉ ids →
          PassedOver store clock d.asked (d.asked + records.length) d.db record.id := by
  induction records with
  | nil =>
    intro d _ _
    exact ⟨[], d.db, rfl, List.Sublist.refl _, ⟨by simp, by simp⟩, by simp⟩
  | cons record rest ih =>
    intro d hDistinct hStored
    obtain ⟨row, hRow, hActive⟩ := hStored record List.mem_cons_self
    obtain ⟨hFresh, hDistinct⟩ := List.nodup_cons.mp hDistinct
    have hOther : ∀ other ∈ rest, other.id ≠ record.id := by
      intro other hMem hSame
      exact hFresh (List.mem_map.mpr ⟨other, hMem, hSame⟩)
    have hLength : d.asked + (record :: rest).length = d.asked + 1 + rest.length := by
      rw [List.length_cons]
      omega
    rw [hLength]
    rcases revokeEach_cons rest hRow hActive with ⟨hLive, hTurn⟩ | ⟨hExpired, hTurn⟩
    · have hKept : ∀ other ∈ rest, ∃ row,
          (d.db.putGrants (d.db.grants.modify record.id Row.revoke)).grants.get? other.id =
            some row ∧ row.state = .active := by
        intro other hMem
        obtain ⟨row', hRow', hActive'⟩ := hStored other (List.mem_cons_of_mem _ hMem)
        refine ⟨row', ?_, hActive'⟩
        rw [Database.putGrants_grants, AutoTable.get?_modify, if_neg (hOther other hMem)]
        exact hRow'
      obtain ⟨ids, db, hRun, hIds, hRevoked, hPassed⟩ := ih
        { d with
          db := d.db.putGrants (d.db.grants.modify record.id Row.revoke)
          asked := d.asked + 1 } hDistinct hKept
      refine ⟨record.id :: ids, db, ?_, hIds.cons_cons _, ?_, ?_⟩
      · rw [hTurn, Effect.bind_ok hRun]
        rfl
      · exact hRevoked.cons hRow hLive (by omega) fun hMem => hFresh (hIds.subset hMem)
      · intro other hMem hNot
        rcases List.mem_cons.mp hMem with rfl | hMem
        · exact absurd List.mem_cons_self hNot
        · have hPassed' := hPassed other hMem fun h => hNot (List.mem_cons_of_mem _ h)
          exact (hPassed'.unmodified (hOther other hMem)).later
    · obtain ⟨ids, db, hRun, hIds, hRevoked, hPassed⟩ := ih { d with asked := d.asked + 1 }
        hDistinct fun other hMem => hStored other (List.mem_cons_of_mem _ hMem)
      refine ⟨ids, db, hTurn.trans hRun, hIds.cons _, hRevoked.later, ?_⟩
      intro other hMem hNot
      rcases List.mem_cons.mp hMem with rfl | hMem
      · exact ⟨row, d.asked, hRow, le_refl _, by omega, hExpired⟩
      · exact (hPassed other hMem hNot).later

end Loop

/-! ## The command -/

section Command

variable {store : Settings} {clock : Nat → Int}

theorem finish_run (instance? : Option Text) {active : List GrantRecord} {d d' : Desk}
    {ids : List Nat} (hRun : (revokeEach store clock active).run d = (.ok ids, d')) :
    ∃ message d'', (revokeMany.finish store clock instance? active).run d =
        (.ok (.awaits (.sending message)), d'') ∧ d''.db = d'.db ∧ d'.asked ≤ d''.asked ∧
      ((ids = [] ∧ message = .nothingToRevoke instance?) ∨
        (ids ≠ [] ∧ ∃ status, message = .revoked ids status)) := by
  rw [revokeMany.finish, Effect.bind_ok hRun]
  split
  · rename_i hNone
    exact ⟨_, d', rfl, rfl, le_refl _, Or.inl ⟨hNone, rfl⟩⟩
  · rename_i hSome
    exact ⟨_, { d' with asked := d'.asked + 3 }, rfl, rfl, Nat.le_add_right _ _,
      Or.inr ⟨hSome, _, rfl⟩⟩

/-- What a mass revocation did: `ids` are the rows it changed, each of them effectively active
when it was revoked, and no row it was asked for is left active. -/
structure RevokedMany (store : Settings) (clock : Nat → Int) (target : Option Text) (d d' : Desk)
    (ids : List Nat) (message : Message) : Prop where
  complete : ∀ now, clock d'.asked ≤ now → activeGrants store now target d'.db = []
  confined : ∀ rid row, d.db.grants.get? rid = some row →
    (∃ name, target = some name ∧ row.instanceName ≠ name) ∨
      effectiveState store (clock d.asked) row ≠ .active →
    d'.db.grants.get? rid = some row
  changed : ∀ rid, rid ∈ ids ↔ d'.db.grants.get? rid ≠ d.db.grants.get? rid
  active : ∀ rid ∈ ids, ∃ row k, d.db.grants.get? rid = some row ∧ d.asked ≤ k ∧ k < d'.asked ∧
    effectiveState store (clock k) row = .active ∧ d'.db.grants.get? rid = some row.revoke
  counted : ids.Nodup
  reported : ids ≠ [] → ∃ status, message = .revoked ids status
  silent : ids = [] → ∀ others status, message ≠ .revoked others status

theorem snapshot_live {target : Option Text} {now : Int} {db : Database} {rid : Nat} {row : Row}
    (hMem : rid ∈ (activeGrants store now target db).map GrantRecord.id)
    (hRow : db.grants.get? rid = some row) :
    effectiveState store now row = .active ∧
      ∀ name, target = some name → row.instanceName = name := by
  obtain ⟨record, hRecord, rfl⟩ := List.mem_map.mp hMem
  obtain ⟨row', expiry, hRow', hActive, hExpiry, hBefore, hTarget, _⟩ := mem_activeGrants.mp hRecord
  rw [hRow] at hRow'
  cases hRow'
  exact ⟨effectiveState_eq_active.mpr ⟨hActive, expiry, hExpiry, hBefore⟩, hTarget⟩

theorem Row.revoke_ne {row : Row} (hActive : row.state = .active) : row.revoke ≠ row := by
  intro hSame
  have hState := congrArg Row.state hSame
  rw [hActive] at hState
  cases hState

theorem Revoked.complete (hClock : Monotone clock) {target : Option Text} {first last : Nat}
    {ids : List Nat} {db db' : Database} (hFirst : first ≤ last)
    (hRevoked : Revoked store clock (first + 1) last ids db db')
    (hPassed : ∀ record ∈ activeGrants store (clock first) target db, record.id ∉ ids →
      PassedOver store clock (first + 1) last db record.id) {now : Int} (hNow : clock last ≤ now) :
    activeGrants store now target db' = [] := by
  apply List.eq_nil_iff_forall_not_mem.mpr
  intro r hr
  obtain ⟨row, expiry, hRow, hStored, hExpiry, hBefore, hTarget, _⟩ := mem_activeGrants.mp hr
  by_cases hMem : r.id ∈ ids
  · rw [hRevoked.row, if_pos hMem] at hRow
    obtain ⟨old, _, rfl⟩ := Option.map_eq_some_iff.mp hRow
    cases hStored
  · rw [hRevoked.row, if_neg hMem] at hRow
    have hEarlier : clock first ≤ clock last := hClock hFirst
    have hListed : toRecord store (clock first) r.id row ∈
        activeGrants store (clock first) target db :=
      mem_activeGrants.mpr ⟨row, expiry, hRow, hStored, hExpiry, by omega, hTarget, rfl⟩
    obtain ⟨old, k, hOld, _, hTurn, hExpired⟩ := hPassed _ hListed hMem
    rw [show (toRecord store (clock first) r.id row).id = r.id from rfl, hRow] at hOld
    cases hOld
    have hLater : clock k ≤ clock last := hClock (by omega)
    have hLive : effectiveState store (clock k) row = .active :=
      effectiveState_eq_active.mpr ⟨hStored, expiry, hExpiry, by omega⟩
    rw [hLive] at hExpired
    cases hExpired

theorem Revoked.many (hClock : Monotone clock) {target : Option Text} {d d' : Desk}
    {ids : List Nat} {message : Message} {last : Nat} (hFirst : d.asked < last)
    (hLast : last ≤ d'.asked)
    (hIds : ids.Sublist ((activeGrants store (clock d.asked) target d.db).map GrantRecord.id))
    (hRevoked : Revoked store clock (d.asked + 1) last ids d.db d'.db)
    (hPassed : ∀ record ∈ activeGrants store (clock d.asked) target d.db, record.id ∉ ids →
      PassedOver store clock (d.asked + 1) last d.db record.id)
    (hReported : ids ≠ [] → ∃ status, message = .revoked ids status)
    (hSilent : ids = [] → ∀ others status, message ≠ .revoked others status) :
    RevokedMany store clock target d d' ids message := by
  have hActive : ∀ rid ∈ ids, ∃ row k, d.db.grants.get? rid = some row ∧ d.asked ≤ k ∧
      k < d'.asked ∧ effectiveState store (clock k) row = .active ∧
      d'.db.grants.get? rid = some row.revoke := by
    intro rid hMem
    obtain ⟨row, k, hRow, hSince, hBefore, hLive⟩ := hRevoked.live rid hMem
    refine ⟨row, k, hRow, by omega, by omega, hLive, ?_⟩
    rw [hRevoked.row, if_pos hMem, hRow]
    rfl
  constructor
  · intro now hNow
    exact hRevoked.complete hClock (by omega) hPassed ((hClock hLast).trans hNow)
  · intro rid row hRow hOutside
    rw [hRevoked.row, if_neg, hRow]
    intro hMem
    obtain ⟨hLive, hTarget⟩ := snapshot_live (hIds.subset hMem) hRow
    rcases hOutside with ⟨name, hName, hOther⟩ | hIdle
    · exact hOther (hTarget name hName)
    · exact hIdle hLive
  · intro rid
    constructor
    · intro hMem
      obtain ⟨row, _, hRow, _, _, hLive, hNew⟩ := hActive rid hMem
      rw [hRow, hNew]
      intro hSame
      exact Row.revoke_ne (effectiveState_eq_active.mp hLive).1 (Option.some.inj hSame)
    · intro hChanged
      by_contra hMem
      exact hChanged (by rw [hRevoked.row, if_neg hMem])
  · exact hActive
  · exact hIds.nodup (activeGrants_nodup _ _ _)
  · exact hReported
  · exact hSilent

theorem activeGrants_stored (now : Int) (target : Option Text) (db : Database) :
    ∀ record ∈ activeGrants store now target db,
      ∃ row, db.grants.get? record.id = some row ∧ row.state = .active := by
  intro record hRecord
  obtain ⟨row, _, hRow, hActive, _⟩ := mem_activeGrants.mp hRecord
  exact ⟨row, hRow, hActive⟩

/-- Whatever the clock shows, a mass revocation ends in a message. -/
theorem revokeMany_sends (target : Option Text) (d : Desk) :
    ∃ message d', (revokeMany store clock target).run d = (.ok (.awaits (.sending message)), d') := by
  have hRead : (readStore clock fun now => activeGrants store now target).run d =
      (.ok (activeGrants store (clock d.asked) target d.db), { d with asked := d.asked + 1 }) := rfl
  obtain ⟨ids, db, hRun, _⟩ := revokeEach_run (activeGrants store (clock d.asked) target d.db)
    { d with asked := d.asked + 1 } (activeGrants_nodup (clock d.asked) target d.db)
    (activeGrants_stored (clock d.asked) target d.db)
  obtain ⟨message, d', hFinish, _⟩ := finish_run target hRun
  rw [revokeMany, Effect.bind_ok hRead]
  cases target with
  | none => exact ⟨message, d', hFinish⟩
  | some name =>
    dsimp only
    split
    · exact ⟨_, _, rfl⟩
    · exact ⟨message, d', hFinish⟩

theorem finish_revokes (hClock : Monotone clock) (target : Option Text) (d : Desk) :
    ∃ ids message d', (revokeMany.finish store clock target
        (activeGrants store (clock d.asked) target d.db)).run { d with asked := d.asked + 1 } =
        (.ok (.awaits (.sending message)), d') ∧
      RevokedMany store clock target d d' ids message := by
  obtain ⟨ids, db, hRun, hIds, hRevoked, hPassed⟩ := revokeEach_run _
    { d with asked := d.asked + 1 } (activeGrants_nodup (clock d.asked) target d.db)
    (activeGrants_stored (clock d.asked) target d.db)
  obtain ⟨message, d', hFinish, rfl, hAsked, hMessage⟩ := finish_run target hRun
  refine ⟨ids, message, d', hFinish, hRevoked.many hClock ?_ hAsked hIds hPassed ?_ ?_⟩
  · dsimp only
    omega
  · intro hSome
    exact (hMessage.resolve_left fun h => hSome h.1).2
  · intro hNone others status hReport
    rcases hMessage with ⟨_, hNothing⟩ | ⟨hSome, _⟩
    · rw [hReport] at hNothing
      cases hNothing
    · exact hSome hNone

theorem revokeMany_run (hClock : Monotone clock) (target : Option Text) (d : Desk) :
    ∃ ids message d', (revokeMany store clock target).run d =
        (.ok (.awaits (.sending message)), d') ∧
      RevokedMany store clock target d d' ids message := by
  have hRead : (readStore clock fun now => activeGrants store now target).run d =
      (.ok (activeGrants store (clock d.asked) target d.db), { d with asked := d.asked + 1 }) := rfl
  rw [revokeMany, Effect.bind_ok hRead]
  cases target with
  | none => exact finish_revokes hClock none d
  | some name =>
    dsimp only
    split
    · rename_i hUnknown
      refine ⟨[], .unknownInstance name, { d with asked := d.asked + 1 }, rfl, ?_⟩
      have hNothing : Revoked store clock (d.asked + 1) (d.asked + 1) [] d.db d.db :=
        ⟨by simp, by simp⟩
      refine Revoked.many hClock (Nat.lt_succ_self _) (le_refl _) (List.nil_sublist _) hNothing
        ?_ (by simp) (by simp)
      rw [hUnknown.1]
      simp
    · exact finish_revokes hClock (some name) d

end Command

def revocation (target : Option Text) : Parsed := target.elim .revokeAll .revokeInstance

/-- A mass revocation is complete, confined to its target, and reports what it changed. -/
theorem mass_revocation (store : Settings) (bot : Bot) (clock : Nat → Int)
    (hClock : Monotone clock) (target : Option Text) (text : Text)
    (hReply : parseReply text = .ok (some (revocation target))) (d : Desk) :
    ∃ ids message d', (handleReply store bot clock bot.approver text).run d =
        (.ok (.awaits (.sending message)), d') ∧
      RevokedMany store clock target d d' ids message := by
  rw [handleReply, if_neg (by simp), hReply]
  cases target with
  | none => exact revokeMany_run hClock none d
  | some name => exact revokeMany_run hClock (some name) d

end AccessBroker.MatrixBot
