import AccessBroker.MatrixBot.Sparing
import AccessBroker.System.HumanGate

/-! # The life of a grant

A number is pending, then perhaps active, then neither, and never goes back. So a grant is
active over one stretch of a run only, with the same items and the same expiry.
-/

namespace AccessBroker.Grants
open Py
set_option autoImplicit false

def State.rank : State → Nat
  | .pending => 0
  | .active => 1
  | .rejected | .revoked | .expired => 2

variable (cfg : Settings) (now : Int)

/-- The row stays as it is, or moves on in its life; and it becomes active only while it is
effectively pending. -/
def Row.Advances (row row' : Row) : Prop :=
  row' = row ∨ row.state.rank < row'.state.rank ∧
    (row'.state = .active → effectiveState cfg now row = .pending)

def Database.Advances (db db' : Database) : Prop :=
  ∀ rid row, db.grants.get? rid = some row →
    ∃ row', db'.grants.get? rid = some row' ∧ row.Advances cfg now row'

variable {cfg now}

theorem toRecord_congr {later : Int} (rid : Nat) {row : Row}
    (h : effectiveState cfg now row = effectiveState cfg later row) :
    toRecord cfg now rid row = toRecord cfg later rid row := by
  rw [toRecord, toRecord, h]

/-- The record of an active row does not depend on when it is read. -/
theorem toRecord_active {later expiry : Int} {rid : Nat} {row : Row} (hStored : row.state = .active)
    (hExpiry : row.expiresAt = some expiry) (hNow : now < expiry) (hLater : later < expiry) :
    toRecord cfg now rid row = toRecord cfg later rid row := by
  apply toRecord_congr
  rw [effectiveState_eq_active.mpr ⟨hStored, expiry, hExpiry, hNow⟩,
    effectiveState_eq_active.mpr ⟨hStored, expiry, hExpiry, hLater⟩]

theorem Row.Advances.trans {later : Int} (hLater : now ≤ later) {row row' row'' : Row}
    (h : row.Advances cfg now row') (h' : row'.Advances cfg later row'') :
    row.Advances cfg now row'' := by
  rcases h with rfl | ⟨hRank, hOpen⟩
  · refine h'.imp id (And.imp id fun hOpen hActive => ?_)
    obtain ⟨hPending, hYoung⟩ := effectiveState_eq_pending.mp (hOpen hActive)
    exact effectiveState_eq_pending.mpr ⟨hPending, by omega⟩
  · rcases h' with rfl | ⟨hRank', _⟩
    · exact Or.inr ⟨hRank, hOpen⟩
    · refine Or.inr ⟨by omega, fun hActive => ?_⟩
      rw [hActive, State.rank] at hRank'
      omega

theorem Database.Extends.advances {db db' : Database} (h : db.Extends db') :
    db.Advances cfg now db' := fun rid row hRow => ⟨row, h rid row hRow, Or.inl rfl⟩

theorem Database.Advances.refl (db : Database) : db.Advances cfg now db :=
  Database.Extends.advances fun _ _ hRow => hRow

theorem Database.advances_modify {db : Database} {rid : Nat} {row : Row} {f : Row → Row}
    (hRow : db.grants.get? rid = some row) (h : row.Advances cfg now (f row)) :
    db.Advances cfg now (db.putGrants (db.grants.modify rid f)) := by
  intro other old hOld
  rw [Database.putGrants_grants, AutoTable.get?_modify]
  split
  · rename_i hEq
    rw [hEq, hRow] at hOld
    cases hOld
    exact ⟨f row, by rw [hRow]; rfl, h⟩
  · exact ⟨old, hOld, Or.inl rfl⟩

theorem Change.advances {db db' : Database} {op : Operation} {result : Option GrantRecord}
    (h : Change cfg now db op result db') : db.Advances cfg now db' := by
  have hReject {rid : Nat} {row : Row} (source : Text) (hRow : db.grants.get? rid = some row)
      (hOpen : effectiveState cfg now row = .pending) :
      db.Advances cfg now (db.putGrants (db.grants.modify rid (Row.reject now source))) := by
    apply Database.advances_modify hRow
    refine Or.inr ⟨?_, fun hActive => by simp [Row.reject] at hActive⟩
    rw [(effectiveState_eq_pending.mp hOpen).1]
    simp [Row.reject, State.rank]
  cases h with
  | created _ _ _ => exact (db.extends_insert _).advances
  | approved hRow hOpen _ _ _ =>
    apply Database.advances_modify hRow
    refine Or.inr ⟨?_, fun _ => hOpen⟩
    rw [(effectiveState_eq_pending.mp hOpen).1]
    simp [Row.activate, State.rank]
  | emptied hRow hOpen => exact hReject _ hRow hOpen
  | rejected hRow hOpen => exact hReject _ hRow hOpen
  | withdrawn hRow hOpen => exact hReject _ hRow hOpen
  | revoked hRow hLive =>
    apply Database.advances_modify hRow
    refine Or.inr ⟨?_, fun hActive => by simp [Row.revoke] at hActive⟩
    rw [(effectiveState_eq_active.mp hLive).1]
    simp [Row.revoke, State.rank]
  | posted _ => exact .refl _
  | restarted =>
    intro rid row hRow
    refine ⟨row.discard, by rw [restartDiscardPending, AutoTable.get?_update, hRow]; rfl, ?_⟩
    rw [Row.discard]
    split
    · rename_i hPending
      exact Or.inr ⟨by rw [hPending]; simp [State.rank], fun hActive => by simp at hActive⟩
    · exact Or.inl rfl

end AccessBroker.Grants

namespace AccessBroker.MatrixBot
open Py Grants Server
set_option autoImplicit false

variable {store : Settings} {clock : Nat → Int}

structure Desk.Advances (store : Settings) (clock : Nat → Int) (d d' : Desk) : Prop where
  asked : d.asked ≤ d'.asked
  db : d.db.Advances store (clock d.asked) d'.db

instance : Std.Refl (Desk.Advances store clock) where
  refl d := ⟨le_refl _, .refl d.db⟩

theorem advances_trans (hClock : Monotone clock) : IsTrans Desk (Desk.Advances store clock) where
  trans d d' d'' h h' := by
    refine ⟨h.asked.trans h'.asked, fun rid row hRow => ?_⟩
    obtain ⟨row', hRow', hAdvances⟩ := h.db rid row hRow
    obtain ⟨row'', hRow'', hAdvances'⟩ := h'.db rid row' hRow'
    exact ⟨row'', hRow'', hAdvances.trans (hClock h.asked) hAdvances'⟩

/-- A change of the store is judged at the reading of the clock taken for it. -/
theorem onStore_advances {α : Type} {op : Int → Effect Database GrantError α}
    (h : ∀ now, Effect.Along (Database.Advances store now) (op now)) :
    Effect.Along (Desk.Advances store clock) (onStore clock op) := by
  intro d
  rw [onStore_run]
  exact ⟨Nat.le_succ _, h _ d.db⟩

instance (now : Int) : Std.Refl (Database.Advances store now) where
  refl db := .refl db

theorem unchanged_advances {d d' : Desk} (hAsked : d.asked ≤ d'.asked) (hDb : d'.db = d.db) :
    d.Advances store clock d' := by
  refine ⟨hAsked, ?_⟩
  rw [hDb]
  exact .refl d.db

theorem advances_handles (hClock : Monotone clock) :
    Handles store clock (Desk.Advances store clock) (fun _ => True) fun _ => True := by
  have : IsTrans Desk (Desk.Advances store clock) := advances_trans hClock
  refine ⟨parts_of (fun d => unchanged_advances (Nat.le_succ _) rfl) ?_ ?_ ?_ ?_, ?_⟩
  · exact fun f hDb hAsked _ d => unchanged_advances (le_of_eq (hAsked d).symm) (hDb d)
  · exact fun rid _ _ _ => onStore_advances fun now => approve_along fun _ _ _ h => h.advances
  · exact fun rid => onStore_advances fun now => reject_along fun _ _ _ h => h.advances
  · exact fun rid => onStore_advances fun now => revoke_along fun _ _ _ h => h.advances
  · exact fun f hDb hAsked _ d => unchanged_advances (le_of_eq (hAsked d).symm) (hDb d)

end AccessBroker.MatrixBot

namespace AccessBroker.System
open Py Grants MatrixBot Server
set_option autoImplicit false

variable {w : Wiring} {env : Nextcloud.Environment}

/-! ## One stretch -/

theorem advances_follows (hClock : Monotone env.clock) :
    Follows w env (Desk.Advances w.layer.store env.clock) (fun _ => True) fun _ => True where
  handles := advances_handles hClock
  create now instanceName reason items _ :=
    ⟨le_refl _, (createRequest_extends now instanceName reason items _).advances⟩
  record eventId rid _ := ⟨le_refl _, (recordPosted_extends eventId rid _).advances⟩
  asked _ _ hAsked := unchanged_advances hAsked rfl
  restart _ := ⟨le_refl _, Change.advances .restarted⟩

theorem run_advances (hClock : Monotone env.clock) (s : Broker) (acts : List Act) :
    s.desk.Advances w.layer.store env.clock (Machine.run (Broker.step w env) s acts).desk := by
  have : IsTrans Desk (Desk.Advances w.layer.store env.clock) := advances_trans hClock
  exact Machine.run_relation (R := fun s s' : Broker => s.desk.Advances w.layer.store env.clock s'.desk)
    (fun s => Std.Refl.refl s.desk) (fun s t u h h' => IsTrans.trans s.desk t.desk u.desk h h')
    (fun s act => s.step_follows act (advances_follows hClock) (fun _ _ => trivial) fun _ _ => trivial)
    s acts

/-- What is active now was active at every earlier state that knows the number as decided. -/
theorem active_earlier (hClock : Monotone env.clock) {s : Broker} {acts : List Act}
    {r : GrantRecord} {row : Row}
    (hActive : r ∈ (Machine.run (Broker.step w env) s acts).active w env)
    (hRow : s.desk.db.grants.get? r.id = some row)
    (hDecided : effectiveState w.layer.store (env.clock s.desk.asked) row ≠ .pending) :
    r ∈ s.active w env := by
  have hRun := run_advances (w := w) hClock s acts
  obtain ⟨row', expiry, hRow', hStored, hExpiry, hBefore, _, hRecord⟩ := mem_activeGrants.mp hActive
  have hNow := hClock hRun.asked
  obtain ⟨later, hLater, hAdvances⟩ := hRun.db r.id row hRow
  rw [hRow'] at hLater
  cases hLater
  rcases hAdvances with rfl | ⟨_, hOpen⟩
  · have hEarlier : env.clock s.desk.asked < expiry := by omega
    exact mem_activeGrants.mpr ⟨row', expiry, hRow, hStored, hExpiry, hEarlier, by simp,
      hRecord.trans (toRecord_active hStored hExpiry hBefore hEarlier)⟩
  · exact absurd (hOpen hStored) hDecided

theorem row_of_active {s : Broker} {r : GrantRecord} (h : r ∈ s.active w env) :
    ∃ row, s.desk.db.grants.get? r.id = some row ∧
      effectiveState w.layer.store (env.clock s.desk.asked) row = .active ∧
      r = toRecord w.layer.store (env.clock s.desk.asked) r.id row := by
  obtain ⟨row, expiry, hRow, hStored, hExpiry, hBefore, _, hRecord⟩ := mem_activeGrants.mp h
  exact ⟨row, hRow, effectiveState_eq_active.mpr ⟨hStored, expiry, hExpiry, hBefore⟩, hRecord⟩

/-- A number that was active is decided in every later state. -/
theorem decided_of_active (hClock : Monotone env.clock) {s : Broker} {r : GrantRecord}
    (h : r ∈ s.active w env) (acts : List Act) :
    ∃ row, (Machine.run (Broker.step w env) s acts).desk.db.grants.get? r.id = some row ∧
      row.state ≠ .pending := by
  obtain ⟨row, hRow, hLive, _⟩ := row_of_active h
  have hStored := (effectiveState_eq_active.mp hLive).1
  obtain ⟨row', hRow', hAdvances⟩ := (run_advances (w := w) hClock s acts).db r.id row hRow
  refine ⟨row', hRow', fun hPending => ?_⟩
  rcases hAdvances with rfl | ⟨hRank, _⟩
  · rw [hStored] at hPending
    cases hPending
  · rw [hPending, hStored] at hRank
    simp [State.rank] at hRank

theorem active_within (hClock : Monotone env.clock) {s : Broker} (pre post : List Act)
    {r r' : GrantRecord} (h : r ∈ s.active w env)
    (hLater : r' ∈ (Machine.run (Broker.step w env) s (pre ++ post)).active w env)
    (hId : r'.id = r.id) : r' ∈ (Machine.run (Broker.step w env) s pre).active w env := by
  obtain ⟨row, hRow, hDecided⟩ := decided_of_active hClock h pre
  rw [Machine.run_append] at hLater
  refine active_earlier hClock hLater (hId ▸ hRow) fun hPending => ?_
  exact hDecided (effectiveState_eq_pending.mp hPending).1

/-- A number that is decided and not active is never active again. A grant that is active at
two states of a run is the same grant, and active in between. -/
theorem active_once (w : Wiring) (env : Nextcloud.Environment) (hClock : Monotone env.clock)
    (s : Broker) (acts : List Act) :
    (∀ rid row, s.desk.db.grants.get? rid = some row →
      effectiveState w.layer.store (env.clock s.desk.asked) row ∉ [.pending, .active] →
      ∀ r ∈ (Machine.run (Broker.step w env) s acts).active w env, r.id ≠ rid) ∧
    ∀ r ∈ s.active w env, ∀ r' ∈ (Machine.run (Broker.step w env) s acts).active w env,
      r'.id = r.id → r' = r ∧
        Machine.EveryState (Broker.step w env) (fun s' => r ∈ s'.active w env) s acts := by
  constructor
  · rintro _ row hRow hClosed r hActive rfl
    have hNow := active_earlier hClock hActive hRow fun hPending => hClosed (by simp [hPending])
    obtain ⟨row', hRow', hLive, _⟩ := row_of_active hNow
    rw [hRow] at hRow'
    cases hRow'
    exact hClosed (by simp [hLive])
  · intro r hActive r' hActive' hId
    have hNow : r' ∈ s.active w env := active_within hClock [] acts hActive hActive' hId
    have hSame : r' = r := by
      obtain ⟨row, hRow, _, hRecord⟩ := row_of_active hActive
      obtain ⟨row', hRow', _, hRecord'⟩ := row_of_active hNow
      rw [hId, hRow] at hRow'
      cases hRow'
      rw [hId] at hRecord'
      exact hRecord'.trans hRecord.symm
    subst hSame
    refine ⟨rfl, ?_⟩
    rintro pre post rfl
    exact active_within hClock pre post hActive hActive' rfl

theorem active_once_restarted :
    let s := Machine.run (Broker.step smallWiring smallEnvironment) Broker.start approvedRequest
    (∀ rid row, s.desk.db.grants.get? rid = some row →
      effectiveState smallWiring.layer.store (smallEnvironment.clock s.desk.asked) row ∉
        [.pending, .active] →
      ∀ r ∈ (Machine.run (Broker.step smallWiring smallEnvironment) s [.restart]).active smallWiring
        smallEnvironment, r.id ≠ rid) ∧
    ∀ r ∈ s.active smallWiring smallEnvironment,
      ∀ r' ∈ (Machine.run (Broker.step smallWiring smallEnvironment) s [.restart]).active smallWiring
        smallEnvironment, r'.id = r.id → r' = r ∧
          Machine.EveryState (Broker.step smallWiring smallEnvironment)
            (fun s' => r ∈ s'.active smallWiring smallEnvironment) s [.restart] :=
  active_once smallWiring smallEnvironment (fun _ _ h => Int.ofNat_le.mpr h) _ [.restart]

end AccessBroker.System
