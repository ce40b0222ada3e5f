import AccessBroker.MatrixBot.Revoking

/-! # What the handlers spare

Rows that are stored as active change in no handler but in a revocation. A relation that spares
the rows it does not name is followed by the store's operations, and so by the handlers.
-/

namespace AccessBroker.Grants
open Py
set_option autoImplicit false

variable {cfg : Settings} {now : Int}

/-- Every row is still there. -/
def Database.Extends (db db' : Database) : Prop :=
  ∀ rid row, db.grants.get? rid = some row → db'.grants.get? rid = some row

theorem Database.extends_insert (db : Database) (row : Row) :
    db.Extends (db.putGrants (db.grants.insert row)) := by
  intro rid old hOld
  rw [Database.putGrants_grants, AutoTable.get?_insert,
    if_neg (Nat.ne_of_lt (AutoTable.get?_lt hOld))]
  exact hOld

theorem createRequest_extends (now : Int) (instanceName : Text) (reason : Option Text)
    (items : List RawItem) (db : Database) :
    db.Extends ((createRequest cfg now instanceName reason items).run db).2 := by
  rcases createRequest_cases cfg now instanceName reason items db with
    ⟨e, hRun⟩ | ⟨text, clean, _, _, _, _, hRun⟩ <;> rw [hRun]
  · exact fun _ _ hRow => hRow
  · exact db.extends_insert _

theorem recordPosted_extends (eventId : Text) (rid : Nat) (db : Database) :
    db.Extends ((recordPosted eventId rid).run db).2 := by
  rcases recordPosted_cases eventId rid db with hRun | ⟨_, hRun⟩ <;> rw [hRun]
  · exact fun _ _ hRow => hRow
  · exact fun _ _ hRow => hRow

/-- The rows that are stored as active stay, but for those in `lost`. -/
def Database.Spares (lost : Nat → Row → Prop) (db db' : Database) : Prop :=
  ∀ rid row, db.grants.get? rid = some row → row.state = .active →
    lost rid row ∨ db'.grants.get? rid = some row

variable {lost : Nat → Row → Prop}

theorem Database.Extends.spares {db db' : Database} (h : db.Extends db') : db.Spares lost db' :=
  fun rid row hRow _ => Or.inr (h rid row hRow)

theorem Database.spares_modify {db : Database} {rid : Nat} {row : Row} {f : Row → Row}
    (hRow : db.grants.get? rid = some row) (h : row.state = .active → lost rid row) :
    db.Spares lost (db.putGrants (db.grants.modify rid f)) := by
  intro other old hOld hActive
  rw [Database.putGrants_grants, AutoTable.get?_modify]
  split
  · rename_i hEq
    subst hEq
    rw [hRow] at hOld
    cases hOld
    exact Or.inl (h hActive)
  · exact Or.inr hOld

theorem Change.spares {db db' : Database} {op : Operation} {result : Option GrantRecord}
    (h : Change cfg now db op result db') (hLost : ∀ rid row, op = .revoke rid → lost rid row) :
    db.Spares lost db' := by
  have hPending {rid : Nat} {row : Row} {f : Row → Row} (hRow : db.grants.get? rid = some row)
      (hOpen : effectiveState cfg now row = .pending) :
      db.Spares lost (db.putGrants (db.grants.modify rid f)) := by
    apply Database.spares_modify hRow
    intro hActive
    rw [(effectiveState_eq_pending.mp hOpen).1] at hActive
    cases hActive
  cases h with
  | created _ _ _ => exact (db.extends_insert _).spares
  | approved hRow hOpen _ _ _ => exact hPending hRow hOpen
  | emptied hRow hOpen => exact hPending hRow hOpen
  | rejected hRow hOpen => exact hPending hRow hOpen
  | withdrawn hRow hOpen => exact hPending hRow hOpen
  | revoked hRow _ => exact Database.spares_modify hRow fun _ => hLost _ _ rfl
  | posted _ => exact Database.Extends.spares fun _ _ hRow => hRow
  | restarted =>
    intro rid row hRow hActive
    refine Or.inr ?_
    rw [restartDiscardPending, AutoTable.get?_update, hRow, Option.map_some, Row.discard, if_neg]
    rw [hActive]
    simp

instance : Std.Refl (Database.Spares lost) where
  refl _ := Database.Extends.spares fun _ _ hRow => hRow

instance : IsTrans Database (Database.Spares lost) where
  trans _ _ _ h h' rid row hRow hActive := (h rid row hRow hActive).elim Or.inl
    fun hKept => h' rid row hKept hActive

end AccessBroker.Grants

namespace AccessBroker.MatrixBot
open Py Grants Server
set_option autoImplicit false

variable {store : Settings} {bot : Bot} {clock : Nat → Int} {lost : Nat → Row → Prop}

abbrev Desk.Spares (lost : Nat → Row → Prop) : Desk → Desk → Prop :=
  InvImage (Database.Spares lost) Desk.db

instance : Std.Refl (Desk.Spares lost) where
  refl d := Std.Refl.refl d.db

instance : IsTrans Desk (Desk.Spares lost) where
  trans _ _ _ h h' := IsTrans.trans _ _ _ h h'

theorem spares_of_db {d d' : Desk} (h : d'.db = d.db) : d.Spares lost d' := by
  rw [Desk.Spares, InvImage, h]
  exact Std.Refl.refl d.db

theorem clock_spares : Effect.Along (Desk.Spares lost) (readClock clock) := fun _ => spares_of_db rfl

theorem memory_spares {f : Desk → Desk} (h : ∀ d, (f d).db = d.db) :
    Effect.Along (Desk.Spares lost) (Effect.modify f : Handler Unit) := fun d => spares_of_db (h d)

theorem onStore_spares {α : Type} {op : Int → Effect Database GrantError α}
    (h : ∀ now, Effect.Along (Database.Spares lost) (op now)) :
    Effect.Along (Desk.Spares lost) (onStore clock op) := fun d => h _ d.db

theorem approve_spares (rid : Nat) (expiry : Option Text)
    (itemNumbers : Option (List (Option Int))) :
    Effect.Along (Desk.Spares lost)
      (onStore clock fun now => approve store now rid expiry itemNumbers) :=
  onStore_spares fun _ => approve_along fun _ _ _ h => h.spares nofun

theorem reject_spares (rid : Nat) :
    Effect.Along (Desk.Spares lost) (onStore clock fun now => reject store now rid) :=
  onStore_spares fun _ => reject_along fun _ _ _ h => h.spares nofun

theorem revoke_spares {rid : Nat} (hLost : ∀ row, lost rid row) :
    Effect.Along (Desk.Spares lost) (onStore clock fun now => revoke store now rid) :=
  onStore_spares fun _ => revoke_along fun _ _ _ h => h.spares fun _ row hRevoke => by
    cases hRevoke
    exact hLost row

theorem readStore_spares {α : Type} (view : Int → Database → α) :
    Effect.Along (Desk.Spares lost) (readStore clock view) :=
  .bind clock_spares fun _ => .bind .get fun _ => .pure _

theorem readStatus_spares : Effect.Along (Desk.Spares lost) (readStatus store clock) :=
  .bind (readStore_spares _) fun _ => .bind (readStore_spares _) fun _ =>
    .bind clock_spares fun _ => .pure _

/-- What `_decide` and `_revoke` do once a number has been rejected or revoked. -/
theorem report_spares (rid : Nat) (verb : Text) :
    Effect.Along (Desk.Spares lost) (do
      let record ← onStore clock fun now => getRow store now rid
      armUndo clock rid record
      let status ← readStatus store clock
      say (.decision record verb none true status)) :=
  .bind (.bind clock_spares fun now => getRow_along now rid) fun _ =>
    .bind (.bind clock_spares fun _ => memory_spares fun _ => rfl) fun _ =>
      .bind readStatus_spares fun _ => say_along _

theorem decideRequest_spares (rid : Nat) (action : Text) (itemNumbers : Option (List Nat))
    (expiry : Option Text) :
    Effect.Along (Desk.Spares lost) (decideRequest store clock rid action itemNumbers expiry) := by
  refine .handle ?_ (reportRefused_along rid)
  split
  · exact .bind (approve_spares _ _ _) fun _ => .bind readStatus_spares fun _ => say_along _
  · exact .bind (reject_spares _) fun _ => report_spares rid _

theorem revokeRequest_spares {rid : Nat} (hLost : ∀ row, lost rid row) :
    Effect.Along (Desk.Spares lost) (revokeRequest store clock rid) := by
  refine .bind (.attempt (revoke_spares hLost)) fun result => ?_
  split
  · split
    · exact say_along _
    · exact .raise _
  · exact .raise _
  · exact report_spares rid _

theorem postSummary_spares : Effect.Along (Desk.Spares lost) (postSummary store clock) :=
  .bind readStatus_spares fun _ => say_along _

theorem create_spares (instanceName : Text) (reason : Option Text) (items : List RawItem) :
    Effect.Along (Desk.Spares lost)
      (onStore clock fun now => createRequest store now instanceName reason items) :=
  onStore_spares fun now db => (createRequest_extends now instanceName reason items db).spares

theorem undo_spares (rid : Nat) : Effect.Along (Desk.Spares lost) (undo store clock rid) := by
  refine .bind .get fun d => ?_
  split
  · exact say_along _
  · refine .bind clock_spares fun now => .bind (memory_spares fun _ => rfl) fun _ => ?_
    split
    · exact say_along _
    · exact .bind (create_spares _ _ _) fun _ => .pure _

/-- A mass revocation spares the other instances. -/
theorem revokeMany_spares (hClock : Monotone clock) {target : Option Text}
    (hLost : ∀ rid row, (∀ name, target = some name → row.instanceName = name) → lost rid row) :
    Effect.Along (Desk.Spares lost) (revokeMany store clock target) := by
  intro d rid row hRow _
  obtain ⟨ids, message, d', hRun, hRevoked⟩ :
      ∃ ids message d', (revokeMany store clock target).run d = (.ok (.awaits (.sending message)), d') ∧
        RevokedMany store clock target d d' ids message := revokeMany_run hClock target d
  rw [hRun]
  by_cases hTarget : ∀ name, target = some name → row.instanceName = name
  · exact Or.inl (hLost rid row hTarget)
  · push Not at hTarget
    exact Or.inr (hRevoked.confined rid row hRow (Or.inl hTarget))

/-- The approver's message takes away only what it revokes: the number it names, everything, or
what is on the instance it names. -/
theorem handleReply_spares (hClock : Monotone clock) (sender text : Text)
    (hLost : ∀ rid row, sender = bot.approver →
      ((∃ action itemNumbers expiry, action ≠ "approve".toList ∧ action ≠ "reject".toList ∧
        parseReply text = .ok (some (.decision action rid itemNumbers expiry))) ∨
      parseReply text = .ok (some .revokeAll) ∨
      parseReply text = .ok (some (.revokeInstance row.instanceName))) → lost rid row) :
    Effect.Along (Desk.Spares lost) (handleReply store bot clock sender text) := by
  rw [handleReply]
  split
  · exact .pure _
  rename_i hSender
  have hSender : sender = bot.approver := not_not.mp hSender
  split
  · exact .raise _
  · exact teach_along text
  · exact postSummary_spares
  · rename_i hParsed
    exact revokeMany_spares hClock fun rid row _ => hLost rid row hSender (Or.inr (Or.inl hParsed))
  · rename_i name hParsed
    refine revokeMany_spares hClock fun rid row hName => hLost rid row hSender ?_
    rw [hName name rfl]
    exact Or.inr (Or.inr hParsed)
  · exact undo_spares _
  · rename_i action rid itemNumbers expiry hParsed
    refine .bind (readStore_spares _) fun known => ?_
    split
    · exact say_along _
    split
    · exact decideRequest_spares rid _ _ _
    rename_i hApprove
    split
    · exact decideRequest_spares rid _ _ _
    · rename_i hReject
      exact revokeRequest_spares fun row => hLost rid row hSender
        (Or.inl ⟨action, itemNumbers, expiry, hApprove, hReject, hParsed⟩)

end AccessBroker.MatrixBot
