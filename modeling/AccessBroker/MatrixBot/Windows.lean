import AccessBroker.MatrixBot.Following
import AccessBroker.MatrixBot.Undoing

/-! # Undo windows

A window is armed in the step that rejects or revokes its number, holds what the row
holds, and closes 15 seconds after the clock was read for it. What is rejected or revoked
stays as it is, so no number is armed twice.
-/

namespace AccessBroker.Grants
open Py
set_option autoImplicit false

def Row.Decided (row : Row) : Prop := row.state = .rejected ∨ row.state = .revoked

/-- No rejected or revoked row was changed, and no number was given back. -/
structure Database.KeepsDecided (db db' : Database) : Prop where
  row : ∀ rid row, db.grants.get? rid = some row → row.Decided → db'.grants.get? rid = some row
  next : db.grants.next ≤ db'.grants.next

instance : Std.Refl Database.KeepsDecided where
  refl _ := ⟨fun _ _ hRow _ => hRow, le_refl _⟩

instance : IsTrans Database Database.KeepsDecided where
  trans _ _ _ h h' := by
    refine ⟨fun rid row hRow hDecided => ?_, h.next.trans h'.next⟩
    exact h'.row rid row (h.row rid row hRow hDecided) hDecided

variable {cfg : Settings} {now : Int}

theorem Row.Decided.not_pending {row : Row} (h : row.Decided) :
    effectiveState cfg now row ≠ .pending := by
  intro hPending
  have hState := (effectiveState_eq_pending.mp hPending).1
  rcases h with h | h <;> rw [hState] at h <;> cases h

theorem Row.Decided.not_active {row : Row} (h : row.Decided) :
    effectiveState cfg now row ≠ .active := by
  intro hActive
  have hState := (effectiveState_eq_active.mp hActive).1
  rcases h with h | h <;> rw [hState] at h <;> cases h

/-- A row that is decided is not the one that is modified. -/
theorem Database.keepsDecided_modify {db : Database} {rid : Nat} {row : Row} {f : Row → Row}
    (hRow : db.grants.get? rid = some row) (h : ¬ row.Decided) :
    db.KeepsDecided (db.putGrants (db.grants.modify rid f)) := by
  refine ⟨fun other row' hOther hDecided => ?_, le_refl _⟩
  rw [Database.putGrants_grants, AutoTable.get?_modify, if_neg, hOther]
  rintro rfl
  rw [hRow] at hOther
  cases hOther
  exact h hDecided

theorem Change.keepsDecided {db db' : Database} {op : Operation} {result : Option GrantRecord}
    (h : Change cfg now db op result db') : db.KeepsDecided db' := by
  cases h with
  | created allowed cleaned nonempty =>
    refine ⟨fun rid row hRow _ => ?_, Nat.le_succ _⟩
    rw [Database.putGrants_grants, AutoTable.get?_insert,
      if_neg (Nat.ne_of_lt (AutoTable.get?_lt hRow))]
    exact hRow
  | approved found open_ _ _ _ => exact Database.keepsDecided_modify found fun h => h.not_pending open_
  | emptied found open_ => exact Database.keepsDecided_modify found fun h => h.not_pending open_
  | rejected found open_ => exact Database.keepsDecided_modify found fun h => h.not_pending open_
  | withdrawn found open_ => exact Database.keepsDecided_modify found fun h => h.not_pending open_
  | revoked found live => exact Database.keepsDecided_modify found fun h => h.not_active live
  | posted fresh => exact ⟨fun _ _ hRow _ => hRow, le_refl _⟩
  | restarted =>
    refine ⟨fun rid row hRow hDecided => ?_, le_refl _⟩
    rw [restartDiscardPending, AutoTable.get?_update, hRow, Option.map_some, Row.discard, if_neg]
    rcases hDecided with h | h <;> rw [h] <;> decide

theorem modify_decides {db : Database} {rid : Nat} {row : Row} {f : Row → Row}
    (hRow : db.grants.get? rid = some row) (hBefore : ¬ row.Decided) (hAfter : (f row).Decided) :
    (∀ row, db.grants.get? rid = some row → ¬ row.Decided) ∧
      ∃ row, (db.putGrants (db.grants.modify rid f)).grants.get? rid = some row ∧ row.Decided := by
  constructor
  · intro row' hRow'
    rw [hRow] at hRow'
    cases hRow'
    exact hBefore
  · refine ⟨f row, ?_, hAfter⟩
    rw [Database.putGrants_grants, AutoTable.get?_modify, if_pos rfl, hRow]
    rfl

/-- A rejection or a revocation that succeeds finds its number undecided and decides it. -/
theorem Change.decides {db db' : Database} {op : Operation} {result : Option GrantRecord}
    {rid : Nat} (h : Change cfg now db op result db') (hOp : op = .reject rid ∨ op = .revoke rid) :
    (∀ row, db.grants.get? rid = some row → ¬ row.Decided) ∧
      ∃ row, db'.grants.get? rid = some row ∧ row.Decided := by
  cases h with
  | created _ _ _ | approved _ _ _ _ _ | emptied _ _ | posted _ | restarted =>
    rcases hOp with hOp | hOp <;> cases hOp
  | rejected found open_ =>
    rcases hOp with hOp | hOp <;> cases hOp
    exact modify_decides found (fun h => h.not_pending open_) (.inl rfl)
  | withdrawn found open_ =>
    rcases hOp with hOp | hOp <;> cases hOp
    exact modify_decides found (fun h => h.not_pending open_) (.inl rfl)
  | revoked found live =>
    rcases hOp with hOp | hOp <;> cases hOp
    exact modify_decides found (fun h => h.not_active live) (.inr rfl)

end AccessBroker.Grants

namespace AccessBroker.MatrixBot
open Py Grants Server
set_option autoImplicit false

structure UndoWindow.Holds (window : UndoWindow) (row : Row) : Prop where
  instanceName : window.instanceName = row.instanceName
  reason : window.reason = row.reason
  items : window.items = row.items

/-- The number was rejected or revoked between the two desks, and the window armed for it. -/
structure Armed (clock : Nat → Int) (d d' : Desk) (rid : Nat) (window : UndoWindow) : Prop where
  before : ∀ row, d.db.grants.get? rid = some row → ¬ row.Decided
  after : ∃ row, d'.db.grants.get? rid = some row ∧ row.Decided ∧ window.Holds row
  timed : ∃ k, d.asked ≤ k ∧ k < d'.asked ∧
    window.deadline = clock k + undoGraceSeconds * second

/-- What is decided is kept, and a window was there before or was armed for a number in `drop`. -/
structure Desk.Tracks (clock : Nat → Int) (drop : Nat → Prop) (d d' : Desk) : Prop where
  asked : d.asked ≤ d'.asked
  db : d.db.KeepsDecided d'.db
  windows : ∀ rid window, (rid, window) ∈ d'.undoWindows →
    (rid, window) ∈ d.undoWindows ∨ drop rid ∧ Armed clock d d' rid window

variable {store : Settings} {bot : Bot} {clock : Nat → Int} {drop : Nat → Prop}

instance : Std.Refl (Desk.Tracks clock drop) where
  refl d := ⟨le_refl _, Std.Refl.refl d.db, fun _ _ hWindow => Or.inl hWindow⟩

theorem Armed.later {d d' d'' : Desk} {rid : Nat} {window : UndoWindow}
    (h : Armed clock d d' rid window) (h' : d'.Tracks clock drop d'') :
    Armed clock d d'' rid window := by
  obtain ⟨row, hRow, hDecided, hHolds⟩ := h.after
  obtain ⟨k, hFirst, hLast, hDeadline⟩ := h.timed
  exact ⟨h.before, ⟨row, h'.db.row rid row hRow hDecided, hDecided, hHolds⟩,
    k, hFirst, hLast.trans_le h'.asked, hDeadline⟩

theorem Armed.earlier {d d' d'' : Desk} {rid : Nat} {window : UndoWindow}
    (h : Armed clock d' d'' rid window) (h' : d.Tracks clock drop d') :
    Armed clock d d'' rid window := by
  obtain ⟨k, hFirst, hLast, hDeadline⟩ := h.timed
  refine ⟨fun row hRow hDecided => ?_, h.after, k, h'.asked.trans hFirst, hLast, hDeadline⟩
  exact h.before row (h'.db.row rid row hRow hDecided) hDecided

instance : IsTrans Desk (Desk.Tracks clock drop) where
  trans _ _ _ h h' := by
    refine ⟨h.asked.trans h'.asked, IsTrans.trans _ _ _ h.db h'.db, fun rid window hWindow => ?_⟩
    rcases h'.windows rid window hWindow with hBefore | ⟨hDrop, hArmed⟩
    · exact (h.windows rid window hBefore).imp id fun hArmed => ⟨hArmed.1, hArmed.2.later h'⟩
    · exact Or.inr ⟨hDrop, hArmed.earlier h⟩

/-- Nothing but the rows and the clock. -/
theorem tracks_of_kept {d d' : Desk} (hAsked : d.asked ≤ d'.asked) (hDb : d.db.KeepsDecided d'.db)
    (hWindows : d'.undoWindows = d.undoWindows) : d.Tracks clock drop d' :=
  ⟨hAsked, hDb, fun _ _ hWindow => Or.inl (hWindows ▸ hWindow)⟩

theorem onDatabase_tracks {α : Type} {op : Effect Database GrantError α}
    (h : Effect.Along Database.KeepsDecided op) :
    Effect.Along (Desk.Tracks clock drop) (onDatabase op) :=
  Effect.Along.zoom
    (fun d db hDb => @tracks_of_kept clock drop d { d with db := db } (le_refl _) hDb rfl) h

theorem createRequest_tracks (now : Int) (instanceName : Text) (reason : Option Text)
    (items : List RawItem) :
    Effect.Along (Desk.Tracks clock drop)
      (onDatabase (createRequest store now instanceName reason items)) := by
  apply onDatabase_tracks
  intro db
  rcases createRequest_cases store now instanceName reason items db with
    ⟨e, hRun⟩ | ⟨text, clean, rfl, hAllowed, hClean, hItems, hRun⟩ <;> rw [hRun]
  · exact Std.Refl.refl db
  · exact (Change.created hAllowed hClean hItems).keepsDecided

theorem recordPosted_tracks (eventId : Text) (rid : Nat) :
    Effect.Along (Desk.Tracks clock drop) (onDatabase (recordPosted eventId rid)) := by
  apply onDatabase_tracks
  intro db
  rcases recordPosted_cases eventId rid db with hRun | ⟨_, hRun⟩ <;> rw [hRun]
  · exact Std.Refl.refl db
  · exact ⟨fun _ _ hRow _ => hRow, le_refl _⟩

/-! ## The two ways to arm a window -/

/-- The desk after a decided row was read back, its window armed and the decision reported. -/
def Desk.armed (clock : Nat → Int) (d : Desk) (rid : Nat) (row : Row) : Desk :=
  { d with
    asked := d.asked + 5
    undoWindows :=
      (rid, ⟨clock (d.asked + 1) + undoGraceSeconds * second, row.instanceName, row.reason,
        row.items⟩) :: d.undoWindows.filter (·.1 ≠ rid) }

theorem report_armed {d : Desk} {rid : Nat} {row : Row} {verb : Text}
    (hRow : d.db.grants.get? rid = some row) :
    ((do
      let record ← onStore clock fun now => getRow store now rid
      armUndo clock rid record
      let status ← readStatus store clock
      say (.decision record verb none true status) : Handler Progress).run d).2 =
      d.armed clock rid row := by
  have hGet := onStore_run clock (fun now => getRow store now rid) d
  rw [getRow_run hRow] at hGet
  rw [Effect.bind_ok hGet]
  rfl

theorem armed_tracks {d d' : Desk} {rid : Nat} {row : Row} (hDrop : drop rid)
    (hAsked : d.asked ≤ d'.asked) (hWindows : d'.undoWindows = d.undoWindows)
    (hKept : d.db.KeepsDecided d'.db)
    (hBefore : ∀ row, d.db.grants.get? rid = some row → ¬ row.Decided)
    (hRow : d'.db.grants.get? rid = some row) (hDecided : row.Decided) :
    d.Tracks clock drop (d'.armed clock rid row) := by
  refine ⟨hAsked.trans (Nat.le_add_right _ 5), hKept, fun other window hWindow => ?_⟩
  rcases List.mem_cons.mp hWindow with hNew | hOld
  · cases hNew
    refine Or.inr ⟨hDrop, hBefore, ⟨row, hRow, hDecided, rfl, rfl, rfl⟩, d'.asked + 1, ?_, ?_, rfl⟩
    · exact hAsked.trans (Nat.le_succ _)
    · change d'.asked + 1 < d'.asked + 5
      omega
  · exact Or.inl (hWindows ▸ (List.mem_filter.mp hOld).1)

theorem rejectRequest_tracks {rid : Nat} (hDrop : drop rid) :
    Effect.Along (Desk.Tracks clock drop) (rejectRequest store clock rid) := by
  intro d
  have hReject := onStore_run clock (fun now => reject store now rid) d
  rcases reject_cases store (clock d.asked) rid d.db with
    ⟨e, hRun⟩ | ⟨record, db, hChange, hRun⟩ <;> rw [hRun] at hReject
  · rw [rejectRequest, Effect.bind_error hReject]
    exact tracks_of_kept (Nat.le_succ _) (Std.Refl.refl _) rfl
  · obtain ⟨hBefore, row, hRow, hDecided⟩ := hChange.decides (.inl rfl)
    rw [rejectRequest, Effect.bind_ok hReject, report_armed hRow]
    exact armed_tracks hDrop (Nat.le_succ _) rfl hChange.keepsDecided hBefore hRow hDecided

theorem revokeRequest_tracks {rid : Nat} (hDrop : drop rid) :
    Effect.Along (Desk.Tracks clock drop) (revokeRequest store clock rid) := by
  intro d
  have hRevoke := onStore_run clock (fun now => revoke store now rid) d
  rcases revoke_cases store (clock d.asked) rid d.db with
    ⟨e, hRun⟩ | ⟨record, db, hChange, hRun⟩ <;> rw [hRun] at hRevoke
  · rw [revokeRequest, Effect.bind_ok (Effect.attempt_run hRevoke)]
    have hSame : d.Tracks clock drop { d with asked := d.asked + 1 } :=
      tracks_of_kept (Nat.le_succ _) (Std.Refl.refl _) rfl
    dsimp only [Except.mapError]
    split
    · exact hSame
    · exact hSame
  · obtain ⟨hBefore, row, hRow, hDecided⟩ := hChange.decides (.inr rfl)
    rw [revokeRequest, Effect.bind_ok (Effect.attempt_run hRevoke)]
    dsimp only [Except.mapError]
    rw [report_armed hRow]
    exact armed_tracks hDrop (Nat.le_succ _) rfl hChange.keepsDecided hBefore hRow hDecided

theorem tracks_clock : Effect.Along (Desk.Tracks clock drop) (readClock clock) :=
  fun d => tracks_of_kept (Nat.le_succ _) (Std.Refl.refl d.db) rfl

theorem tracks_handles : Handles store clock (Desk.Tracks clock drop) (fun _ => True) drop where
  rejectRequest _ hDrop := rejectRequest_tracks hDrop
  revokeRequest _ hDrop := revokeRequest_tracks hDrop
  clock := tracks_clock
  memory f hDb hAsked hWindows d := by
    refine tracks_of_kept (le_of_eq (hAsked d).symm) ?_ (hWindows d)
    rw [Effect.modify_run, hDb]
    exact Std.Refl.refl d.db
  close rid d := ⟨le_refl _, Std.Refl.refl d.db, fun _ _ hWindow =>
    Or.inl (List.mem_filter.mp hWindow).1⟩
  approve _ _ _ _ := .bind tracks_clock fun _ =>
    onDatabase_tracks <| approve_along fun _ _ _ h => h.keepsDecided
  reject _ := .bind tracks_clock fun _ =>
    onDatabase_tracks <| reject_along fun _ _ _ h => h.keepsDecided
  revoke _ := .bind tracks_clock fun _ =>
    onDatabase_tracks <| revoke_along fun _ _ _ h => h.keepsDecided

/-! ## What stays so -/

/-- Every window is one of a decided number and holds what its row holds. -/
def Desk.Held (d : Desk) : Prop :=
  ∀ rid window, (rid, window) ∈ d.undoWindows →
    ∃ row, d.db.grants.get? rid = some row ∧ row.Decided ∧ window.Holds row

theorem Desk.Held.tracks {d d' : Desk} (h : d.Held) (hTracks : d.Tracks clock drop d') :
    d'.Held := by
  intro rid window hWindow
  rcases hTracks.windows rid window hWindow with hOld | ⟨_, hArmed⟩
  · obtain ⟨row, hRow, hDecided, hHolds⟩ := h rid window hOld
    exact ⟨row, hTracks.db.row rid row hRow hDecided, hDecided, hHolds⟩
  · exact hArmed.after

structure Desk.Spent (d : Desk) (rid : Nat) : Prop where
  row : ∃ row, d.db.grants.get? rid = some row ∧ row.Decided
  window : ∀ window, (rid, window) ∉ d.undoWindows

theorem Desk.Spent.tracks {d d' : Desk} {rid : Nat} (h : d.Spent rid)
    (hTracks : d.Tracks clock drop d') : d'.Spent rid := by
  obtain ⟨row, hRow, hDecided⟩ := h.row
  refine ⟨⟨row, hTracks.db.row rid row hRow hDecided, hDecided⟩, fun window hWindow => ?_⟩
  rcases hTracks.windows rid window hWindow with hOld | ⟨_, hArmed⟩
  · exact h.window window hOld
  · exact hArmed.before row hRow hDecided

theorem mem_of_windowOpen {d : Desk} {rid : Nat} {window : UndoWindow}
    (h : d.WindowOpen clock rid window) : (rid, window) ∈ d.undoWindows := by
  obtain ⟨before, after, hWindows, _⟩ := List.lookup_eq_some_iff.mp h.1
  rw [hWindows]
  exact List.mem_append_right before List.mem_cons_self

/-- Closing a window spends its number. -/
theorem Desk.Held.closed {d d' : Desk} {rid : Nat} {window : UndoWindow} (h : d.Held)
    (hOpen : d.WindowOpen clock rid window) (hTracks : d.Tracks clock drop d')
    (hWindows : d'.undoWindows = (d.closed rid).undoWindows) : d'.Spent rid := by
  obtain ⟨row, hRow, hDecided, _⟩ := h rid window (mem_of_windowOpen hOpen)
  refine ⟨⟨row, hTracks.db.row rid row hRow hDecided, hDecided⟩, fun other hOther => ?_⟩
  rw [hWindows] at hOther
  exact (of_decide_eq_true (List.mem_filter.mp hOther).2) rfl

end AccessBroker.MatrixBot
