import AccessBroker.Grants.Filing
import AccessBroker.MatrixBot.Windows
import AccessBroker.Paths.FixedPoints

/-! # What an undo brings back

A window holds what its row holds, with the paths as they were stored. An undo hands them to
`create_request`, which normalizes them once more: it brings back the same request exactly if
that changes none of them.
-/

namespace AccessBroker.Grants
open Py Paths
set_option autoImplicit false

/-- The items are taken as they are exactly if each of them is. -/
theorem cleanItems_raw_same {items : List Item} (h : ∀ item ∈ items, item.Accepted) :
    cleanItems (items.map Item.raw) = .ok items ↔ ∀ item ∈ items, Stable item.path := by
  constructor
  · intro hClean item hItem
    have hMap := cleanItems_map hClean
    rw [List.map_map] at hMap
    obtain ⟨_, hFixed, _⟩ := cleanItem_raw_ok (List.map_inj_left.mp hMap item hItem)
    obtain ⟨raw, hRaw⟩ := (h item hItem).path
    exact (normalizePath_fixed_iff hRaw).mp hFixed
  · intro hStable
    induction items with
    | nil => rfl
    | cons item rest ih =>
      obtain ⟨hFirst, hRest⟩ := List.forall_mem_cons.mp h
      obtain ⟨hItem, hOthers⟩ := List.forall_mem_cons.mp hStable
      obtain ⟨raw, hRaw⟩ := hFirst.path
      rw [List.map_cons, cleanItems, cleanItem_raw hFirst.mode,
        (normalizePath_fixed_iff hRaw).mpr hItem, ih hRest hOthers]
      rfl

end AccessBroker.Grants

namespace AccessBroker.MatrixBot
open Py Paths Grants
set_option autoImplicit false

variable {store : Settings} {clock : Nat → Int}

/-! ## Stored rows -/

def Desk.StaysFiled (store : Settings) (d d' : Desk) : Prop :=
  d.db.Filed store → d'.db.Filed store

instance : Std.Refl (Desk.StaysFiled store) where
  refl _ := id

instance : IsTrans Desk (Desk.StaysFiled store) where
  trans _ _ _ h h' := h' ∘ h

theorem onDatabase_filed {α : Type} {op : Effect Database GrantError α}
    (h : ∀ db, db.Filed store → (op.run db).2.Filed store) :
    Effect.Along (Desk.StaysFiled store) (onDatabase op) := fun d => h d.db

theorem filed_conforms : Conforms store clock (Desk.StaysFiled store) fun _ => True where
  clock _ := id
  memory f hDb _ d := by
    rw [Desk.StaysFiled, Effect.modify_run, hDb]
    exact id
  approve now rid expiry itemNumbers _ := by
    apply onDatabase_filed
    intro db hFiled
    rcases approve_cases store now rid expiry itemNumbers db with
      ⟨e, hRun⟩ | ⟨record, db', hChange, hRun⟩ <;> rw [hRun]
    · exact hFiled
    · exact hChange.filed (fun _ _ _ h => by cases h) hFiled
  reject now rid := by
    apply onDatabase_filed
    intro db hFiled
    rcases reject_cases store now rid db with ⟨e, hRun⟩ | ⟨record, db', hChange, hRun⟩ <;> rw [hRun]
    · exact hFiled
    · exact hChange.filed (fun _ _ _ h => by cases h) hFiled
  revoke now rid := by
    apply onDatabase_filed
    intro db hFiled
    rcases revoke_cases store now rid db with ⟨e, hRun⟩ | ⟨record, db', hChange, hRun⟩ <;> rw [hRun]
    · exact hFiled
    · exact hChange.filed (fun _ _ _ h => by cases h) hFiled

/-! ## The undo -/

/-- One row was stored, pending and with what `row` has, and nothing else changed. -/
def Restores (row : Row) (db db' : Database) : Prop :=
  ∃ new, new.state = .pending ∧ new.instanceName = row.instanceName ∧ new.reason = row.reason ∧
    new.items = row.items ∧ db' = db.putGrants (db.grants.insert new)

theorem not_restores_same {row : Row} {db : Database} : ¬ Restores row db db := by
  rintro ⟨new, _, _, _, _, hSame⟩
  have hNext : db.grants.next = db.grants.next + 1 := congrArg (fun db => db.grants.next) hSame
  omega

theorem insert_injective {db : Database} {row row' : Row}
    (h : db.putGrants (db.grants.insert row) = db.putGrants (db.grants.insert row')) : row = row' := by
  have hGet := congrArg (fun db' => db'.grants.get? db.grants.next) h
  simp only [Database.putGrants_grants, AutoTable.get?_insert, if_pos] at hGet
  exact Option.some.inj hGet

/-- Of what a filed row holds, `create_request` looks at the items only. -/
theorem acceptable_of_clean {window : UndoWindow} {row : Row} {clean : List Item}
    (hHolds : window.Holds row) (hFiled : row.Filed store)
    (hClean : cleanItems (window.items.map Item.raw) = .ok clean) : window.Acceptable store where
  reason := by
    rw [hHolds.reason]
    exact hFiled.reason
  items := by
    rw [hHolds.items]
    exact hFiled.nonempty
  allowed := by
    rw [hHolds.instanceName]
    exact hFiled.allowed
  clean := cleanItems_raw_valid hClean

/-- The undo of an open window brings its row back exactly if the paths of the row are stable. -/
theorem undo_restores {d : Desk} {rid : Nat} {window : UndoWindow} {row : Row}
    (hOpen : d.WindowOpen clock rid window) (hHolds : window.Holds row) (hFiled : row.Filed store) :
    Restores row d.db ((undo store clock rid).run d).2.db ↔ ∀ item ∈ row.items, Stable item.path := by
  rw [undo_open hOpen, ← cleanItems_raw_same hFiled.items, ← hHolds.items]
  by_cases hAccepted : window.Acceptable store
  · obtain ⟨clean, hClean, hRun⟩ := @recreate_accepted store clock window hAccepted (d.closed rid)
    rw [hRun, hClean]
    constructor
    · rintro ⟨new, _, _, _, hItems, hStored⟩
      cases insert_injective hStored
      rw [hHolds.items]
      exact congrArg Except.ok hItems
    · intro hSame
      cases hSame
      refine ⟨_, rfl, hHolds.instanceName, ?_, hHolds.items, rfl⟩
      change strip window.reason = row.reason
      rw [hHolds.reason, hFiled.stripped]
  · obtain ⟨cause, hRun⟩ := @recreate_refused store clock window hAccepted (d.closed rid)
    rw [hRun]
    refine iff_of_false not_restores_same fun hClean => hAccepted ?_
    exact acceptable_of_clean hHolds hFiled hClean

end AccessBroker.MatrixBot
