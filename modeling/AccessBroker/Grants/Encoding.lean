import AccessBroker.Grants.Columns
import AccessBroker.Library.Json.Documents
import AccessBroker.Library.Simulation

/-! # The store that the columns encode

A text that the store writes is read back as what it was written for, so behind every run on the
columns is a run of the store that they encode.
-/

namespace AccessBroker.Grants.Columns
open Py Paths
set_option autoImplicit false

/-! ## Texts are read back -/

theorem fromIso_iso {time : Int} (h : Dated time) : fromIso (iso time) = .ok time := by
  rw [fromIso, iso, Calendar.read_print h]
  exact congrArg Except.ok (by omega)

theorem textMember_ofText {key : Json.Str} {members : Json.Dict} {text : Text}
    (h : members.lookup key = some (.ofText text)) : textMember key members = some text := by
  rw [textMember, h]
  exact Server.text?_codes text

theorem dumpable_items (items : List Item) :
    Json.DumpableItems .verbatim (items.map itemValue) := by
  induction items with
  | nil => trivial
  | cons item items ih =>
    refine ⟨⟨⟨Json.wellFormed_codes _, Json.wellFormed_codes _⟩,
      ⟨Json.wellFormed_codes _, Json.wellFormed_codes _⟩, trivial⟩, ih⟩

theorem readItem_ordered (item : Item) : readItem (itemValue item).ordered = some item := by
  have hMembers : (itemValue item).ordered =
      .obj [(modeKey, .ofText item.mode), (pathKey, .ofText item.path)] := rfl
  have hPath : textMember pathKey [(modeKey, .ofText item.mode), (pathKey, .ofText item.path)] =
      some item.path := textMember_ofText rfl
  have hMode : textMember modeKey [(modeKey, .ofText item.mode), (pathKey, .ofText item.path)] =
      some item.mode := textMember_ofText rfl
  rw [hMembers, readItem, hPath, hMode]
  rfl

theorem mapM_readItem (items : List Item) :
    (Json.orderedItems (items.map itemValue)).mapM readItem = some items := by
  induction items with
  | nil => rfl
  | cons item items ih =>
    rw [List.map_cons, Json.orderedItems, List.mapM_cons, readItem_ordered, ih]
    rfl

/-- What is dumped is loaded. -/
theorem loadItems_dumpItems (items : List Item) : loadItems (dumpItems items) = .ok items := by
  have hLoads : Json.loads .verbatim (dumpItems items) =
      some (.arr (Json.orderedItems (items.map itemValue))) :=
    Json.loads_printed (v := .arr (items.map itemValue)) (dumpable_items items)
  rw [loadItems, hLoads]
  dsimp only
  rw [mapM_readItem]

/-! ## The store that the columns encode -/

def rowTexts (row : Row) : TextRow where
  instanceName := row.instanceName
  reason := row.reason
  items := dumpItems row.items
  createdAt := iso row.createdAt
  decidedAt := row.decidedAt.map iso
  expiresAt := row.expiresAt.map iso
  state := row.state.text
  stateSource := row.stateSource

def recordTexts (record : GrantRecord) : TextRecord where
  id := record.id
  instanceName := record.instanceName
  reason := record.reason
  items := record.items
  state := record.state.text
  expiresAt := record.expiresAt
  createdAt := record.createdAt
  stateSource := record.stateSource

structure RowDated (row : Row) : Prop where
  created : Dated row.createdAt
  expires : ∀ expiry, row.expiresAt = some expiry → Dated expiry

structure Encodes (t : Tables) (db : Database) : Prop where
  grants : t.grants = db.grants.map rowTexts
  posted : t.posted = db.posted
  dated : ∀ rid row, db.grants.get? rid = some row → RowDated row

variable {cfg now}

theorem state_text_inj {a b : State} : a.text = b.text ↔ a = b := by
  cases a <;> cases b <;> decide

theorem stateOf_rowTexts {row : Row} (h : RowDated row) :
    stateOf cfg now (rowTexts row) = .ok (effectiveState cfg now row).text := by
  rw [stateOf, effectiveState]
  simp only [rowTexts, state_text_inj]
  cases hState : row.state with
  | pending =>
    rw [if_pos rfl, fromIso_iso h.created]
    exact congrArg Except.ok (apply_ite State.text _ _ _).symm
  | active =>
    obtain ⟨expiry, hExpiry⟩ := Option.ne_none_iff_exists'.mp (row.active_expires hState)
    rw [if_neg (by decide), if_pos rfl, hExpiry]
    simp only [Option.map_some, fromIso_iso (h.expires expiry hExpiry), Option.all_some,
      decide_eq_true_eq]
    exact congrArg Except.ok (apply_ite State.text _ _ _).symm
  | expired | revoked | rejected => rfl

theorem expiryOf_rowTexts {row : Row} (h : RowDated row) :
    expiryOf (rowTexts row) = .ok row.expiresAt := by
  rw [expiryOf]
  simp only [rowTexts]
  cases hExpiry : row.expiresAt with
  | none => rfl
  | some expiry =>
    simp only [Option.map_some]
    split
    · rename_i hNone
      cases hNone
    · rename_i hEmpty
      exact absurd (Option.some.inj hEmpty) (Calendar.print_ne_nil _)
    · rename_i text _ hText
      cases hText
      rw [fromIso_iso (h.expires expiry hExpiry)]
      rfl

theorem recordOf_rowTexts {row : Row} (h : RowDated row) (rid : Nat) :
    recordOf cfg now rid (rowTexts row) = .ok (recordTexts (toRecord cfg now rid row)) := by
  rw [recordOf, stateOf_rowTexts h, expiryOf_rowTexts h]
  simp only [rowTexts, loadItems_dumpItems, fromIso_iso h.created, bind, Except.bind, pure,
    Except.pure, state_text_inj]
  rfl

namespace Encodes

variable {t : Tables} {db : Database} (h : Encodes t db)
include h

theorem get? (rid : Nat) : t.grants.get? rid = (db.grants.get? rid).map rowTexts := by
  rw [h.grants, AutoTable.get?_map]

theorem mem {entry : Nat × Row} (hEntry : entry ∈ db.grants.rows) : RowDated entry.2 :=
  h.dated entry.1 entry.2 ((db.grants.mem_rows_iff entry.1 entry.2).mp hEntry)

theorem rows : t.grants.rows = db.grants.rows.map fun entry => (entry.1, rowTexts entry.2) := by
  rw [h.grants]
  rfl

/-- Reading rows of the table gives the texts of the records. -/
theorem mapM_recordOf {entries : List (Nat × Row)} (hEntries : entries ⊆ db.grants.rows) :
    ((entries.map fun entry => (entry.1, rowTexts entry.2)).mapM fun entry =>
      recordOf cfg now entry.1 entry.2) =
    .ok ((entries.map fun entry => toRecord cfg now entry.1 entry.2).map recordTexts) := by
  induction entries with
  | nil => rfl
  | cons entry entries ih =>
    obtain ⟨hEntry, hRest⟩ := List.cons_subset.mp hEntries
    rw [List.map_cons, List.mapM_cons, recordOf_rowTexts (h.mem hEntry), ih hRest]
    rfl

end Encodes

/-! ## Reading gives what the store gives -/

/-- Every reader answers as the store's does, and so none fails on a text. -/
structure ReadsAs (cfg : Settings) (t : Tables) (db : Database) : Prop where
  get : ∀ now rid, getRow cfg now rid t =
    (((Grants.getRow cfg now rid).run db).1.map recordTexts).mapError told
  active : ∀ now instanceName, activeGrants cfg now instanceName t =
    .ok ((Grants.activeGrants cfg now instanceName db).map recordTexts)
  pending : ∀ now, pendingRecords cfg now t = .ok ((Grants.pendingRecords cfg now db).map recordTexts)
  all : ∀ now, allRecords cfg now t = .ok ((Grants.allRecords cfg now db).map recordTexts)
  event : ∀ eventId, requestForEvent eventId t = Grants.requestForEvent eventId db

theorem activeGrants_eq (instanceName : Option Text) (db : Database) :
    Grants.activeGrants cfg now instanceName db =
      ((db.grants.rows.filter fun entry => entry.2.state = .active ∧
          instanceName.all (· = entry.2.instanceName)).map fun entry =>
        toRecord cfg now entry.1 entry.2).filter (·.state = .active) := by
  rw [Grants.activeGrants]
  induction db.grants.rows with
  | nil => rfl
  | cons entry rows ih =>
    rw [List.filterMap_cons]
    by_cases hWanted : entry.2.state = .active ∧ instanceName.all (· = entry.2.instanceName)
    · have hName : ¬ instanceName.any (· ≠ entry.2.instanceName) = true := by
        cases instanceName with
        | none => simp
        | some name => simpa using hWanted.2
      rw [if_neg (not_not_intro hWanted.1), if_neg hName, List.filter_cons_of_pos (by simpa using hWanted),
        List.map_cons, List.filter_cons, ih]
      have hState : (toRecord cfg now entry.1 entry.2).state = effectiveState cfg now entry.2 := rfl
      by_cases hLive : effectiveState cfg now entry.2 = .active
      · rw [if_neg (not_not_intro hLive), if_pos (decide_eq_true (hState.trans hLive))]
      · rw [if_pos hLive, if_neg]
        rw [hState]
        exact fun hTrue => hLive (of_decide_eq_true hTrue)
    · rw [List.filter_cons_of_neg (by simpa using hWanted), ← ih]
      by_cases hState : entry.2.state = .active
      · have hName : instanceName.any (· ≠ entry.2.instanceName) = true := by
          cases instanceName with
          | none => exact absurd ⟨hState, rfl⟩ hWanted
          | some name => simpa [hState] using hWanted
        rw [if_neg (not_not_intro hState), if_pos hName]
      · rw [if_pos hState]

namespace Encodes

variable {t : Tables} {db : Database} (h : Encodes t db)
include h

theorem getRow (rid : Nat) : getRow cfg now rid t =
    (((Grants.getRow cfg now rid).run db).1.map recordTexts).mapError told := by
  rw [Columns.getRow, h.get?, Grants.getRow, Effect.bind_ok (Effect.get_run db)]
  cases hRow : db.grants.get? rid with
  | none => rfl
  | some row => exact recordOf_rowTexts (h.dated rid row hRow) rid

theorem activeGrants (instanceName : Option Text) : activeGrants cfg now instanceName t =
    .ok ((Grants.activeGrants cfg now instanceName db).map recordTexts) := by
  have hRows : t.grants.rows.filter (fun entry => entry.2.state = State.active.text ∧
        instanceName.all (· = entry.2.instanceName)) =
      (db.grants.rows.filter fun entry => entry.2.state = .active ∧
        instanceName.all (· = entry.2.instanceName)).map fun entry => (entry.1, rowTexts entry.2) := by
    rw [h.rows, List.filter_map]
    congr 2
    funext entry
    simp [rowTexts, state_text_inj]
  rw [Columns.activeGrants, hRows, h.mapM_recordOf (List.filter_subset_self _), activeGrants_eq]
  refine congrArg Except.ok ?_
  rw [List.filter_map]
  congr 2
  funext record
  simp [recordTexts, state_text_inj]

theorem pendingRecords : pendingRecords cfg now t =
    .ok ((Grants.pendingRecords cfg now db).map recordTexts) := by
  have hRows : t.grants.rows.filter (fun entry => entry.2.state = State.pending.text) =
      (db.grants.rows.filter fun entry => entry.2.state = .pending).map
        fun entry => (entry.1, rowTexts entry.2) := by
    rw [h.rows, List.filter_map]
    congr 2
    funext entry
    simp [rowTexts, state_text_inj]
  rw [Columns.pendingRecords, hRows, h.mapM_recordOf (List.filter_subset_self _)]
  rfl

theorem allRecords : allRecords cfg now t =
    .ok ((Grants.allRecords cfg now db).map recordTexts) := by
  rw [Columns.allRecords, h.rows, h.mapM_recordOf (List.Subset.refl _)]
  rfl

theorem readsAs (cfg : Settings) : ReadsAs cfg t db where
  get _ rid := h.getRow rid
  active _ instanceName := h.activeGrants instanceName
  pending _ := h.pendingRecords
  all _ := h.allRecords
  event eventId := by rw [requestForEvent, h.posted, Grants.requestForEvent]

end Encodes

/-! ## Writing does what the store does -/

theorem readTables_run {α : Type} (f : Tables → Except StoreError α) (t : Tables) :
    (readTables f).run t = (f t, t) := by
  rw [readTables, Effect.bind_ok (Effect.get_run t)]
  cases f t <;> rfl

section Follows

variable {α α' : Type}

/-- A computation on the tables does what one on the database does. -/
abbrev Follows (F : α → α' → Prop) (m : Effect Tables StoreError α)
    (m' : Effect Database GrantError α') : Prop :=
  Effect.Simulates Encodes (fun e e' => e = told e') F m m'

/-- A computation that only reads. -/
theorem readTables_follows {F : α → α' → Prop} {f : Tables → Except StoreError α}
    {m : Effect Database GrantError α'} (hKeeps : ∀ db, (m.run db).2 = db)
    (h : ∀ t db, Encodes t db → Effect.Alike F (fun e e' => e = told e') (f t) (m.run db).1) :
    Follows F (readTables f) m := by
  intro t db hDb
  rw [readTables_run, hKeeps db]
  exact ⟨h t db hDb, hDb⟩

end Follows

def Shows (record : TextRecord) (record' : GrantRecord) : Prop := record = recordTexts record'

theorem getRow_follows (rid : Nat) :
    Follows Shows (readTables (getRow cfg now rid)) (Grants.getRow cfg now rid) := by
  have hUnknown {db : Database} (hRow : db.grants.get? rid = none) :
      (Grants.getRow cfg now rid).run db = (.error (.unknownGrant rid), db) := by
    rw [Grants.getRow, Effect.bind_ok (Effect.get_run db), hRow]
    rfl
  refine readTables_follows (fun db => ?_) fun t db h => ?_
  · cases hRow : db.grants.get? rid with
    | none => rw [hUnknown hRow]
    | some row => rw [getRow_run hRow]
  rw [getRow, h.get?]
  cases hRow : db.grants.get? rid with
  | none =>
    rw [hUnknown hRow]
    exact .error rfl
  | some row =>
    rw [getRow_run hRow]
    dsimp only [Option.map_some]
    rw [recordOf_rowTexts (h.dated rid row hRow)]
    exact .ok rfl

theorem assertPending_run' (rid : Nat) (db : Database) :
    (Grants.assertPending cfg now rid).run db = (match db.grants.get? rid with
      | none => .error (.unknownGrant rid)
      | some row => if effectiveState cfg now row ∈ decided then
          .error (.alreadyDecided rid (effectiveState cfg now row)) else .ok row, db) := by
  rw [Grants.assertPending, Effect.bind_ok (Effect.get_run db)]
  cases db.grants.get? rid with
  | none => rfl
  | some row =>
    dsimp only
    split <;> rfl

theorem mem_decided_texts {state : State} : state.text ∈ decided.map State.text ↔ state ∈ decided := by
  cases state <;> decide

theorem assertPending_follows (rid : Nat) :
    Follows (fun texts row => texts = rowTexts row ∧ RowDated row)
      (readTables (assertPending cfg now rid)) (Grants.assertPending cfg now rid) := by
  refine readTables_follows (fun db => by rw [assertPending_run']) fun t db h => ?_
  rw [assertPending_run', assertPending, findRow, h.get?]
  cases hRow : db.grants.get? rid with
  | none => exact .error rfl
  | some row =>
    have hDated := h.dated rid row hRow
    have hPending : (do
        let texts ← (.ok (rowTexts row) : Except StoreError TextRow)
        let state ← stateOf cfg now texts
        if state ∈ decided.map State.text then .error (.alreadyDecided rid state) else return texts) =
      if effectiveState cfg now row ∈ decided then
        .error (.alreadyDecided rid (effectiveState cfg now row).text) else .ok (rowTexts row) := by
      change (stateOf cfg now (rowTexts row) >>= _) = _
      rw [stateOf_rowTexts hDated]
      change (if _ then _ else _) = _
      simp only [mem_decided_texts]
      rfl
    dsimp only [Option.map_some]
    rw [hPending]
    split
    · exact .error rfl
    · exact .ok ⟨rfl, hDated⟩

theorem updateGrant_follows (rid : Nat) {f : Row → Row} {g : TextRow → TextRow}
    (hTexts : ∀ row, rowTexts (f row) = g (rowTexts row))
    (hDated : ∀ row, RowDated row → RowDated (f row)) :
    Follows (fun _ _ => True) (updateGrant rid g) (Grants.updateGrant rid f) := by
  refine Effect.Simulates.modify fun t db h => ⟨?_, h.posted, ?_⟩
  · dsimp only
    rw [AutoTable.map_modify hTexts, h.grants]
  · intro key row hRow
    dsimp only at hRow
    rw [AutoTable.get?_modify] at hRow
    split at hRow
    · obtain ⟨old, hOld, rfl⟩ := Option.map_eq_some_iff.mp hRow
      exact hDated old (h.dated rid old hOld)
    · exact h.dated key row hRow

/-- A row is written and read back. -/
theorem write_follows (rid : Nat) {f : Row → Row} {g : TextRow → TextRow}
    (hTexts : ∀ row, rowTexts (f row) = g (rowTexts row))
    (hDated : ∀ row, RowDated row → RowDated (f row)) :
    Follows Shows (do updateGrant rid g; readTables (getRow cfg now rid))
      (do Grants.updateGrant rid f; Grants.getRow cfg now rid) :=
  (updateGrant_follows rid hTexts hDated).bind fun _ _ _ => getRow_follows rid

theorem reject_write_follows (rid : Nat) (source : Text) :
    Follows Shows (do updateGrant rid (TextRow.reject now source); readTables (getRow cfg now rid))
      (do Grants.updateGrant rid (Row.reject now source); Grants.getRow cfg now rid) :=
  write_follows rid (fun _ => rfl) fun _ h => ⟨h.created, h.expires⟩

theorem reject_follows (rid : Nat) : Follows Shows (reject cfg now rid) (Grants.reject cfg now rid) :=
  (assertPending_follows rid).bind fun _ _ _ => reject_write_follows rid _

theorem recordPosted_follows (eventId : Text) (rid : Nat) :
    Follows (fun _ _ => True) (recordPosted eventId rid) (Grants.recordPosted eventId rid) := by
  refine Effect.Simulates.bind .get fun t db h => ?_
  rw [h.posted]
  split
  · exact .raise rfl
  · refine .modify fun t db h => ⟨h.grants, ?_, h.dated⟩
    dsimp only
    rw [h.posted]

theorem insert_follows (hNow : Dated now) (instanceName reason : Text) (items : List Item) :
    Follows (fun _ _ => True)
      (Effect.modify fun t => { t with
        grants := t.grants.insert (insertedRow now instanceName reason items) })
      (Effect.modify fun db => { db with
        grants := db.grants.insert (pendingRow now instanceName reason items) }) := by
  refine .modify fun t db h => ⟨?_, h.posted, ?_⟩
  · dsimp only
    rw [AutoTable.map_insert, h.grants]
    rfl
  · intro rid row hRow
    dsimp only at hRow
    rw [AutoTable.get?_insert] at hRow
    split at hRow
    · cases hRow
      exact ⟨hNow, fun _ hNone => by cases hNone⟩
    · exact h.dated rid row hRow

theorem createRequest_follows (hNow : Dated now) (instanceName : Text) (reason : Option Text)
    (items : List RawItem) :
    Follows Shows (createRequest cfg now instanceName reason items)
      (Grants.createRequest cfg now instanceName reason items) := by
  cases reason with
  | none => exact .raise rfl
  | some text =>
    rw [createRequest, Grants.createRequest]
    split
    · exact .raise rfl
    split
    · exact .raise rfl
    split
    · exact .raise rfl
    cases cleanItems items with
    | error e => exact .raise rfl
    | ok clean =>
      refine Effect.Simulates.bind .get fun t db h => ?_
      have hNext : t.grants.next = db.grants.next := by
        rw [h.grants]
        rfl
      rw [hNext]
      exact (insert_follows hNow instanceName text clean).bind fun _ _ _ => getRow_follows _

theorem revoke_follows (rid : Nat) : Follows Shows (revoke cfg now rid) (Grants.revoke cfg now rid) := by
  intro t db h
  have hFind := readTables_run (findRow rid) t
  rw [revoke, Grants.revoke, Effect.bind_ok (Effect.get_run db)]
  rw [findRow, h.get?] at hFind
  cases hRow : db.grants.get? rid with
  | none =>
    rw [hRow] at hFind
    rw [Effect.bind_error hFind]
    exact ⟨.error rfl, h⟩
  | some row =>
    rw [hRow] at hFind
    rw [Effect.bind_ok hFind, stateOf_rowTexts (h.dated rid row hRow)]
    dsimp only
    cases effectiveState cfg now row with
    | pending => exact reject_write_follows rid _ t db h
    | active =>
      exact write_follows rid (g := TextRow.revoke) (f := Row.revoke) (fun _ => rfl)
        (fun _ h => ⟨h.created, h.expires⟩) t db h
    | expired | revoked | rejected => exact ⟨.error rfl, h⟩

/-- An approval does what the store does, or its expiry is past what a `datetime` can hold. -/
theorem approve_follows (rid : Nat) (expiry : Option Text) (itemNumbers : Option (List (Option Int)))
    (t : Tables) (db : Database) (h : Encodes t db) :
    let outcome := (approve cfg now rid expiry itemNumbers).run t
    let outcome' := (Grants.approve cfg now rid expiry itemNumbers).run db
    outcome = (.error .overflow, t) ∨
      Effect.Alike Shows (fun e e' => e = told e') outcome.1 outcome'.1 ∧
        Encodes outcome.2 outcome'.2 := by
  dsimp only
  have hPending : Follows _ (readTables (assertPending cfg now rid)) (Grants.assertPending cfg now rid) :=
    assertPending_follows rid
  obtain ⟨hAlike, hLeft⟩ := hPending t db h
  rcases hRun' : (Grants.assertPending cfg now rid).run db with ⟨r', db₁⟩
  have hRun := readTables_run (assertPending cfg now rid) t
  rw [hRun, hRun'] at hAlike hLeft
  generalize assertPending cfg now rid t = r at hRun hAlike
  rw [approve, Grants.approve]
  cases hAlike with
  | error hE =>
    rw [Effect.bind_error hRun, Effect.bind_error hRun']
    exact Or.inr ⟨.error hE, hLeft⟩
  | @ok texts row hF =>
    obtain ⟨rfl, -⟩ := hF
    rw [Effect.bind_ok hRun, Effect.bind_ok hRun']
    cases parseExpiry expiry with
    | error e => exact Or.inr ⟨.error rfl, hLeft⟩
    | ok parsed =>
      have hItems : loadItems (rowTexts row).items = .ok row.items := loadItems_dumpItems row.items
      dsimp only
      rw [hItems]
      dsimp only
      cases itemNumbers.elim (.ok row.items) (chooseItems row.items) with
      | error e => exact Or.inr ⟨.error rfl, hLeft⟩
      | ok items =>
        dsimp only
        split
        · exact Or.inr (reject_write_follows rid _ t db₁ hLeft)
        · split
          · rename_i hExpiry
            refine Or.inr (write_follows rid (g := TextRow.activate now items _)
              (f := Row.activate now items _) (fun _ => rfl) (fun _ h => ⟨h.created, ?_⟩) t db₁ hLeft)
            intro _ hSome
            cases hSome
            exact hExpiry
          · exact Or.inl rfl

theorem discard_follows :
    Follows (fun _ _ => True) (Effect.modify restartDiscardPending)
      (Effect.modify Grants.restartDiscardPending) := by
  have hTexts (row : Row) : rowTexts row.discard = (rowTexts row).discard := by
    rw [Row.discard, TextRow.discard]
    by_cases hPending : row.state = .pending
    · have hText : (rowTexts row).state = State.pending.text := congrArg State.text hPending
      rw [if_pos hPending, if_pos hText]
      rfl
    · have hText : (rowTexts row).state ≠ State.pending.text :=
        fun hText => hPending (state_text_inj.mp hText)
      rw [if_neg hPending, if_neg hText]
  refine .modify fun t db h => ⟨?_, h.posted, ?_⟩
  · rw [restartDiscardPending, Grants.restartDiscardPending]
    dsimp only
    rw [AutoTable.map_update fun _ => hTexts, h.grants]
  · intro rid row hRow
    rw [Grants.restartDiscardPending] at hRow
    dsimp only at hRow
    rw [AutoTable.get?_update] at hRow
    obtain ⟨old, hOld, rfl⟩ := Option.map_eq_some_iff.mp hRow
    have hDated := h.dated rid old hOld
    rw [Row.discard]
    split
    · exact ⟨hDated.created, hDated.expires⟩
    · exact hDated

def shownResult (result : Except GrantError (Option GrantRecord)) :
    Except StoreError (Option TextRecord) :=
  (result.map (Option.map recordTexts)).mapError told

/-- One step of the columns against one of the store. -/
def Matches (outcome : Except StoreError (Option TextRecord) × Tables)
    (outcome' : Except GrantError (Option GrantRecord) × Database) : Prop :=
  outcome.1 = shownResult outcome'.1 ∧ Encodes outcome.2 outcome'.2

theorem matches_some {m : Effect Tables StoreError TextRecord}
    {m' : Effect Database GrantError GrantRecord} {t : Tables} {db : Database}
    (hAlike : Effect.Alike Shows (fun e e' => e = told e') (m.run t).1 (m'.run db).1)
    (hLeft : Encodes (m.run t).2 (m'.run db).2) :
    Matches ((do return some (← m) : Effect Tables StoreError (Option TextRecord)).run t)
      ((do return some (← m') : Effect Database GrantError (Option GrantRecord)).run db) := by
  rcases hRun : m.run t with ⟨r, t₁⟩
  rcases hRun' : m'.run db with ⟨r', db₁⟩
  rw [hRun, hRun'] at hAlike hLeft
  cases hAlike with
  | ok hShows =>
    rw [Effect.bind_ok hRun, Effect.bind_ok hRun', hShows]
    exact ⟨rfl, hLeft⟩
  | error hTold =>
    rw [Effect.bind_error hRun, Effect.bind_error hRun', hTold]
    exact ⟨rfl, hLeft⟩

theorem matches_none {m : Effect Tables StoreError Unit} {m' : Effect Database GrantError Unit}
    (h : Follows (fun _ _ => True) m m') {t : Tables} {db : Database} (hDb : Encodes t db) :
    Matches ((do m; return none : Effect Tables StoreError (Option TextRecord)).run t)
      ((do m'; return none : Effect Database GrantError (Option GrantRecord)).run db) := by
  obtain ⟨hAlike, hLeft⟩ := h t db hDb
  rcases hRun : m.run t with ⟨r, t₁⟩
  rcases hRun' : m'.run db with ⟨r', db₁⟩
  rw [hRun, hRun'] at hAlike hLeft
  cases hAlike with
  | ok _ =>
    rw [Effect.bind_ok hRun, Effect.bind_ok hRun']
    exact ⟨rfl, hLeft⟩
  | error hTold =>
    rw [Effect.bind_error hRun, Effect.bind_error hRun', hTold]
    exact ⟨rfl, hLeft⟩

/-- An operation gives the store's result and leaves the columns of the store it leaves, or it
overflows and changes nothing. -/
theorem run_matches (hNow : Dated now) (op : Operation) {t : Tables} {db : Database}
    (h : Encodes t db) :
    (run cfg now op).run t = (.error .overflow, t) ∨
      Matches ((run cfg now op).run t) ((op.run cfg now).run db) := by
  have hRecord {m : Effect Tables StoreError TextRecord}
      {m' : Effect Database GrantError GrantRecord} (hm : Follows Shows m m') :
      Matches ((do return some (← m) : Effect Tables StoreError (Option TextRecord)).run t)
        ((do return some (← m') : Effect Database GrantError (Option GrantRecord)).run db) :=
    matches_some (hm t db h).1 (hm t db h).2
  cases op with
  | createRequest instanceName reason items =>
    exact Or.inr (hRecord (createRequest_follows hNow instanceName reason items))
  | approve rid expiry itemNumbers =>
    rcases approve_follows rid expiry itemNumbers t db h with hOverflow | ⟨hAlike, hLeft⟩
    · exact Or.inl (Effect.bind_error hOverflow)
    · exact Or.inr (matches_some hAlike hLeft)
  | reject rid => exact Or.inr (hRecord (reject_follows rid))
  | revoke rid => exact Or.inr (hRecord (revoke_follows rid))
  | recordPosted eventId rid => exact Or.inr (matches_none (recordPosted_follows eventId rid) h)
  | restart => exact Or.inr (matches_none discard_follows h)

/-! ## Runs of the store behind runs on the columns -/

def Session.start (now : Int) (h : Dated now) : Session := ⟨Tables.empty, now, [], h⟩

def eventTexts (event : Grants.Event) : Event := ⟨event.time, event.op, shownResult event.result⟩

/-- The columns are at the end of a run of the store: the same calls at the same times with the
same results, but for those that overflow. -/
structure Follow (cfg : Settings) (s : Session) (s' : Grants.Session) : Prop where
  encodes : Encodes s.tables s'.db
  now : s.now = s'.now
  events : s.events.filter (fun event => event.result ≠ .error .overflow) = s'.events.map eventTexts

theorem shown_ne_overflow (result : Except GrantError (Option GrantRecord)) :
    shownResult result ≠ .error .overflow := by
  cases result with
  | ok record => exact fun h => by cases h
  | error e => cases e <;> exact fun h => by cases h

theorem Follow.step {s : Session} {s' : Grants.Session} (h : Follow cfg s s') (act : Act) :
    Follow cfg (s.step cfg act) s' ∨ Follow cfg (s.step cfg act) (s'.step cfg act) := by
  cases act with
  | tick elapsed =>
    rw [Session.step]
    split
    · exact Or.inr ⟨h.encodes, congrArg (· + (elapsed : Int)) h.now, h.events⟩
    · exact Or.inl h
  | call op =>
    obtain ⟨db, _, events⟩ := s'
    obtain ⟨hEncodes, rfl, hEvents⟩ := h
    rw [Session.step, Grants.Session.step]
    rcases run_matches s.dated op hEncodes with hOverflow | ⟨hResult, hLeft⟩
    · refine Or.inl ⟨?_, rfl, ?_⟩
      · rw [hOverflow]
        exact hEncodes
      · rw [hOverflow, List.filter_append, hEvents]
        simp
    · refine Or.inr ⟨hLeft, rfl, ?_⟩
      rw [List.filter_append, hEvents, List.map_append, hResult]
      simp [shown_ne_overflow, eventTexts]

/-- In every run of the store on its columns, the tables are the texts of a store that the same
calls bring about, those apart that overflow; each call had the result that it has there; and
every reader answers as there. -/
theorem columns_refine (cfg : Settings) (now : Int) (hNow : Dated now) (acts : List Act) :
    let s := Machine.run (Session.step cfg) (Session.start now hNow) acts
    ∃ kept, kept.Sublist acts ∧
      let s' := Machine.run (Grants.Session.step cfg) (Grants.Session.start now) kept
      Follow cfg s s' ∧ ReadsAs cfg s.tables s'.db := by
  intro s
  suffices hRun : ∃ kept, kept.Sublist acts ∧
      Follow cfg s (Machine.run (Grants.Session.step cfg) (Grants.Session.start now) kept) by
    obtain ⟨kept, hKept, hFollow⟩ := hRun
    exact ⟨kept, hKept, hFollow, hFollow.encodes.readsAs cfg⟩
  induction acts using List.reverseRecOn with
  | nil => exact ⟨[], .refl [], ⟨rfl, rfl, fun rid row hRow => by cases hRow⟩, rfl, rfl⟩
  | append_singleton acts act ih =>
    obtain ⟨kept, hKept, hFollow⟩ := ih
    have hStep : s = (Machine.run (Session.step cfg) (Session.start now hNow) acts).step cfg act :=
      Machine.run_append _ _ _ _
    rw [hStep]
    rcases hFollow.step act with hSame | hNext
    · exact ⟨kept, hKept.trans (List.sublist_append_left _ _), hSame⟩
    · refine ⟨kept ++ [act], hKept.append (.refl _), ?_⟩
      rw [Machine.run_append]
      exact hNext

def approvedActs : List Act :=
  [.call (.createRequest "nc".toList (some "work".toList) [⟨some "/docs/".toList, some READ⟩]),
    .tick 60000000, .call (.approve 1 (some "8h".toList) none)]

theorem columns_refine_approved :
    let cfg : Settings := ⟨defaultPendingTimeout, defaultGrantDuration, none⟩
    let s := Machine.run (Session.step cfg) (Session.start 0 (by decide)) approvedActs
    (∃ kept, kept.Sublist approvedActs ∧
      let s' := Machine.run (Grants.Session.step cfg) (Grants.Session.start 0) kept
      Follow cfg s s' ∧ ReadsAs cfg s.tables s'.db) ∧
    (s.tables.grants.get? 1).map (fun row => (row.createdAt, row.expiresAt)) =
      some ("1970-01-01T00:00:00+00:00".toList, some "1970-01-01T08:01:00+00:00".toList) :=
  ⟨columns_refine _ 0 (by decide) approvedActs, by decide +kernel⟩

end AccessBroker.Grants.Columns
