import Mathlib.Logic.Relation
import AccessBroker.System.Undo

/-! # Where the items of a row come from

A row is stored by a request of the agent, or by an undo from a window that holds what an earlier
row holds. A decision keeps the instance and the reason, and some of the items. So behind every
row there is one request of the agent, and each item of the row was asked for in it.
-/

namespace AccessBroker.Grants
open Py Paths
set_option autoImplicit false

/-- The row says the same, for some of the items. -/
structure Row.Descends (row row' : Row) : Prop where
  instanceName : row'.instanceName = row.instanceName
  reason : row'.reason = row.reason
  items : row'.items ⊆ row.items

def Database.Descends (db db' : Database) : Prop :=
  ∀ rid row', db'.grants.get? rid = some row' →
    ∃ row, db.grants.get? rid = some row ∧ row.Descends row'

/-- The item comes from the raw one by one or more normalizations of its path. -/
def RawItem.Becomes (raw : RawItem) (item : Item) : Prop :=
  raw.mode = some item.mode ∧ ∃ path, raw.path = some path ∧
    Relation.TransGen (fun path norm => normalizePath path = some norm) path item.path

variable {cfg : Settings} {now : Int}

theorem Row.Descends.refl (row : Row) : row.Descends row := ⟨rfl, rfl, List.Subset.refl _⟩

theorem Row.Descends.trans {row row' row'' : Row} (h : row.Descends row')
    (h' : row'.Descends row'') : row.Descends row'' :=
  ⟨h'.instanceName.trans h.instanceName, h'.reason.trans h.reason,
    List.Subset.trans h'.items h.items⟩

theorem Row.descends_reject (row : Row) (source : Text) : row.Descends (row.reject now source) :=
  ⟨rfl, rfl, List.Subset.refl _⟩

theorem Row.descends_discard (row : Row) : row.Descends row.discard := by
  rw [Row.discard]
  split
  · exact ⟨rfl, rfl, List.Subset.refl _⟩
  · exact .refl row

instance : Std.Refl Database.Descends where
  refl _ _ row hRow := ⟨row, hRow, .refl row⟩

instance : IsTrans Database Database.Descends where
  trans _ _ _ h h' := by
    intro rid row'' hRow''
    obtain ⟨row', hRow', hLater⟩ := h' rid row'' hRow''
    obtain ⟨row, hRow, hEarlier⟩ := h rid row' hRow'
    exact ⟨row, hRow, hEarlier.trans hLater⟩

theorem Database.descends_modify {db : Database} {rid : Nat} {row : Row} {f : Row → Row}
    (hRow : db.grants.get? rid = some row) (h : row.Descends (f row)) :
    db.Descends (db.putGrants (db.grants.modify rid f)) := by
  intro other row' hOther
  rw [Database.putGrants_grants, AutoTable.get?_modify] at hOther
  split at hOther
  · rename_i hEq
    rw [hRow] at hOther
    cases hOther
    exact ⟨row, hEq ▸ hRow, h⟩
  · exact ⟨row', hOther, .refl row'⟩

theorem chosen_subset {items chosen : List Item} {numbers : Option (List (Option Int))}
    (h : numbers.elim (.ok items) (chooseItems items) = .ok chosen) : chosen ⊆ items := by
  cases numbers with
  | none =>
    cases h
    exact List.Subset.refl _
  | some numbers => exact chooseItems_subset h

/-- Requests apart, no operation makes a row or widens one. -/
theorem Change.descends {db db' : Database} {op : Operation} {result : Option GrantRecord}
    (h : Change cfg now db op result db')
    (hOp : ∀ instanceName reason items, op ≠ .createRequest instanceName reason items) :
    db.Descends db' := by
  cases h with
  | created _ _ _ => exact absurd rfl (hOp _ _ _)
  | approved found _ _ chosen _ =>
    exact Database.descends_modify found ⟨rfl, rfl, chosen_subset chosen⟩
  | emptied found _ => exact Database.descends_modify found (Row.descends_reject _ _)
  | rejected found _ => exact Database.descends_modify found (Row.descends_reject _ _)
  | withdrawn found _ => exact Database.descends_modify found (Row.descends_reject _ _)
  | revoked found _ => exact Database.descends_modify found ⟨rfl, rfl, List.Subset.refl _⟩
  | posted _ => exact fun _ row hRow => ⟨row, hRow, .refl row⟩
  | restarted =>
    intro rid row hRow
    rw [restartDiscardPending, AutoTable.get?_update] at hRow
    obtain ⟨old, hOld, rfl⟩ := Option.map_eq_some_iff.mp hRow
    exact ⟨old, hOld, old.descends_discard⟩

theorem cleanItem_becomes {raw : RawItem} {item : Item} (h : cleanItem raw = .ok item) :
    raw.Becomes item := by
  rw [cleanItem] at h
  split at h
  · cases h
  rename_i mode hMode
  split at h
  · cases h
  split at h
  · cases h
  · rename_i norm hNorm
    cases h
    obtain ⟨path, hPath, hNormalize⟩ := Option.bind_eq_some_iff.mp hNorm
    exact ⟨hMode, path, hPath, .single hNormalize⟩

theorem cleanItems_become {raws : List RawItem} {items : List Item}
    (h : cleanItems raws = .ok items) : ∀ item ∈ items, ∃ raw ∈ raws, raw.Becomes item := by
  intro item hItem
  obtain ⟨raw, hRaw, hClean⟩ := (mem_cleanItems h).mp hItem
  exact ⟨raw, hRaw, cleanItem_becomes hClean⟩

/-- What becomes of an item that is filed again. -/
theorem RawItem.Becomes.again {raw : RawItem} {item clean : Item} (h : raw.Becomes item)
    (hAgain : item.raw.Becomes clean) : raw.Becomes clean := by
  obtain ⟨hMode, path, hPath, hSteps⟩ := h
  obtain ⟨hMode', _, hPath', hSteps'⟩ := hAgain
  cases hPath'
  exact ⟨hMode.trans hMode', path, hPath, hSteps.trans hSteps'⟩

end AccessBroker.Grants

namespace AccessBroker.MatrixBot
open Py Grants Server
set_option autoImplicit false

variable {store : Settings} {clock : Nat → Int}

structure Files (instanceName reason : Text) (raws : List RawItem) (row : Row) : Prop where
  instanceName : row.instanceName = instanceName
  reason : row.reason = strip reason
  items : cleanItems raws = .ok row.items

def Adds (P : Row → Prop) (db db' : Database) : Prop :=
  db' = db ∨ ∃ row, P row ∧ db' = db.putGrants (db.grants.insert row)

theorem Adds.origin {P : Row → Prop} {db db' : Database} (h : Adds P db db') {rid : Nat}
    {row : Row} (hRow : db'.grants.get? rid = some row) :
    db.grants.get? rid = some row ∨ P row := by
  rcases h with rfl | ⟨new, hNew, rfl⟩
  · exact Or.inl hRow
  · rw [Database.putGrants_grants, AutoTable.get?_insert] at hRow
    split at hRow
    · cases hRow
      exact Or.inr hNew
    · exact Or.inl hRow

theorem createRequest_adds (now : Int) (instanceName : Text) (reason : Option Text)
    (raws : List RawItem) (db : Database) :
    Adds (fun row => ∃ text, reason = some text ∧ Files instanceName text raws row) db
      ((createRequest store now instanceName reason raws).run db).2 := by
  rcases createRequest_cases store now instanceName reason raws db with
    ⟨e, hRun⟩ | ⟨text, clean, rfl, _, hClean, _, hRun⟩ <;> rw [hRun]
  · exact Or.inl rfl
  · exact Or.inr ⟨_, ⟨text, rfl, rfl, rfl, hClean⟩, rfl⟩

theorem requestAccess_adds (instanceName : Text) (reason : Option Text) (raws : List RawItem)
    (d : Desk) :
    Adds (fun row => ∃ text, reason = some text ∧ Files instanceName text raws row) d.db
      ((requestAccess store clock instanceName reason raws).run d).2.db := by
  have hAdds : Adds _ d.db ((createRequest store (clock d.asked) instanceName reason raws).run d.db).2 :=
    createRequest_adds (clock d.asked) instanceName reason raws d.db
  have hRun := onStore_run clock (fun now => createRequest store now instanceName reason raws) d
  rw [requestAccess, Effect.bind_ok (Effect.attempt_run hRun)]
  split
  · exact hAdds
  · split
    · exact hAdds
    · exact hAdds
  · exact hAdds

/-- What an undo stores is what the window of its number holds. -/
theorem undo_adds (rid : Nat) (d : Desk) :
    Adds (fun row => ∃ window, (rid, window) ∈ d.undoWindows ∧
        Files window.instanceName window.reason (window.items.map Item.raw) row) d.db
      ((undo store clock rid).run d).2.db := by
  by_cases hOpen : ∃ window, d.WindowOpen clock rid window
  · obtain ⟨window, hWindow⟩ := hOpen
    rw [undo_open hWindow]
    by_cases hAccepted : window.Acceptable store
    · obtain ⟨clean, hClean, hRun⟩ :=
        @recreate_accepted store clock window hAccepted (d.closed rid)
      rw [hRun]
      exact Or.inr ⟨_, ⟨window, mem_of_windowOpen hWindow, rfl, rfl, hClean⟩, rfl⟩
    · obtain ⟨cause, hRun⟩ := @recreate_refused store clock window hAccepted (d.closed rid)
      rw [hRun]
      exact Or.inl rfl
  · obtain ⟨d', hRun, hSame⟩ := @undo_refused store clock rid d fun window h => hOpen ⟨window, h⟩
    rw [hRun]
    exact Or.inl hSame

def Desk.Descends (d d' : Desk) : Prop := d.db.Descends d'.db

instance : Std.Refl Desk.Descends where
  refl d := Std.Refl.refl d.db

instance : IsTrans Desk Desk.Descends where
  trans _ _ _ h h' := IsTrans.trans (r := Database.Descends) _ _ _ h h'

theorem onDatabase_descends {α : Type} {op : Effect Database GrantError α}
    (h : Effect.Along Database.Descends op) : Effect.Along Desk.Descends (onDatabase op) :=
  fun d => h d.db

theorem descends_conforms : Conforms store clock Desk.Descends fun _ => True where
  clock d := Std.Refl.refl d.db
  memory f hDb _ d := by
    rw [Desk.Descends, Effect.modify_run, hDb]
    exact Std.Refl.refl d.db
  approve _ _ _ _ _ := onDatabase_descends <| approve_along fun _ _ _ h =>
    h.descends fun _ _ _ hOp => by cases hOp
  reject _ _ := onDatabase_descends <| reject_along fun _ _ _ h => h.descends fun _ _ _ hOp => by cases hOp
  revoke _ _ := onDatabase_descends <| revoke_along fun _ _ _ h => h.descends fun _ _ _ hOp => by cases hOp

theorem recordPosted_descends (eventId : Text) (rid : Nat) :
    Effect.Along Desk.Descends (onDatabase (recordPosted eventId rid)) := by
  apply onDatabase_descends
  intro db
  rcases recordPosted_cases eventId rid db with hRun | ⟨_, hRun⟩ <;> rw [hRun]
  · exact fun _ row hRow => ⟨row, hRow, .refl row⟩
  · exact fun _ row hRow => ⟨row, hRow, .refl row⟩

end AccessBroker.MatrixBot

namespace AccessBroker.System
open Py Grants MatrixBot Server
set_option autoImplicit false

variable {w : Wiring} {env : Nextcloud.Environment}

inductive Broker.Origin (s : Broker) (act : Act) (rid : Nat) (row : Row) : Prop where
  | kept {old : Row} (found : s.desk.db.grants.get? rid = some old) (descends : old.Descends row)
  | asked {instanceName reason : Text} {raws : List RawItem} (running : s.writer.isSome = true)
      (call : act = .call .agent (.requestAccess instanceName (some reason) raws))
      (files : Files instanceName reason raws row)
  | refiled {other : Nat} {window : UndoWindow} (held : (other, window) ∈ s.desk.undoWindows)
      (files : Files window.instanceName window.reason (window.items.map Item.raw) row)

theorem Broker.origin_of_descends {s s' : Broker} {act : Act} {rid : Nat} {row : Row}
    (h : s.desk.Descends s'.desk) (hRow : s'.desk.db.grants.get? rid = some row) :
    s.Origin act rid row := by
  obtain ⟨old, hOld, hDescends⟩ := h rid row hRow
  exact .kept hOld hDescends

theorem Broker.origin_of_adds {s s' : Broker} {act : Act} {P : Row → Prop} {rid : Nat} {row : Row}
    (h : Adds P s.desk.db s'.desk.db) (hP : P row → s.Origin act rid row)
    (hRow : s'.desk.db.grants.get? rid = some row) : s.Origin act rid row := by
  rcases h.origin hRow with hOld | hNew
  · exact .kept hOld (.refl row)
  · exact hP hNew

theorem Broker.dispatch_origin (s : Broker) (event : RoomEvent) {rid : Nat} {row : Row}
    (hRow : (s.dispatch w env event.sender event.content).desk.db.grants.get? rid = some row) :
    s.Origin (.event event) rid row := by
  have hParts : Parts w.layer.store env.clock Desk.Descends (fun _ => True) fun _ => True :=
    descends_conforms.handles.toParts
  cases hContent : event.content with
  | reaction reactsTo key =>
    rw [hContent, Broker.dispatch] at hRow
    refine origin_of_descends (s.perform_follows ?_) hRow
    exact hParts.handleReaction event.sender reactsTo key s.desk
      (fun _ _ _ _ => trivial) fun _ _ _ _ => trivial
  | message body =>
    rw [hContent, Broker.dispatch] at hRow
    split at hRow
    · exact .kept hRow (.refl row)
    by_cases hUndo : event.sender = w.bot.approver ∧ ∃ undone, parseReply body = .ok (some (.undo undone))
    · obtain ⟨hSender, undone, hParsed⟩ := hUndo
      have hReply : handleReply w.layer.store w.bot env.clock event.sender body =
          undo w.layer.store env.clock undone := by
        rw [handleReply, if_neg (not_not_intro hSender), hParsed]
      rw [hReply] at hRow
      refine origin_of_adds (P := fun row => ∃ window, (undone, window) ∈ s.desk.undoWindows ∧
        Files window.instanceName window.reason (window.items.map Item.raw) row) ?_ ?_ hRow
      · rw [Broker.perform_desk]
        exact undo_adds undone s.desk
      · rintro ⟨window, hWindow, hFiles⟩
        exact .refiled hWindow hFiles
    · refine origin_of_descends (s.perform_follows ?_) hRow
      by_cases hSender : event.sender = w.bot.approver
      · refine hParts.handleReply event.sender body (fun undone hParsed => ?_)
          (fun _ _ _ _ _ => trivial) (fun _ _ _ _ _ _ _ => trivial) s.desk
        exact absurd ⟨hSender, undone, hParsed⟩ hUndo
      · rw [handleReply, if_pos hSender]
        exact Std.Refl.refl s.desk

theorem Broker.call_origin (s : Broker) (writer : Audit.AuditLog) (hRunning : s.writer.isSome = true)
    (surface : Surface) (tool : Tool) {rid : Nat} {row : Row}
    (hRow : (s.call w env writer surface tool).desk.db.grants.get? rid = some row) :
    s.Origin (.call surface tool) rid row := by
  unfold Broker.call at hRow
  split at hRow
  · exact .kept hRow (.refl row)
  rename_i hTool
  split at hRow
  · rename_i instanceName reason raws
    refine origin_of_adds (P := fun row => ∃ text, reason = some text ∧
      Files instanceName text raws row) ?_ ?_ hRow
    · rw [Broker.perform_desk]
      exact requestAccess_adds instanceName reason raws s.desk
    · rintro ⟨text, rfl, hFiles⟩
      cases surface with
      | agent => exact .asked hRunning rfl hFiles
      | transfer =>
        have hForeign : "request_access".toList ∉ TRANSFER_TOOLS := by decide
        exact absurd hForeign hTool
  · have hParts : Parts w.layer.store env.clock Desk.Descends (fun _ => True) fun _ => True :=
      descends_conforms.handles.toParts
    refine origin_of_descends (s.perform_follows ?_) hRow
    exact Effect.Along.bind (hParts.checkAccess _) (fun _ => .pure _) s.desk
  · split at hRow
    · exact .kept hRow (.refl row)
    · exact .kept hRow (.refl row)

theorem Broker.step_origin (s : Broker) (act : Act) {rid : Nat} {row : Row}
    (hRow : (s.step w env act).desk.db.grants.get? rid = some row) : s.Origin act rid row := by
  have hRestart (hRow : (s.restart w).desk.db.grants.get? rid = some row) :
      s.Origin act rid row := by
    refine origin_of_descends ?_ hRow
    rw [Broker.restart]
    split
    · exact Std.Refl.refl s.desk
    · have hChange : Change w.layer.store 0 s.desk.db .restart none _ := .restarted
      exact hChange.descends fun _ _ _ hOp => by cases hOp
  unfold Broker.step at hRow
  split at hRow
  · rename_i writer hWriter
    have hRunning : s.writer.isSome = true := by rw [hWriter]; rfl
    cases act with
    | wait => exact .kept hRow (.refl row)
    | restart => exact hRestart hRow
    | call surface tool => exact s.call_origin writer hRunning surface tool hRow
    | sweep =>
      have hConforms : Conforms w.layer.store env.clock Desk.Descends fun _ => True := descends_conforms
      exact origin_of_descends (s.perform_follows (hConforms.handles.sweep s.desk)) hRow
    | resume index outcome =>
      rw [Broker.handle] at hRow
      split at hRow
      · exact .kept hRow (.refl row)
      · rename_i pause _
        refine origin_of_descends
          (Broker.perform_follows { s with tasks := s.tasks.eraseIdx index } ?_) hRow
        have hHandles : Handles w.layer.store env.clock Desk.Descends (fun _ => True)
          fun _ => True := descends_conforms.handles
        refine hHandles.resume pause outcome (fun req stage caller _ => ?_) s.desk
        exact hHandles.resumePosting req (fun eventId => recordPosted_descends eventId req.id) stage
          outcome caller
    | event event =>
      rw [Broker.handle, Broker.onEvent] at hRow
      split at hRow
      · exact .kept hRow (.refl row)
      split at hRow
      · exact .kept hRow (.refl row)
      · have hOrigin := (s.see event.eventId).dispatch_origin event hRow
        cases hOrigin with
        | kept found descends => exact .kept (by rwa [Broker.see_desk] at found) descends
        | asked _ call _ => cases call
        | refiled held files => exact .refiled (by rwa [Broker.see_desk] at held) files
  · split at hRow
    · exact hRestart hRow
    · exact .kept hRow (.refl row)
    · exact .kept hRow (.refl row)

/-- In the run the agent asked, for this instance and this reason, for what became of the row's
items. -/
def WasAsked (w : Wiring) (env : Nextcloud.Environment) (acts : List Act) (row : Row) : Prop :=
  ∃ pre reason raws post,
    acts = pre ++ .call .agent (.requestAccess row.instanceName (some reason) raws) :: post ∧
    (reached w env pre).writer.isSome = true ∧ row.reason = strip reason ∧
    ∀ item ∈ row.items, ∃ raw ∈ raws, raw.Becomes item

theorem WasAsked.later {acts : List Act} {act : Act} {row row' : Row}
    (h : WasAsked w env acts row) (hName : row'.instanceName = row.instanceName)
    (hReason : row'.reason = strip row.reason ∨ row'.reason = row.reason)
    (hItems : ∀ item' ∈ row'.items, ∃ item ∈ row.items, item' = item ∨ item.raw.Becomes item') :
    WasAsked w env (acts ++ [act]) row' := by
  obtain ⟨pre, reason, raws, post, rfl, hRunning, hStripped, hAsked⟩ := h
  refine ⟨pre, reason, raws, post ++ [act], by rw [hName]; simp, hRunning, ?_, ?_⟩
  · rw [hStripped, strip_strip, or_self] at hReason
    exact hReason
  · intro item' hItem'
    obtain ⟨item, hItem, hSame⟩ := hItems item' hItem'
    obtain ⟨raw, hRaw, hBecomes⟩ := hAsked item hItem
    refine ⟨raw, hRaw, ?_⟩
    rcases hSame with rfl | hAgain
    · exact hBecomes
    · exact hBecomes.again hAgain

/-- In every run, every row the store holds goes back to a request of the agent for the same
instance and reason, and each of its items was asked for in it, in the same mode and under a path
that one or more normalizations turn into the item's. -/
theorem rows_were_asked (w : Wiring) (env : Nextcloud.Environment) (acts : List Act) :
    ∀ rid row, (reached w env acts).desk.db.grants.get? rid = some row →
      WasAsked w env acts row := by
  induction acts using List.reverseRecOn with
  | nil =>
    intro rid row hRow
    cases hRow
  | append_singleton acts act ih =>
    intro rid row hRow
    rw [reached_concat] at hRow
    cases (reached w env acts).step_origin act hRow with
    | @kept old found descends =>
      refine (ih rid old found).later descends.instanceName (Or.inr descends.reason) ?_
      exact fun item hItem => ⟨item, descends.items hItem, Or.inl rfl⟩
    | asked running call files =>
      subst call
      rw [← files.instanceName]
      refine ⟨acts, _, _, [], rfl, running, files.reason, cleanItems_become files.items⟩
    | @refiled other window held files =>
      -- the window holds what the row of its number holds, and that row was asked for
      obtain ⟨old, hOld, _, hHolds⟩ := run_held acts other window held
      refine (ih other old hOld).later (files.instanceName.trans hHolds.instanceName) (Or.inl ?_) ?_
      · rw [files.reason, hHolds.reason]
      · intro item' hItem'
        obtain ⟨raw, hRaw, hBecomes⟩ := cleanItems_become files.items item' hItem'
        obtain ⟨item, hItem, rfl⟩ := List.mem_map.mp hRaw
        exact ⟨item, hHolds.items ▸ hItem, Or.inr hBecomes⟩

theorem rows_were_asked_posted :
    WasAsked smallWiring smallEnvironment postedRequest
      (((reached smallWiring smallEnvironment postedRequest).desk.db.grants.get? 1).get
        (by decide +kernel)) :=
  rows_were_asked smallWiring smallEnvironment postedRequest 1 _ (Option.some_get _).symm

end AccessBroker.System
