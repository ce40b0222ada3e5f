import Mathlib.Data.List.Induction
import AccessBroker.MatrixBot.Restoring
import AccessBroker.System.Following
import AccessBroker.System.Posting

/-! # Undo over whole runs

An undo files a request again out of a window that the process armed when it rejected or
revoked the number. The number stays decided from then on, so its window is never armed
again, and the undo that uses it is the only one that ever does.
-/

namespace AccessBroker.System
open Py Grants MatrixBot Server
set_option autoImplicit false

section Definitions

variable (w : Wiring) (env : Nextcloud.Environment)

def reached (acts : List Act) : Broker := Machine.run (Broker.step w env) Broker.start acts

def Undoes (s : Broker) (rid : Nat) : Act → Prop
  | .event ⟨roomId, eventId, sender, .message body⟩ =>
    s.writer.isSome = true ∧ roomId = w.matrix.roomId ∧ ¬ (eventId ≠ [] ∧ eventId ∈ s.seen) ∧
      sender = w.matrix.approver ∧ parseReply body = .ok (some (.undo rid))
  | _ => False

/-- The undo files a request: a number has a row that had none. -/
def Recreates (s : Broker) (rid : Nat) (act : Act) : Prop :=
  Undoes w s rid act ∧ ∃ new, s.desk.db.grants.get? new = none ∧
    (s.step w env act).desk.db.grants.get? new ≠ none

def ofUndo : Pause → Prop
  | .sending (.undoClosed _) => True
  | .posting _ _ .undo => True
  | _ => False

/-- A part of an undo: the reply itself, or the end of a send it waits for. -/
def PartOfUndo (s : Broker) : Act → Prop
  | .resume index _ => s.writer.isSome = true ∧ ∃ pause, s.tasks[index]? = some pause ∧ ofUndo pause
  | act => ∃ rid, Undoes w s rid act

/-- The approver's reaction or reply rejects or revokes the number, which was neither before. -/
def Decides (s : Broker) (rid : Nat) (act : Act) : Prop :=
  Drops w s rid act ∧
    (∀ row, s.desk.db.grants.get? rid = some row → ¬ row.Decided) ∧
    ∃ row, (s.step w env act).desk.db.grants.get? rid = some row ∧ row.Decided

/-- In the process that still runs the number was decided, less than the grace before. -/
def DecidedWithin (acts : List Act) (rid : Nat) : Prop :=
  ∃ pre act post, acts = pre ++ act :: post ∧ (∀ later ∈ post, later ≠ .restart) ∧
    Decides w env (reached w env pre) rid act ∧
    ∃ k, (reached w env pre).desk.asked ≤ k ∧ k < (reached w env (pre ++ [act])).desk.asked ∧
      env.clock k ≤ env.clock (reached w env acts).desk.asked ∧
      env.clock (reached w env acts).desk.asked < env.clock k + undoGraceSeconds * second

/-- One pending request was stored, under a number that no row had before in the run, and nothing
else. -/
def FilesPending (acts : List Act) (act : Act) : Prop :=
  let db := (reached w env acts).desk.db
  (∀ pre post, acts = pre ++ post →
    (reached w env pre).desk.db.grants.get? db.grants.next = none) ∧
  ∃ row, row.state = .pending ∧
    (reached w env (acts ++ [act])).desk.db = db.putGrants (db.grants.insert row)

end Definitions

variable {w : Wiring} {env : Nextcloud.Environment}

theorem reached_concat (acts : List Act) (act : Act) :
    reached w env (acts ++ [act]) = (reached w env acts).step w env act := by
  rw [reached, Machine.run_append]
  rfl

theorem Broker.step_running {s : Broker} {writer : Audit.AuditLog} (hWriter : s.writer = some writer)
    (act : Act) : s.step w env act = s.handle w env writer act := by
  unfold Broker.step
  split
  · rename_i hOther
    rw [hWriter] at hOther
    cases hOther
    rfl
  · rename_i hNone
    rw [hWriter] at hNone
    cases hNone

/-! ## Windows -/

theorem tracks_follows {drop : Nat → Prop} :
    Follows w env (Desk.Tracks env.clock drop) (fun _ => True) drop where
  handles := tracks_handles
  create := createRequest_tracks
  record := recordPosted_tracks
  asked d _ hAsked := tracks_of_kept hAsked (Std.Refl.refl d.db) rfl
  restart d := by
    have hChange : Change ⟨0, 0, none⟩ 0 d.db .restart none _ := .restarted
    refine ⟨le_refl _, hChange.keepsDecided, fun rid window hWindow => ?_⟩
    cases hWindow

theorem Broker.step_tracks (s : Broker) (w : Wiring) (env : Nextcloud.Environment) (act : Act) :
    s.desk.Tracks env.clock (fun rid => Drops w s rid act) (s.step w env act).desk :=
  s.step_follows act tracks_follows (fun _ _ => trivial) fun _ hDrop => hDrop

theorem decides_of_armed {s : Broker} {act : Act} {rid : Nat} {window : UndoWindow}
    (h : Armed env.clock s.desk (s.step w env act).desk rid window) (hDrop : Drops w s rid act) :
    Decides w env s rid act := by
  obtain ⟨row, hRow, hDecided, _⟩ := h.after
  exact ⟨hDrop, h.before, row, hRow, hDecided⟩

theorem Broker.restart_windows (s : Broker) (hRunning : (s.restart w).writer.isSome = true) :
    (s.restart w).desk.undoWindows = [] := by
  rw [Broker.restart] at hRunning ⊢
  split at hRunning
  · cases hRunning
  · rfl

/-- Only a restart starts a process, and it forgets the windows. -/
theorem Broker.step_process {s : Broker} {act : Act}
    (hRunning : (s.step w env act).writer.isSome = true) :
    (act ≠ .restart ∧ s.writer.isSome = true) ∨ (s.step w env act).desk.undoWindows = [] := by
  by_cases hRestart : act = .restart
  · subst hRestart
    have hStep : s.step w env .restart = s.restart w := by
      rw [Broker.step]
      split <;> rfl
    rw [hStep] at hRunning ⊢
    exact Or.inr (s.restart_windows hRunning)
  · refine Or.inl ⟨hRestart, ?_⟩
    cases hWriter : s.writer with
    | some writer => rfl
    | none =>
      have hStopped : (s.step w env act).writer = s.writer := by
        unfold Broker.step
        rw [hWriter]
        cases act with
        | restart => exact absurd rfl hRestart
        | wait | call _ _ | event _ | sweep | resume _ _ => exact hWriter
      rw [hStopped, hWriter] at hRunning
      cases hRunning

/-- A window was armed in a step of the process that still runs. -/
theorem armed_since (acts : List Act) (hRunning : (reached w env acts).writer.isSome = true)
    {rid : Nat} {window : UndoWindow}
    (hWindow : (rid, window) ∈ (reached w env acts).desk.undoWindows) :
    ∃ pre act post, acts = pre ++ act :: post ∧ (∀ later ∈ post, later ≠ .restart) ∧
      Drops w (reached w env pre) rid act ∧
      Armed env.clock (reached w env pre).desk (reached w env (pre ++ [act])).desk rid window := by
  induction acts using List.reverseRecOn with
  | nil => cases hWindow
  | append_singleton acts act ih =>
    rw [reached_concat] at hRunning hWindow
    rcases Broker.step_process hRunning with ⟨hAct, hBefore⟩ | hNone
    · rcases ((reached w env acts).step_tracks w env act).windows rid window hWindow with
        hOld | ⟨hDrop, hArmed⟩
      · obtain ⟨pre, arming, post, rfl, hPost, hDrop, hArmed⟩ := ih hBefore hOld
        refine ⟨pre, arming, post ++ [act], by simp, ?_, hDrop, hArmed⟩
        intro later hLater
        rcases List.mem_append.mp hLater with hLater | hLater
        · exact hPost later hLater
        · exact List.mem_singleton.mp hLater ▸ hAct
      · refine ⟨acts, act, [], rfl, fun later hLater => ?_, hDrop, ?_⟩
        · cases hLater
        · rw [reached_concat]
          exact hArmed
    · rw [hNone] at hWindow
      cases hWindow

theorem run_held (acts : List Act) : (reached w env acts).desk.Held := by
  have hStart : Broker.start.desk.Held := by
    intro rid window hWindow
    cases hWindow
  exact @Machine.run_invariant _ _ (Broker.step w env) (fun s => s.desk.Held)
    (fun s act h => h.tracks (s.step_tracks w env act)) _ hStart acts

theorem run_spent {rid : Nat} {s : Broker} (h : s.desk.Spent rid) (acts : List Act) :
    (Machine.run (Broker.step w env) s acts).desk.Spent rid :=
  @Machine.run_invariant _ _ (Broker.step w env) (fun s => s.desk.Spent rid)
    (fun s act h => h.tracks (s.step_tracks w env act)) s h acts

/-! ## Undo calls -/

theorem Undoes.step_desk {s : Broker} {rid : Nat} {act : Act} (h : Undoes w s rid act) :
    (s.step w env act).desk = ((undo w.layer.store env.clock rid).run s.desk).2 := by
  unfold Undoes at h
  split at h
  · rename_i roomId eventId sender body
    obtain ⟨hRunning, rfl, hNew, rfl, hParsed⟩ := h
    obtain ⟨writer, hWriter⟩ := Option.isSome_iff_exists.mp hRunning
    have hReply : handleReply w.layer.store w.bot env.clock w.matrix.approver body =
        undo w.layer.store env.clock rid := by
      rw [handleReply, if_neg (by simp [Wiring.bot]), hParsed]
    rw [Broker.step_running hWriter, Broker.handle, Broker.onEvent, if_neg (not_not_intro rfl), if_neg hNew, Broker.dispatch,
      if_neg w.matrix.approver_ne_botUser, hReply, Broker.perform_desk, Broker.see_desk]
  · exact h.elim

/-- An undo that files a request had an open window, which it closed. -/
theorem Recreates.step_desk {s : Broker} {rid : Nat} {act : Act} (h : Recreates w env s rid act) :
    ∃ window row, s.desk.WindowOpen env.clock rid window ∧ row.state = .pending ∧
      (s.step w env act).desk =
        { s.desk.closed rid with
          db := s.desk.db.putGrants (s.desk.db.grants.insert row)
          asked := s.desk.asked + 2 } := by
  obtain ⟨hUndoes, new, hBefore, hAfter⟩ := h
  rw [hUndoes.step_desk] at hAfter ⊢
  rcases undo_files w.layer.store env.clock rid s.desk with hSame | hFiled
  · rw [hSame] at hAfter
    exact absurd hBefore hAfter
  · exact hFiled

/-- A spent number is not undone again. -/
theorem not_recreates_of_spent {s : Broker} {rid : Nat} (h : s.desk.Spent rid) (act : Act) :
    ¬ Recreates w env s rid act := by
  intro hRecreates
  obtain ⟨window, _, hOpen, _⟩ := hRecreates.step_desk
  exact h.window window (mem_of_windowOpen hOpen)

theorem recreates_spends {acts : List Act} {act : Act} {rid : Nat}
    (h : Recreates w env (reached w env acts) rid act) :
    ((reached w env acts).step w env act).desk.Spent rid := by
  obtain ⟨window, row, hOpen, _, hDesk⟩ := h.step_desk
  refine (run_held acts).closed hOpen ((reached w env acts).step_tracks w env act) ?_
  rw [hDesk]

theorem next_unused (acts : List Act) :
    ∀ pre post, acts = pre ++ post → (reached w env pre).desk.db.grants.get?
      (reached w env acts).desk.db.grants.next = none := by
  rintro pre post rfl
  have hNext : (reached w env pre).desk.db.grants.next ≤
      (reached w env (pre ++ post)).desk.db.grants.next := by
    rw [reached, reached, Machine.run_append]
    exact @Machine.run_relation _ _ (Broker.step w env)
      (fun s s' => s.desk.db.grants.next ≤ s'.desk.db.grants.next) (fun _ => le_refl _)
      (fun _ _ _ => Nat.le_trans) (fun s act => (s.step_tracks w env act).db.next) _ post
  cases hRow : (reached w env pre).desk.db.grants.get?
    (reached w env (pre ++ post)).desk.db.grants.next with
  | none => rfl
  | some row => exact absurd (AutoTable.get?_lt hRow) (by omega)

theorem Undoes.running {s : Broker} {rid : Nat} {act : Act} (h : Undoes w s rid act) :
    s.writer.isSome = true := by
  unfold Undoes at h
  split at h
  · exact h.1
  · exact h.elim

/-- An undo that files a request does so within the grace. -/
theorem recreates_within (hClock : Monotone env.clock) {acts : List Act} {act : Act} {rid : Nat}
    (h : Recreates w env (reached w env acts) rid act) : DecidedWithin w env acts rid := by
  obtain ⟨window, _, hOpen, _⟩ := h.step_desk
  obtain ⟨pre, arming, post, rfl, hPost, hDrop, hArmed⟩ :=
    armed_since acts h.1.running (mem_of_windowOpen hOpen)
  obtain ⟨k, hFirst, hLast, hDeadline⟩ := hArmed.timed
  have hAsked : (reached w env (pre ++ [arming])).desk.asked ≤
      (reached w env (pre ++ arming :: post)).desk.asked := by
    have hRun := @Machine.run_relation _ _ (Broker.step w env)
      (fun s s' => s.desk.asked ≤ s'.desk.asked) (fun _ => le_refl _)
      (fun _ _ _ => Nat.le_trans) (fun s act => (s.step_tracks w env act).asked)
      (reached w env (pre ++ [arming])) post
    rw [reached, ← Machine.run_append, List.append_assoc] at hRun
    exact hRun
  rw [reached_concat] at hArmed
  refine ⟨pre, arming, post, rfl, hPost, decides_of_armed hArmed hDrop, k, hFirst, hLast, ?_, ?_⟩
  · exact hClock (hLast.le.trans hAsked)
  · rw [← hDeadline]
    exact hOpen.2

theorem recreates_files {acts : List Act} {act : Act} {rid : Nat}
    (h : Recreates w env (reached w env acts) rid act) : FilesPending w env acts act := by
  obtain ⟨window, row, _, hPending, hDesk⟩ := h.step_desk
  refine ⟨next_unused acts, row, hPending, ?_⟩
  rw [reached_concat, hDesk]

/-! ## Rows -/

def SameGrants (d d' : Desk) : Prop := d'.db.grants = d.db.grants

instance : Std.Refl SameGrants where
  refl _ := rfl

instance : IsTrans Desk SameGrants where
  trans _ _ _ h h' := h'.trans h

theorem recordPosted_grants (eventId : Text) (rid : Nat) :
    Effect.Along SameGrants (onDatabase (recordPosted eventId rid)) := by
  intro d
  have hDesk : ((onDatabase (recordPosted eventId rid)).run d).2 =
    { d with db := ((recordPosted eventId rid).run d.db).2 } := rfl
  rw [hDesk]
  rcases recordPosted_cases eventId rid d.db with hRun | ⟨_, hRun⟩ <;> rw [hRun]
  · exact Std.Refl.refl d
  · rfl

/-- The end of a send that an undo waits for decides nothing. -/
theorem resume_undo_grants (store : Settings) (clock : Nat → Int) {pause : Pause}
    (h : ofUndo pause) (outcome : Except SendError Text) :
    Effect.Along SameGrants (Server.resume store clock pause outcome) := by
  cases pause with
  | sending message =>
    cases outcome with
    | ok _ => exact .pure _
    | error cause => exact .raise _
  | posting req stage caller =>
    cases caller with
    | undo =>
      have hStage := posting_along (fun eventId => recordPosted_grants eventId req.id) stage outcome
      refine .bind hStage fun next => ?_
      split <;> exact .pure _
    | requestAccess => exact h.elim
  | noticing rid rest => exact h.elim

theorem Undoes.keeps_rows {s : Broker} {rid : Nat} {act : Act} (h : Undoes w s rid act)
    {other : Nat} {row : Row} (hRow : s.desk.db.grants.get? other = some row) :
    (s.step w env act).desk.db.grants.get? other = some row := by
  rw [h.step_desk]
  rcases undo_files w.layer.store env.clock rid s.desk with hSame | ⟨_, new, _, _, hDesk⟩
  · rw [hSame]
    exact hRow
  · rw [hDesk]
    dsimp only
    rw [Database.putGrants_grants, AutoTable.get?_insert,
      if_neg (Nat.ne_of_lt (AutoTable.get?_lt hRow))]
    exact hRow

/-- No part of an undo changes a row. -/
theorem PartOfUndo.keeps_rows {s : Broker} {act : Act} (h : PartOfUndo w s act)
    {rid : Nat} {row : Row} (hRow : s.desk.db.grants.get? rid = some row) :
    (s.step w env act).desk.db.grants.get? rid = some row := by
  unfold PartOfUndo at h
  split at h
  · rename_i index outcome
    obtain ⟨hRunning, pause, hTask, hPause⟩ := h
    obtain ⟨writer, hWriter⟩ := Option.isSome_iff_exists.mp hRunning
    have hStep : s.step w env (.resume index outcome) =
        { s with tasks := s.tasks.eraseIdx index }.perform
          (Server.resume w.layer.store env.clock pause outcome) := by
      rw [Broker.step_running hWriter, Broker.handle, hTask]
    have hSame := resume_undo_grants w.layer.store env.clock hPause outcome s.desk
    rw [hStep, Broker.perform_desk]
    rw [SameGrants] at hSame
    rw [hSame]
    exact hRow
  · obtain ⟨undone, hUndoes⟩ := h
    exact hUndoes.keeps_rows hRow

/-! ## Every run -/

/-- In every run, an undo that files a request is the only one of its number that does, follows
a rejection or revocation of the number in the same process within the grace, and stores one
pending request under a fresh number; and no part of an undo changes a row. -/
theorem undo_bounded (w : Wiring) (env : Nextcloud.Environment) (hClock : Monotone env.clock)
    (acts : List Act) (act : Act) :
    (∀ rid, Recreates w env (reached w env acts) rid act →
      (∀ between later, ¬ Recreates w env (reached w env (acts ++ act :: between)) rid later) ∧
        DecidedWithin w env acts rid ∧ FilesPending w env acts act) ∧
      (PartOfUndo w (reached w env acts) act → ∀ rid row,
        (reached w env acts).desk.db.grants.get? rid = some row →
          (reached w env (acts ++ [act])).desk.db.grants.get? rid = some row) := by
  constructor
  · intro rid hRecreates
    refine ⟨fun between later => ?_, recreates_within hClock hRecreates,
      recreates_files hRecreates⟩
    apply not_recreates_of_spent
    have hRun := @run_spent w env rid _ (recreates_spends hRecreates) between
    rw [← reached_concat, reached, ← Machine.run_append, List.append_assoc] at hRun
    exact hRun
  · intro hPart rid row hRow
    rw [reached_concat]
    exact hPart.keeps_rows hRow

def rejectedRequest (path : Text) : List Act :=
  [.restart, .call .agent (.requestAccess "nc".toList (some "why".toList)
      [⟨some path, some Paths.READ⟩])] ++
    List.replicate 5 (.resume 0 (.ok "$m".toList)) ++
    [.event ⟨"!room:x".toList, "$1".toList, "@owner:x".toList, .message "reject 1".toList⟩,
      .resume 0 (.ok "$d".toList)]

def undoneFirst : Act :=
  .event ⟨"!room:x".toList, "$2".toList, "@owner:x".toList, .message "undo 1".toList⟩

theorem undo_bounded_rejected :
    let w := smallWiring
    let env := smallEnvironment
    let acts := rejectedRequest "docs".toList
    (∀ between later, ¬ Recreates w env (reached w env (acts ++ undoneFirst :: between)) 1 later) ∧
      DecidedWithin w env acts 1 ∧ FilesPending w env acts undoneFirst :=
  (undo_bounded smallWiring smallEnvironment smallEnvironment_monotone
      (rejectedRequest "docs".toList) undoneFirst).1 1
    ⟨⟨by decide +kernel, rfl, by decide +kernel, rfl, by decide +kernel⟩, 2, by decide +kernel,
      by decide +kernel⟩

/-! ## What comes back -/

theorem filed_follows :
    Follows w env (Desk.StaysFiled w.layer.store) (fun _ => True) fun _ => True where
  handles := filed_conforms.handles
  create _ _ _ _ := onDatabase_filed fun _ hFiled => createRequest_filed hFiled
  record eventId rid := by
    apply onDatabase_filed
    intro db hFiled
    rcases recordPosted_cases eventId rid db with hRun | ⟨_, hRun⟩ <;> rw [hRun]
    · exact hFiled
    · exact hFiled
  asked _ _ _ := id
  restart d := by
    have hChange : Change w.layer.store 0 d.db .restart none _ := .restarted
    exact hChange.filed fun _ _ _ h => by cases h

theorem run_filed (acts : List Act) : (reached w env acts).desk.db.Filed w.layer.store := by
  have hStart : Broker.start.desk.db.Filed w.layer.store := by
    intro rid row hRow
    cases hRow
  exact @Machine.run_invariant _ _ (Broker.step w env) (fun s => s.desk.db.Filed w.layer.store)
    (fun s act h => s.step_follows act filed_follows (fun _ _ => trivial) (fun _ _ => trivial) h) _
    hStart acts

/-- In every run, an undo of an open window stores the number's request once more, pending, with
the same instance, reason and items, exactly if the paths of the request are stable. -/
theorem undo_restores_iff (w : Wiring) (env : Nextcloud.Environment) (acts : List Act) (act : Act)
    (rid : Nat) (window : UndoWindow) (row : Row)
    (hUndoes : Undoes w (reached w env acts) rid act)
    (hOpen : (reached w env acts).desk.WindowOpen env.clock rid window)
    (hRow : (reached w env acts).desk.db.grants.get? rid = some row) :
    Restores row (reached w env acts).desk.db (reached w env (acts ++ [act])).desk.db ↔
      ∀ item ∈ row.items, Paths.Stable item.path := by
  obtain ⟨held, hHeld, _, hHolds⟩ := run_held acts rid window (mem_of_windowOpen hOpen)
  rw [hRow] at hHeld
  cases hHeld
  rw [reached_concat, hUndoes.step_desk]
  exact undo_restores hOpen hHolds (run_filed acts rid row hRow)

def rejectedWindow (path : Text) : UndoWindow :=
  ⟨15000004, "nc".toList, "why".toList, [⟨path, Paths.READ⟩]⟩

theorem undo_restores_iff_docs :
    let acts := rejectedRequest "docs".toList
    ∃ row, (reached smallWiring smallEnvironment acts).desk.db.grants.get? 1 = some row ∧
      Restores row (reached smallWiring smallEnvironment acts).desk.db
        (reached smallWiring smallEnvironment (acts ++ [undoneFirst])).desk.db := by
  have hItems : ((reached smallWiring smallEnvironment (rejectedRequest "docs".toList)).desk.db.grants.get?
      1).map Row.items = some [⟨"docs".toList, Paths.READ⟩] := by decide +kernel
  obtain ⟨row, hRow, hDocs⟩ := Option.map_eq_some_iff.mp hItems
  refine ⟨row, hRow, (undo_restores_iff smallWiring smallEnvironment _ undoneFirst 1
    (rejectedWindow "docs".toList) row ?_ ?_ hRow).mpr ?_⟩
  · exact ⟨by decide +kernel, rfl, by decide +kernel, rfl, by decide +kernel⟩
  · exact ⟨by decide +kernel, by decide +kernel⟩
  · rw [hDocs]
    intro item hItem
    rw [List.mem_singleton.mp hItem]
    exact ⟨by decide +kernel, by decide +kernel, by decide +kernel⟩

/-- The root of an instance is stored as the empty path, which no undo brings back. -/
theorem root_not_restored :
    let acts := rejectedRequest "/".toList
    Undoes smallWiring (reached smallWiring smallEnvironment acts) 1 undoneFirst ∧
      (reached smallWiring smallEnvironment acts).desk.WindowOpen smallEnvironment.clock 1
        (rejectedWindow []) ∧
      ∃ row, (reached smallWiring smallEnvironment acts).desk.db.grants.get? 1 = some row ∧
        ¬ Restores row (reached smallWiring smallEnvironment acts).desk.db
          (reached smallWiring smallEnvironment (acts ++ [undoneFirst])).desk.db := by
  have hRow : ((reached smallWiring smallEnvironment (rejectedRequest "/".toList)).desk.db.grants.get?
      1).isSome = true := by decide +kernel
  have hNext : (reached smallWiring smallEnvironment
      (rejectedRequest "/".toList ++ [undoneFirst])).desk.db.grants.next =
        (reached smallWiring smallEnvironment (rejectedRequest "/".toList)).desk.db.grants.next := by
    decide +kernel
  obtain ⟨row, hRow⟩ := Option.isSome_iff_exists.mp hRow
  refine ⟨?_, ?_, row, hRow, ?_⟩
  · exact ⟨by decide +kernel, rfl, by decide +kernel, rfl, by decide +kernel⟩
  · exact ⟨by decide +kernel, by decide +kernel⟩
  · rintro ⟨new, _, _, _, _, hStored⟩
    rw [hStored] at hNext
    exact Nat.succ_ne_self _ hNext

end AccessBroker.System
