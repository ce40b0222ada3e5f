import AccessBroker.Grants.Timeouts
import AccessBroker.System.Undo

/-! # Sweeps among other handlers

A sweep reads which stored requests have timed out and announces one after the other. While it
waits for a send, other handlers run; they leave alone what the sweep remembers, and a
request that has timed out is decided by none of them.
-/

namespace AccessBroker.MatrixBot
open Py Grants Server
set_option autoImplicit false

section Handlers

variable {store : Settings} {bot : Bot} {clock : Nat → Int}

/-! ## What the other handlers leave alone -/

/-- The row of the number has timed out, and will have at every reading of the clock. -/
def Desk.Lapsed (store : Settings) (clock : Nat → Int) (d : Desk) (rid : Nat) (row : Row) : Prop :=
  d.db.grants.get? rid = some row ∧ ∀ k, d.asked ≤ k → row.TimedOut store (clock k)

/-- What no handler but the sweep changes. -/
structure Desk.Minds (store : Settings) (clock : Nat → Int) (d d' : Desk) : Prop where
  asked : d.asked ≤ d'.asked
  swept : d'.swept = d.swept
  lapsed : ∀ rid row, d.Lapsed store clock rid row → d'.Lapsed store clock rid row

instance : Std.Refl (Desk.Minds store clock) where
  refl _ := ⟨le_refl _, rfl, fun _ _ h => h⟩

instance : IsTrans Desk (Desk.Minds store clock) where
  trans _ _ _ h h' := ⟨h.asked.trans h'.asked, h'.swept.trans h.swept,
    fun rid row hLapsed => h'.lapsed rid row (h.lapsed rid row hLapsed)⟩

theorem minds_of_rows {d d' : Desk} (hAsked : d.asked ≤ d'.asked) (hSwept : d'.swept = d.swept)
    (hRows : ∀ rid row, d.db.grants.get? rid = some row → d'.db.grants.get? rid = some row) :
    d.Minds store clock d' :=
  ⟨hAsked, hSwept, fun rid row hLapsed =>
    ⟨hRows rid row hLapsed.1, fun k hk => hLapsed.2 k (hAsked.trans hk)⟩⟩

/-- The store is changed at a reading of the clock that has just been taken. -/
theorem onStore_minds {α : Type} {op : Int → Effect Database GrantError α}
    (hTimedOut : ∀ now, Effect.Along (Database.KeepsTimedOut store now) (op now)) :
    Effect.Along (Desk.Minds store clock) (onStore clock op) := by
  intro d
  rw [onStore_run]
  refine ⟨Nat.le_succ _, rfl, fun rid row hLapsed => ⟨?_, fun k hk => ?_⟩⟩
  · exact hTimedOut _ d.db rid row hLapsed.1 (hLapsed.2 d.asked (le_refl _))
  · exact hLapsed.2 k ((Nat.le_succ _).trans hk)

theorem minds_parts : Parts store clock (Desk.Minds store clock) (fun _ => True) fun _ => True := by
  apply parts_of
  · exact fun d => minds_of_rows (Nat.le_succ _) rfl fun _ _ hRow => hRow
  · intro f hDb hAsked hSwept d
    refine minds_of_rows (le_of_eq (hAsked d).symm) (hSwept d) fun rid row hRow => ?_
    rw [Effect.modify_run, hDb]
    exact hRow
  · exact fun _ _ _ _ => onStore_minds fun now => approve_along fun _ _ _ h => h.keepsTimedOut nofun
  · exact fun _ => onStore_minds fun now => reject_along fun _ _ _ h => h.keepsTimedOut nofun
  · exact fun _ => onStore_minds fun now => revoke_along fun _ _ _ h => h.keepsTimedOut nofun

/-! ## Handlers that announce nothing -/

def Progress.Unnoticed : Progress → Prop
  | .awaits (.noticing _ _) => False
  | _ => True

theorem Progress.Plain.unnoticed {progress : Progress} (h : progress.Plain) :
    progress.Unnoticed := by
  cases progress with
  | returns answer => trivial
  | awaits pause =>
    cases pause with
    | sending message => trivial
    | posting req stage caller => trivial
    | noticing rid rest => exact h.elim

theorem undo_unnoticed (rid : Nat) : Effect.Yields Progress.Unnoticed (undo store clock rid) := by
  refine .bind fun d => ?_
  split
  · exact .pure trivial
  · refine .bind fun now => .bind fun _ => ?_
    split
    · exact .pure trivial
    · exact .bind fun _ => .pure trivial

theorem handleReply_unnoticed (sender text : Text) :
    Effect.Yields Progress.Unnoticed (handleReply store bot clock sender text) := by
  by_cases hUndo : ∃ rid, parseReply text = .ok (some (.undo rid))
  · obtain ⟨rid, hParsed⟩ := hUndo
    rw [handleReply]
    split
    · exact .pure trivial
    · rw [hParsed]
      exact undo_unnoticed rid
  · exact (handleReply_plain sender text fun rid h => hUndo ⟨rid, h⟩).mono
      fun _ => Progress.Plain.unnoticed

theorem requestAccess_unnoticed (instanceName : Text) (reason : Option Text) (items : List RawItem) :
    Effect.Yields Progress.Unnoticed
      (Server.requestAccess store clock instanceName reason items) := by
  refine .bind fun result => ?_
  split
  · exact .pure trivial
  · split
    · exact .pure trivial
    · exact .raise
  · exact .raise

theorem resumePosting_unnoticed (req : GrantRecord) (stage : Posting)
    (outcome : Except SendError Text) (caller : Caller) :
    Effect.Yields Progress.Unnoticed
      (Server.resumePosting store clock req stage outcome caller) := by
  cases caller with
  | undo =>
    refine .bind fun next => ?_
    split <;> exact .pure trivial
  | requestAccess =>
    refine .bind fun result => ?_
    split
    · exact .pure trivial
    · exact .pure trivial
    · rw [rollBack]
      split
      · exact .bind fun _ => .pure trivial
      · exact .raise
    · exact .raise

end Handlers

end AccessBroker.MatrixBot

namespace AccessBroker.System
open Py Grants MatrixBot Server
set_option autoImplicit false

/-! ## Sweeps -/

def announces : Pause → Bool
  | .noticing _ _ => true
  | _ => false

def Broker.notices (s : Broker) : List Pause := s.tasks.filter announces

def Broker.waiting (s : Broker) : Act → List Pause
  | .resume index _ => s.tasks.eraseIdx index
  | _ => s.tasks

def due (swept : List Nat) (record : GrantRecord) : Bool :=
  decide (record.state = .expired ∧ record.id ∉ swept)

def announcement (swept : List Nat) (pending : List GrantRecord) : List Pause :=
  match pending.dropWhile fun record => !due swept record with
  | [] => []
  | record :: rest => [.noticing record.id rest]

theorem sweepFrom_run (pending : List GrantRecord) (d : Desk) :
    waitsFor ((sweepFrom pending).run d).1 = announcement d.swept pending ∧
      ((sweepFrom pending).run d).2 = d := by
  induction pending with
  | nil => exact ⟨rfl, rfl⟩
  | cons record rest ih =>
    rw [sweepFrom, Effect.bind_ok (Effect.get_run d), announcement, List.dropWhile_cons]
    by_cases hDue : record.state = .expired ∧ record.id ∉ d.swept
    · rw [if_pos hDue, if_neg (by simp [due, hDue])]
      exact ⟨rfl, rfl⟩
    · rw [if_neg hDue, if_pos (by simp [due, hDue])]
      exact ih

/-- Either nothing is due, or the first request that is due is announced. -/
theorem announcement_cases (swept : List Nat) (pending : List GrantRecord) :
    (announcement swept pending = [] ∧ ∀ record ∈ pending, due swept record = false) ∨
    ∃ skipped record rest, pending = skipped ++ record :: rest ∧ due swept record = true ∧
      (∀ other ∈ skipped, due swept other = false) ∧
      announcement swept pending = [.noticing record.id rest] := by
  induction pending with
  | nil => exact Or.inl ⟨rfl, nofun⟩
  | cons record rest ih =>
    cases hDue : due swept record with
    | true =>
      refine Or.inr ⟨[], record, rest, rfl, hDue, nofun, ?_⟩
      rw [announcement, List.dropWhile_cons, hDue]
      rfl
    | false =>
      have hNext : announcement swept (record :: rest) = announcement swept rest := by
        rw [announcement, List.dropWhile_cons, hDue]
        rfl
      rw [hNext]
      rcases ih with ⟨hNone, hAll⟩ | ⟨skipped, first, more, hRest, hFirst, hSkipped, hSome⟩
      · exact Or.inl ⟨hNone, List.forall_mem_cons.mpr ⟨hDue, hAll⟩⟩
      · refine Or.inr ⟨record :: skipped, first, more, by rw [hRest]; rfl, hFirst, ?_, hSome⟩
        exact List.forall_mem_cons.mpr ⟨hDue, hSkipped⟩

/-! ## Steps -/

variable (w : Wiring) (env : Nextcloud.Environment)

inductive Broker.Sweeps (s : Broker) : Act → Broker → Prop where
  | ordinary {act : Act} {s' : Broker} {more : List Pause}
      (desk : s.desk.Minds w.layer.store env.clock s'.desk)
      (tasks : s'.tasks = s.waiting act ++ more) (silent : more.filter announces = [])
      (waiting : ((s.waiting act).filter announces).Perm s.notices) (ordinary : s.Ordinary act) :
      Sweeps s act s'
  | begins {s' : Broker} (desk : s'.desk = { s.desk with asked := s.desk.asked + 1 })
      (tasks : s'.tasks = s.tasks ++ announcement s.desk.swept
        (pendingRecords w.layer.store (env.clock s.desk.asked) s.desk.db)) : Sweeps s .sweep s'
  | continues {index : Nat} {eventId : Text} {s' : Broker} {rid : Nat} {rest : List GrantRecord}
      (task : s.tasks[index]? = some (.noticing rid rest))
      (desk : s'.desk = { s.desk with swept := rid :: s.desk.swept })
      (tasks : s'.tasks = s.tasks.eraseIdx index ++ announcement (rid :: s.desk.swept) rest) :
      Sweeps s (.resume index (.ok eventId)) s'

variable {w env}

theorem filter_waitsFor_unnoticed {handler : Handler Progress}
    (h : Effect.Yields Progress.Unnoticed handler) (d : Desk) :
    (waitsFor (handler.run d).1).filter announces = [] := by
  rcases hRun : (handler.run d).1 with err | progress
  · rfl
  · have hUnnoticed := h d progress hRun
    cases progress with
    | returns answer => rfl
    | awaits pause =>
      cases pause with
      | sending message => rfl
      | posting req stage caller => rfl
      | noticing rid rest => exact hUnnoticed.elim

theorem minds_attends :
    Attends w env (Desk.Minds w.layer.store env.clock) (fun _ => True) fun _ => True where
  parts := minds_parts
  create _ _ _ _ d := minds_of_rows (le_refl _) rfl fun _ _ hRow => createRequest_keeps hRow
  record eventId rid d := by
    refine minds_of_rows (le_refl _) rfl fun other row hRow => ?_
    have hSame := recordPosted_grants eventId rid d
    rw [SameGrants] at hSame
    rw [hSame]
    exact hRow
  asked d asked hAsked := minds_of_rows hAsked rfl fun _ _ hRow => hRow

/-- A step in which a handler runs that announces nothing. -/
theorem Broker.sweeps_perform {s s₁ : Broker} {act : Act} {handler : Handler Progress}
    (hStep : s.step w env act = s₁.perform handler) (hTasks : s₁.tasks = s.waiting act)
    (hWaiting : ((s.waiting act).filter announces).Perm s.notices) (hOrdinary : s.Ordinary act)
    (hUnnoticed : Effect.Yields Progress.Unnoticed handler) :
    s.Sweeps w env act (s.step w env act) := by
  have hMore : (s.step w env act).tasks = s.waiting act ++ waitsFor (handler.run s₁.desk).1 := by
    rw [hStep, Broker.perform_tasks, hTasks]
  exact .ordinary (s.step_attends act minds_attends hOrdinary (fun _ _ => trivial)
    fun _ _ => trivial) hMore (filter_waitsFor_unnoticed hUnnoticed _) hWaiting hOrdinary

theorem Broker.sweeps_idle {s : Broker} {act : Act}
    (hTasks : (s.step w env act).tasks = s.waiting act)
    (hWaiting : ((s.waiting act).filter announces).Perm s.notices) (hOrdinary : s.Ordinary act) :
    s.Sweeps w env act (s.step w env act) := by
  have hMore : (s.step w env act).tasks = s.waiting act ++ [] := by rw [hTasks, List.append_nil]
  exact .ordinary (s.step_attends act minds_attends hOrdinary (fun _ _ => trivial)
    fun _ _ => trivial) hMore rfl hWaiting hOrdinary

section Running

variable (s : Broker) {writer : Audit.AuditLog} (hWriter : s.writer = some writer)

include hWriter

theorem Broker.sweep_sweeps : s.Sweeps w env .sweep (s.step w env .sweep) := by
  have hSweep : s.step w env .sweep = s.perform (sweep w.layer.store env.clock) :=
    Broker.step_running hWriter .sweep
  obtain ⟨hTasks, hDesk⟩ := sweepFrom_run
    (pendingRecords w.layer.store (env.clock s.desk.asked) s.desk.db)
    { s.desk with asked := s.desk.asked + 1 }
  refine .begins ?_ ?_
  · rw [hSweep, Broker.perform_desk]
    exact hDesk
  · rw [hSweep, Broker.perform_tasks]
    exact congrArg (s.tasks ++ ·) hTasks

theorem Broker.call_sweeps (surface : Surface) (tool : Tool) :
    s.Sweeps w env (.call surface tool) (s.step w env (.call surface tool)) := by
  have hCall : s.step w env (.call surface tool) = s.call w env writer surface tool :=
    Broker.step_running hWriter _
  unfold Broker.call at hCall
  split at hCall
  · exact Broker.sweeps_idle (by rw [hCall]; rfl) (.refl _) trivial
  split at hCall
  · exact Broker.sweeps_perform hCall rfl (.refl _) trivial (requestAccess_unnoticed _ _ _)
  · exact Broker.sweeps_perform hCall rfl (.refl _) trivial (.bind fun _ => .pure trivial)
  · split at hCall
    · exact Broker.sweeps_idle (by rw [hCall]; rfl) (.refl _) trivial
    · exact Broker.sweeps_idle (by rw [hCall]; rfl) (.refl _) trivial

theorem Broker.event_sweeps (event : RoomEvent) :
    s.Sweeps w env (.event event) (s.step w env (.event event)) := by
  have hEvent : s.step w env (.event event) = s.onEvent w env event :=
    Broker.step_running hWriter _
  rw [Broker.onEvent] at hEvent
  split at hEvent
  · exact Broker.sweeps_idle (by rw [hEvent]; rfl) (.refl _) trivial
  split at hEvent
  · exact Broker.sweeps_idle (by rw [hEvent]; rfl) (.refl _) trivial
  cases hContent : event.content with
  | reaction reactsTo key =>
    rw [hContent] at hEvent
    exact Broker.sweeps_perform hEvent (s.see_tasks _) (.refl _) trivial
      ((handleReaction_plain _ _ _).mono fun _ => Progress.Plain.unnoticed)
  | message body =>
    rw [hContent, Broker.dispatch] at hEvent
    split at hEvent
    · exact Broker.sweeps_idle (by rw [hEvent]; exact s.see_tasks _) (.refl _) trivial
    · exact Broker.sweeps_perform hEvent (s.see_tasks _) (.refl _) trivial
        (handleReply_unnoticed _ _)

/-- Whatever task the answer reaches, a sweep goes on only from a notice of its own. -/
theorem Broker.resume_sweeps (index : Nat) (eventId : Text) :
    s.Sweeps w env (.resume index (.ok eventId)) (s.step w env (.resume index (.ok eventId))) := by
  have hResume : s.step w env (.resume index (.ok eventId)) =
      s.handle w env writer (.resume index (.ok eventId)) := Broker.step_running hWriter _
  rw [Broker.handle] at hResume
  cases hTask : s.tasks[index]? with
  | none =>
    rw [hTask] at hResume
    have hWaiting : s.waiting (.resume index (.ok eventId)) = s.tasks :=
      List.eraseIdx_of_length_le (List.getElem?_eq_none_iff.mp hTask)
    refine Broker.sweeps_idle (by rw [hResume, hWaiting]) (by rw [hWaiting]; rfl) ?_
    intro rid rest h
    rw [hTask] at h
    cases h
  | some pause =>
    rw [hTask] at hResume
    have hErased := erased_filter announces hTask
    cases pause with
    | noticing rid rest =>
      obtain ⟨hTasks, hDesk⟩ := sweepFrom_run rest { s.desk with swept := rid :: s.desk.swept }
      refine .continues hTask ?_ ?_
      · rw [hResume, Broker.perform_desk]
        exact hDesk
      · rw [hResume, Broker.perform_tasks]
        exact congrArg (s.tasks.eraseIdx index ++ ·) hTasks
    | sending message =>
      refine Broker.sweeps_perform hResume rfl hErased.symm (fun rid rest h => ?_) (.pure trivial)
      rw [hTask] at h
      cases h
    | posting req stage caller =>
      refine Broker.sweeps_perform hResume rfl hErased.symm (fun rid rest h => ?_)
        (resumePosting_unnoticed _ _ _ _)
      rw [hTask] at h
      cases h

end Running

theorem Broker.step_sweeps (s : Broker) {writer : Audit.AuditLog} (hWriter : s.writer = some writer)
    (w : Wiring) (env : Nextcloud.Environment) (act : Act) (hAct : act ≠ .restart)
    (hSends : ∀ index outcome, act = .resume index outcome → ∃ eventId, outcome = .ok eventId) :
    s.Sweeps w env act (s.step w env act) := by
  cases act with
  | restart => exact absurd rfl hAct
  | wait =>
    refine Broker.sweeps_idle ?_ (.refl _) trivial
    rw [Broker.step_running hWriter]
    rfl
  | sweep => exact s.sweep_sweeps hWriter
  | call surface tool => exact s.call_sweeps hWriter surface tool
  | event event => exact s.event_sweeps hWriter event
  | resume index outcome =>
    obtain ⟨eventId, rfl⟩ := hSends index outcome rfl
    exact s.resume_sweeps hWriter index eventId

theorem Broker.step_running_kept {s : Broker} (hRunning : s.writer.isSome = true) {act : Act}
    (hAct : act ≠ .restart) : (s.step w env act).writer.isSome = true := by
  obtain ⟨writer, hWriter⟩ := Option.isSome_iff_exists.mp hRunning
  rw [Broker.step_running hWriter]
  cases act with
  | restart => exact absurd rfl hAct
  | wait => exact hRunning
  | sweep =>
    rw [Broker.handle, Broker.perform_writer]
    exact hRunning
  | resume index outcome =>
    rw [Broker.handle]
    split
    · exact hRunning
    · rw [Broker.perform_writer]
      exact hRunning
  | event event =>
    rw [Broker.handle, Broker.onEvent]
    split
    · exact hRunning
    split
    · exact hRunning
    cases event.content with
    | reaction reactsTo key =>
      rw [Broker.dispatch, Broker.perform_writer, Broker.see_writer]
      exact hRunning
    | message body =>
      rw [Broker.dispatch]
      split
      · rw [Broker.see_writer]
        exact hRunning
      · rw [Broker.perform_writer, Broker.see_writer]
        exact hRunning
  | call surface tool =>
    rw [Broker.handle]
    unfold Broker.call
    split
    · exact hRunning
    split
    · rw [Broker.perform_writer]
      exact hRunning
    · rw [Broker.perform_writer]
      exact hRunning
    · split
      · exact hRunning
      · rename_i op _
        rw [Broker.operate, Option.isSome_map]
        exact Nextcloud.operation_keepsLog op ⟨some ⟨writer, s.files⟩, s.desk.asked, s.trace⟩ rfl

/-! ## What was decided -/

def SettlesGrants (d d' : Desk) : Prop := d.db.KeepsSettled d'.db

instance : Std.Refl SettlesGrants where
  refl d := Std.Refl.refl d.db

instance : IsTrans Desk SettlesGrants where
  trans _ _ _ h h' rid row hRow hState := by
    obtain ⟨row', hRow', hState'⟩ := h rid row hRow hState
    exact h' rid row' hRow' hState'

theorem settled_follows : Follows w env SettlesGrants (fun _ => True) fun _ => True := by
  have hDatabase {α : Type} {op : Effect Database GrantError α}
      (h : Effect.Along Database.KeepsSettled op) : Effect.Along SettlesGrants (onDatabase op) :=
    fun d => h d.db
  have hConforms : Conforms w.layer.store env.clock SettlesGrants fun _ => True := by
    refine ⟨fun d => Std.Refl.refl d.db, fun f hDb _ d => ?_, ?_, ?_, ?_⟩
    · rw [SettlesGrants, Effect.modify_run, hDb]
      exact Std.Refl.refl d.db
    · exact fun _ _ _ _ _ => hDatabase <| approve_along fun _ _ _ h => h.keepsSettled
    · exact fun _ _ => hDatabase <| reject_along fun _ _ _ h => h.keepsSettled
    · exact fun _ _ => hDatabase <| revoke_along fun _ _ _ h => h.keepsSettled
  refine ⟨hConforms.handles, fun _ _ _ _ d => ?_, fun eventId rid d => ?_, fun d _ _ => ?_, fun d => ?_⟩
  · exact Database.keepsSettled_of_rows fun _ _ hRow => createRequest_keeps hRow
  · have hSame := recordPosted_grants eventId rid d
    rw [SameGrants] at hSame
    refine Database.keepsSettled_of_rows fun other row hRow => ?_
    rw [hSame]
    exact hRow
  · exact Std.Refl.refl d.db
  · exact Database.keepsSettled_update fun _ row _ => row.discard_state

variable (w env) in
theorem run_settled (s : Broker) (acts : List Act) :
    SettlesGrants s.desk (Machine.run (Broker.step w env) s acts).desk :=
  @Machine.run_relation _ _ (Broker.step w env) (fun s s' => SettlesGrants s.desk s'.desk)
    (fun _ => Std.Refl.refl _) (fun _ _ _ => IsTrans.trans _ _ _)
    (fun s act => s.step_follows act settled_follows (fun _ _ => trivial) fun _ _ => trivial) s acts

end AccessBroker.System
