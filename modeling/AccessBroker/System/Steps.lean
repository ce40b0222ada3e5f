import Mathlib.Data.List.Perm.Basic
import AccessBroker.MatrixBot.Settling
import AccessBroker.Nextcloud.Verbs
import AccessBroker.System

/-! # What one step of the broker can do

Between two states of the broker: which handlers are still posting a request,
and what the store and the clock show. A file operation only asks questions; the
handlers settle, store a request that they go on to post, or are in the middle
of posting one.
-/

namespace AccessBroker.System
open Py Grants MatrixBot Server
set_option autoImplicit false

variable {w : Wiring} {env : Nextcloud.Environment}

/-! ## Handlers in flight -/

theorem Broker.perform_desk (s : Broker) (handler : Handler Progress) :
    (s.perform handler).desk = (handler.run s.desk).2 := by
  rw [Broker.perform]
  split
  · rename_i hRun
    rw [hRun]
  · rename_i hRun
    rw [hRun]

@[simp] theorem Broker.see_desk (s : Broker) (eventId : Text) : (s.see eventId).desk = s.desk := by
  rw [Broker.see]
  split <;> rfl

@[simp] theorem Broker.see_tasks (s : Broker) (eventId : Text) :
    (s.see eventId).tasks = s.tasks := by
  rw [Broker.see]
  split <;> rfl

@[simp] theorem Broker.see_writer (s : Broker) (eventId : Text) :
    (s.see eventId).writer = s.writer := by
  rw [Broker.see]
  split <;> rfl

@[simp] theorem Broker.perform_writer (s : Broker) (handler : Handler Progress) :
    (s.perform handler).writer = s.writer := by
  rw [Broker.perform]
  split <;> rfl

@[simp] theorem Broker.perform_trace (s : Broker) (handler : Handler Progress) :
    (s.perform handler).trace = s.trace := by
  rw [Broker.perform]
  split <;> rfl

/-- What a handler that has been run is waiting for. -/
def waitsFor : Except BotError Progress → List Pause
  | .ok (.awaits pause) => [pause]
  | _ => []

@[simp] theorem waitsFor_awaits (pause : Pause) : waitsFor (.ok (.awaits pause)) = [pause] := rfl

@[simp] theorem waitsFor_returns (answer : Option Answer) :
    waitsFor (.ok (.returns answer)) = [] := rfl

@[simp] theorem waitsFor_error (err : BotError) : waitsFor (.error err) = [] := rfl

theorem Broker.perform_tasks (s : Broker) (handler : Handler Progress) :
    (s.perform handler).tasks = s.tasks ++ waitsFor (handler.run s.desk).1 := by
  rw [Broker.perform]
  rcases handler.run s.desk with ⟨err | progress, desk⟩
  · exact (List.append_nil _).symm
  · cases progress with
    | awaits pause => rfl
    | returns answer => exact (List.append_nil _).symm

def posts : Pause → Bool
  | .posting _ _ _ => true
  | _ => false

def Broker.postings (s : Broker) : List Pause := s.tasks.filter posts

theorem Broker.perform_postings (s : Broker) (handler : Handler Progress) :
    (s.perform handler).postings =
      s.postings ++ (waitsFor (handler.run s.desk).1).filter posts := by
  rw [Broker.postings, Broker.perform_tasks, List.filter_append, Broker.postings]

theorem filter_waitsFor_quiet {result : Except BotError Progress}
    (h : ∀ progress, result = .ok progress → progress.Quiet) :
    (waitsFor result).filter posts = [] := by
  rcases result with err | progress
  · rfl
  · have hQuiet := h progress rfl
    cases progress with
    | returns answer => rfl
    | awaits pause =>
      cases pause with
      | posting req stage caller => exact hQuiet.elim
      | sending message => rfl
      | noticing rid rest => rfl

/-! ## Steps -/

variable (w env)

inductive Broker.Does (s : Broker) : Act → Broker → Prop where
  | settles {act : Act} {s' : Broker} (running : s'.writer.isSome = true → s.writer.isSome = true)
      (desk : s.desk.Settles s'.desk) (postings : s'.postings.Perm s.postings) : Does s act s'
  | opens {act : Act} {s' : Broker} {req : GrantRecord} {caller : Caller}
      (running : s'.writer.isSome = true → s.writer.isSome = true)
      (desk : s.desk.Opens req s'.desk)
      (postings : s'.postings = s.postings ++ [.posting req .message caller]) : Does s act s'
  | continues {index : Nat} {outcome : Except SendError Text} {s' : Broker} {req : GrantRecord}
      {stage : Posting} {caller : Caller} {others : List Pause}
      (running : s'.writer.isSome = true → s.writer.isSome = true)
      (task : s.tasks[index]? = some (.posting req stage caller))
      (desk : s'.desk =
        ((resumePosting w.layer.store env.clock req stage outcome caller).run s.desk).2)
      (before : s.postings.Perm (.posting req stage caller :: others))
      (after : s'.postings = others ++ (waitsFor ((resumePosting w.layer.store env.clock req stage
        outcome caller).run s.desk).1).filter posts) : Does s (.resume index outcome) s'
  | restarts {act : Act} {s' : Broker} (desk : s.desk.Settles s'.desk) (idle : s'.tasks = [])
      (discarded : s'.writer.isSome = true → s'.desk.db = restartDiscardPending s.desk.db) :
      Does s act s'

variable {w env}

theorem Broker.does_settled {s : Broker} {act : Act} {handler : Handler Progress}
    (h : Settled s.desk (handler.run s.desk)) : s.Does w env act (s.perform handler) := by
  apply Broker.Does.settles
  · rw [Broker.perform_writer]
    exact id
  · rw [Broker.perform_desk]
    exact h.desk
  · rw [Broker.perform_postings, filter_waitsFor_quiet h.quiet, List.append_nil]

theorem Broker.does_opened {s : Broker} {act : Act} {handler : Handler Progress} {caller : Caller}
    (h : Opened caller s.desk (handler.run s.desk)) : s.Does w env act (s.perform handler) := by
  obtain ⟨req, hResult, hOpens⟩ := h
  have hPostings : (s.perform handler).postings =
      s.postings ++ [.posting req .message caller] := by
    rw [Broker.perform_postings, hResult]
    rfl
  refine Broker.Does.opens ?_ ?_ hPostings
  · rw [Broker.perform_writer]
    exact id
  · rw [Broker.perform_desk]
    exact hOpens

theorem Broker.does_idle {s s' : Broker} {act : Act} (hDesk : s.desk.Settles s'.desk)
    (hTasks : s'.tasks = s.tasks) (hWriter : s'.writer.isSome = true → s.writer.isSome = true) :
    s.Does w env act s' := by
  apply Broker.Does.settles hWriter hDesk
  rw [Broker.postings, hTasks, Broker.postings]

theorem Broker.Does.of_see {s s' : Broker} {act : Act} (eventId : Text)
    (h : (s.see eventId).Does w env act s') : s.Does w env act s' := by
  have hPostings : (s.see eventId).postings = s.postings := by
    rw [Broker.postings, Broker.see_tasks, Broker.postings]
  cases h with
  | settles running desk postings =>
    rw [Broker.see_writer] at running
    rw [Broker.see_desk] at desk
    rw [hPostings] at postings
    exact .settles running desk postings
  | opens running desk postings =>
    rw [Broker.see_writer] at running
    rw [Broker.see_desk] at desk
    rw [hPostings] at postings
    exact .opens running desk postings
  | continues running task desk before after =>
    rw [Broker.see_writer] at running
    rw [Broker.see_tasks] at task
    rw [Broker.see_desk] at desk after
    rw [hPostings] at before
    exact .continues running task desk before after
  | restarts desk idle discarded =>
    rw [Broker.see_desk] at desk discarded
    exact .restarts desk idle discarded

theorem Broker.onEvent_does (s : Broker) (event : RoomEvent) :
    s.Does w env (.event event) (s.onEvent w env event) := by
  rw [Broker.onEvent]
  split
  · exact s.does_idle (Std.Refl.refl _) rfl id
  split
  · exact s.does_idle (Std.Refl.refl _) rfl id
  apply Broker.Does.of_see event.eventId
  cases event.content with
  | reaction reactsTo key => exact Broker.does_settled (handleReaction_settled _ _ _ _)
  | message body =>
    rw [Broker.dispatch]
    split
    · exact Broker.does_idle (Std.Refl.refl _) rfl id
    · rcases handleReply_cases w.layer.store w.bot env.clock event.sender body
        (s.see event.eventId).desk with hSettled | hOpened
      · exact Broker.does_settled hSettled
      · exact Broker.does_opened hOpened

theorem Broker.call_does (s : Broker) (writer : Audit.AuditLog)
    (hWriter : s.writer = some writer) (surface : Surface) (tool : Tool) :
    s.Does w env (.call surface tool) (s.call w env writer surface tool) := by
  have hRunning : s.writer.isSome = true := by rw [hWriter]; rfl
  unfold Broker.call
  split
  · exact s.does_idle (Std.Refl.refl _) rfl id
  split
  · rename_i instanceName reason items _
    rcases requestAccess_cases w.layer.store env.clock instanceName reason items
      s.desk with ⟨cause, hRun⟩ | hOpened
    · apply Broker.does_settled
      rw [hRun]
      refine ⟨settles_asked s.desk 1, fun progress hProgress => ?_⟩
      cases hProgress
      trivial
    · exact Broker.does_opened hOpened
  · apply Broker.does_settled
    apply settled_of
    · exact .bind (settles_conforms.handles.checkAccess _) fun _ => .pure _
    · apply Effect.Yields.bind
      intro grants
      exact .pure trivial
  · split
    · exact s.does_idle (Std.Refl.refl _) rfl id
    · rename_i op _
      exact s.does_idle ⟨Nextcloud.operation_asks op ⟨some ⟨writer, s.files⟩, s.desk.asked, s.trace⟩,
        Std.Refl.refl s.desk.db⟩ rfl fun _ => hRunning

theorem Broker.restart_does (s : Broker) (act : Act) : s.Does w env act (s.restart w) := by
  rw [Broker.restart]
  split
  · exact .restarts (Std.Refl.refl _) rfl fun hRunning => by cases hRunning
  · exact .restarts ⟨le_refl _, restart_settles _⟩ rfl fun _ => rfl

theorem erased_filter (p : Pause → Bool) {tasks : List Pause} {index : Nat} {pause : Pause}
    (hTask : tasks[index]? = some pause) :
    (tasks.filter p).Perm ([pause].filter p ++ (tasks.eraseIdx index).filter p) := by
  obtain ⟨hIndex, rfl⟩ := List.getElem?_eq_some_iff.mp hTask
  rw [← List.filter_append]
  exact (List.getElem_cons_eraseIdx_perm hIndex).symm.filter p

theorem Broker.resume_does (s : Broker) (index : Nat) (outcome : Except SendError Text)
    {pause : Pause} (hTask : s.tasks[index]? = some pause) :
    s.Does w env (.resume index outcome) ({ s with tasks := s.tasks.eraseIdx index }.perform
      (Server.resume w.layer.store env.clock pause outcome)) := by
  have hErased := erased_filter posts hTask
  have hQuiet (hPause : posts pause = false)
      (hSettled : Settled s.desk
        ((Server.resume w.layer.store env.clock pause outcome).run s.desk)) :
      s.Does w env (.resume index outcome) ({ s with tasks := s.tasks.eraseIdx index }.perform
        (Server.resume w.layer.store env.clock pause outcome)) := by
    apply Broker.Does.settles
    · rw [Broker.perform_writer]
      exact id
    · rw [Broker.perform_desk]
      exact hSettled.desk
    · rw [Broker.perform_postings, filter_waitsFor_quiet hSettled.quiet, List.append_nil]
      rw [List.filter_singleton, hPause] at hErased
      exact hErased.symm
  cases pause with
  | sending message =>
    exact hQuiet rfl (resume_settled (fun _ _ _ h => by cases h) s.desk)
  | noticing rid rest =>
    exact hQuiet rfl (resume_settled (fun _ _ _ h => by cases h) s.desk)
  | posting req stage caller =>
    apply Broker.Does.continues
    · rw [Broker.perform_writer]
      exact id
    · exact hTask
    · rw [Broker.perform_desk]
      rfl
    · exact hErased
    · exact Broker.perform_postings _ _

theorem Broker.step_does (s : Broker) (w : Wiring) (env : Nextcloud.Environment) (act : Act) :
    s.Does w env act (s.step w env act) := by
  unfold Broker.step
  split
  · rename_i writer hWriter
    cases act with
    | wait => exact s.does_idle (settles_asked s.desk 1) rfl id
    | call surface tool => exact s.call_does writer hWriter surface tool
    | event event => exact s.onEvent_does event
    | sweep => exact Broker.does_settled (sweep_settled s.desk)
    | resume index outcome =>
      rw [Broker.handle]
      split
      · exact s.does_idle (Std.Refl.refl _) rfl id
      · rename_i pause hTask
        exact s.resume_does index outcome hTask
    | restart => exact s.restart_does _
  · split
    · exact s.restart_does _
    · exact s.does_idle (settles_asked s.desk 1) rfl id
    · exact s.does_idle (Std.Refl.refl _) rfl id

/-! ## A small broker -/

def smallWiring : Wiring where
  platform := ⟨id, id, id⟩
  floats := Json.FloatFormat.verbatim
  closeMatch := fun _ => none
  decode := fun _ => some []
  layer := ⟨⟨defaultPendingTimeout, defaultGrantDuration, some ["nc".toList]⟩,
    [("nc".toList, ⟨none⟩)], [], some "agent".toList⟩
  matrix := ⟨.text "https://x".toList, "@bot:x".toList, "t".toList, "!room:x".toList,
    "@owner:x".toList, by decide⟩

/-- Every question gets a pleasing answer, at a clock that counts them. -/
def smallEnvironment : Nextcloud.Environment :=
  ⟨fun n => n, fun _ => "t".toList, fun _ => (.completes, .completes),
    fun _ => .ok ⟨true, some [], some "lock".toList, true⟩⟩

def postedRequest : List Act :=
  [.restart, .call .agent (.requestAccess "nc".toList (some "why".toList)
      [⟨some "docs".toList, some Paths.READ⟩])] ++
    List.replicate 5 (.resume 0 (.ok "$m".toList))

end AccessBroker.System
