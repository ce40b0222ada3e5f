import AccessBroker.System.Steps

/-! # Pending requests and their messages

A request is pending from before its message is sent until after the message is
recorded, so in between some handler must be posting it. The rollback of the
request tool keeps this when a send fails; an undo has no rollback.
-/

namespace AccessBroker.System
open Py Grants MatrixBot Server
set_option autoImplicit false

def sentEvent : Pause → Option Text
  | .posting _ (.reaction eventId _ _) _ => some eventId
  | _ => none

def requestOf : Pause → Option Nat
  | .posting req _ _ => some req.id
  | _ => none

/-- The events that are or are about to be recorded as posted. -/
def Broker.eventIds (s : Broker) : List Text :=
  s.desk.db.posted.map Prod.fst ++ s.postings.filterMap sentEvent

def Broker.NamesFresh (s : Broker) : Act → Prop
  | .resume index (.ok eventId) =>
    match s.tasks[index]? with
    | some (.posting _ .message _) => eventId ∉ s.eventIds
    | _ => True
  | _ => True

instance (s : Broker) (act : Act) : Decidable (s.NamesFresh act) := by
  unfold Broker.NamesFresh
  split
  · split <;> infer_instance
  · infer_instance

/-- A send fails with one of the three exceptions that stand for an unreachable room. -/
def FailsUnreachable : Act → Prop
  | .resume _ (.error cause) => cause.unreachable = true
  | _ => True

instance (act : Act) : Decidable (FailsUnreachable act) := by
  unfold FailsUnreachable
  split <;> infer_instance

section

variable (w : Wiring) (env : Nextcloud.Environment)

/-- No send fails that posts the request of an undo while it is still pending. -/
def Broker.SparesUndone (s : Broker) : Act → Prop
  | .resume index (.error _) =>
    match s.tasks[index]? with
    | some (.posting req _ .undo) => ¬ s.desk.Pending w.layer.store env.clock req.id
    | _ => True
  | _ => True

instance (s : Broker) (act : Act) : Decidable (s.SparesUndone w env act) := by
  unfold Broker.SparesUndone
  split
  · split <;> infer_instance
  · infer_instance

def Broker.Distinct (s : Broker) : Prop := s.eventIds.Nodup

/-- While a process runs, every pending request is posted or being posted. -/
def Broker.Covered (s : Broker) : Prop :=
  s.writer.isSome = true → ∀ rid, s.desk.Pending w.layer.store env.clock rid →
    (∃ eventId, requestForEvent eventId s.desk.db = some rid) ∨
      ∃ pause ∈ s.postings, requestOf pause = some rid

end

variable {w : Wiring} {env : Nextcloud.Environment} {s s' : Broker}

/-! ## Distinct events -/

theorem eventIds_perm {posted : List (Text × Nat)} {others : List Pause} {pause : Pause}
    (hPosted : s.desk.db.posted = posted) (hPerm : s.postings.Perm (pause :: others)) :
    s.eventIds.Perm
      (posted.map Prod.fst ++ ((sentEvent pause).toList ++ others.filterMap sentEvent)) := by
  rw [Broker.eventIds, hPosted]
  apply List.Perm.append_left
  refine (hPerm.filterMap sentEvent).trans ?_
  rw [List.filterMap_cons]
  cases sentEvent pause <;> exact List.Perm.refl _

section Sent

variable {req : GrantRecord} {stage : Posting} {caller : Caller} {others : List Pause}

variable (w env) in
/-- After a send that went well, the posting goes on under the id of its message, or records it. -/
theorem posting_sent_cases (hDistinct : s.Distinct)
    (hBefore : s.postings.Perm (.posting req stage caller :: others)) (sent : Text) :
    (∃ stage', (resumePosting w.layer.store env.clock req stage (.ok sent) caller).run s.desk =
        (.ok (.awaits (.posting req stage' caller)), s.desk) ∧
      (stage = .message ∧ sentEvent (.posting req stage' caller) = some sent ∨
        sentEvent (.posting req stage' caller) = sentEvent (.posting req stage caller))) ∨
    ∃ eventId emoji, stage = .reaction eventId emoji [] ∧
      s.desk.db.posted.lookup eventId = none ∧
      (resumePosting w.layer.store env.clock req stage (.ok sent) caller).run s.desk =
        (.ok (.returns (caller.answer req.id)), { s.desk with
          db := { s.desk.db with posted := s.desk.db.posted ++ [(eventId, req.id)] } }) := by
  cases stage with
  | message => exact Or.inl ⟨_, resumePosting_message req sent caller s.desk, Or.inl ⟨rfl, rfl⟩⟩
  | reaction eventId emoji rest =>
    cases rest with
    | cons next rest =>
      exact Or.inl ⟨_, resumePosting_reaction req eventId emoji next sent rest caller s.desk,
        Or.inr rfl⟩
    | nil =>
      have hUnique := (eventIds_perm rfl hBefore).nodup_iff.mp hDistinct
      have hNew : eventId ∉ s.desk.db.posted.map Prod.fst ++ others.filterMap sentEvent :=
        (List.nodup_cons.mp (List.perm_middle.nodup_iff.mp hUnique)).1
      have hLookup : s.desk.db.posted.lookup eventId = none := by
        rw [List.lookup_eq_none_iff]
        intro entry hEntry
        rw [bne_iff_ne]
        rintro rfl
        exact hNew (List.mem_append_left _ (List.mem_map_of_mem hEntry))
      exact Or.inr ⟨eventId, emoji, rfl, hLookup,
        resumePosting_recorded req eventId emoji sent caller s.desk hLookup⟩

theorem Broker.Distinct.sent (h : s.Distinct) {sent : Text}
    (hFresh : stage = .message → sent ∉ s.eventIds)
    (hDesk : s'.desk =
      ((resumePosting w.layer.store env.clock req stage (.ok sent) caller).run s.desk).2)
    (hBefore : s.postings.Perm (.posting req stage caller :: others))
    (hAfter : s'.postings = others ++ (waitsFor ((resumePosting w.layer.store env.clock req stage
      (.ok sent) caller).run s.desk).1).filter posts) : s'.Distinct := by
  have hPerm := eventIds_perm rfl hBefore
  have hUnique := hPerm.nodup_iff.mp h
  rcases posting_sent_cases w env h hBefore sent with
    ⟨stage', hRun, hSent⟩ | ⟨eventId, emoji, rfl, _, hRun⟩
  · rw [hRun] at hDesk hAfter
    have hNext : s'.postings.Perm (.posting req stage' caller :: others) := by
      rw [hAfter]
      exact List.perm_append_singleton _ _
    apply (eventIds_perm (congrArg (fun d => d.db.posted) hDesk) hNext).nodup_iff.mpr
    rcases hSent with ⟨rfl, hNamed⟩ | hSame
    · have hNew := hFresh rfl
      rw [hPerm.mem_iff] at hNew
      rw [hNamed]
      exact List.perm_middle.nodup_iff.mpr (List.nodup_cons.mpr ⟨hNew, hUnique⟩)
    · rw [hSame]
      exact hUnique
  · rw [hRun] at hDesk hAfter
    rw [waitsFor_returns, List.filter_nil, List.append_nil] at hAfter
    rw [Broker.Distinct, Broker.eventIds, hAfter, hDesk, List.map_append, List.append_assoc]
    exact hUnique

end Sent

/-- A send that failed is not followed by another send of the same posting. -/
theorem resumePosting_error_settled (store : Settings) (clock : Nat → Int) (req : GrantRecord)
    (stage : Posting) (cause : SendError) (caller : Caller) (d : Desk) :
    Settled d ((resumePosting store clock req stage (.error cause) caller).run d) := by
  cases caller with
  | undo =>
    rw [resumePosting_undo_failed]
    exact ⟨Std.Refl.refl d, fun progress hProgress => by cases hProgress⟩
  | requestAccess =>
    rw [resumePosting_failed]
    apply settled_of (settles_conforms.handles.rollBack _ _)
    rw [rollBack]
    split
    · apply Effect.Yields.bind
      intro record
      exact .pure trivial
    · exact .raise

theorem Broker.Distinct.step (h : s.Distinct) (w : Wiring) (env : Nextcloud.Environment)
    {act : Act} (hFresh : s.NamesFresh act) : (s.step w env act).Distinct := by
  have hDoes := s.step_does w env act
  generalize s.step w env act = s' at hDoes
  cases hDoes with
  | settles running desk postings =>
    have hPerm : s'.eventIds.Perm s.eventIds := by
      rw [Broker.eventIds, Broker.eventIds, desk.db.posted]
      exact (postings.filterMap sentEvent).append_left _
    exact hPerm.nodup_iff.mpr h
  | opens running desk postings =>
    rename_i req caller
    have hNone : List.filterMap sentEvent [.posting req .message caller] = [] := rfl
    rw [Broker.Distinct, Broker.eventIds, desk.posted, postings, List.filterMap_append, hNone,
      List.append_nil]
    exact h
  | continues running task desk before after =>
    rename_i index outcome req stage caller others
    cases outcome with
    | ok sent =>
      apply h.sent _ desk before after
      rintro rfl
      rw [Broker.NamesFresh, task] at hFresh
      exact hFresh
    | error cause =>
      have hSettled := resumePosting_error_settled w.layer.store env.clock
        req stage cause caller s.desk
      rw [filter_waitsFor_quiet hSettled.quiet, List.append_nil] at after
      have hPosted := hSettled.desk.db.posted
      rw [← desk] at hPosted
      have hUnique := (eventIds_perm rfl before).nodup_iff.mp h
      rw [Broker.Distinct, Broker.eventIds, after, hPosted]
      exact List.Nodup.sublist ((List.sublist_append_right _ _).append_left _) hUnique
  | restarts desk idle discarded =>
    have hPostings : s'.postings = [] := by rw [Broker.postings, idle, List.filter_nil]
    rw [Broker.Distinct, Broker.eventIds, desk.db.posted, hPostings, List.filterMap_nil,
      List.append_nil]
    exact List.Nodup.sublist (List.sublist_append_left _ _) h

theorem run_distinct (w : Wiring) (env : Nextcloud.Environment) {acts : List Act}
    (hFresh : Machine.EveryStep (Broker.step w env) Broker.NamesFresh Broker.start acts) :
    Machine.EveryState (Broker.step w env) Broker.Distinct Broker.start acts := by
  have hStart : Broker.start.Distinct := List.nodup_nil
  apply Machine.everyState_of_everyStep _ hStart hFresh
  intro s act h hNames
  exact h.step w env hNames

/-! ## Covered requests -/

theorem Broker.Covered.settle (hClock : Monotone env.clock) (h : s.Covered w env)
    (hRunning : s'.writer.isSome = true → s.writer.isSome = true)
    (hSettles : s.desk.Settles s'.desk)
    (hPostings : ∀ pause ∈ s.postings, ∀ rid, requestOf pause = some rid →
      s'.desk.Pending w.layer.store env.clock rid →
        ∃ other ∈ s'.postings, requestOf other = some rid) :
    s'.Covered w env := by
  intro hRuns rid hPending
  rcases h (hRunning hRuns) rid (hSettles.pending_before hClock hPending) with
    ⟨eventId, hEvent⟩ | ⟨pause, hPause, hRequest⟩
  · refine Or.inl ⟨eventId, ?_⟩
    rw [requestForEvent, hSettles.db.posted]
    exact hEvent
  · exact Or.inr (hPostings pause hPause rid hRequest hPending)

section Continuing

variable {req : GrantRecord} {stage : Posting} {caller : Caller} {others : List Pause}

theorem request_of_posting (hBefore : s.postings.Perm (.posting req stage caller :: others))
    {pause : Pause} (hPause : pause ∈ s.postings) {rid : Nat} (hRequest : requestOf pause = some rid) :
    rid = req.id ∨ pause ∈ others := by
  rcases List.mem_cons.mp (hBefore.mem_iff.mp hPause) with rfl | hOther
  · cases hRequest
    exact Or.inl rfl
  · exact Or.inr hOther

theorem Broker.Covered.drop (hClock : Monotone env.clock) (h : s.Covered w env)
    (hRunning : s'.writer.isSome = true → s.writer.isSome = true)
    (hSettles : s.desk.Settles s'.desk)
    (hBefore : s.postings.Perm (.posting req stage caller :: others)) (hAfter : s'.postings = others)
    (hGone : ¬ s'.desk.Pending w.layer.store env.clock req.id) : s'.Covered w env := by
  apply h.settle hClock hRunning hSettles
  intro pause hPause rid hRequest hPending
  rcases request_of_posting hBefore hPause hRequest with rfl | hOther
  · exact absurd hPending hGone
  · exact ⟨pause, by rw [hAfter]; exact hOther, hRequest⟩

theorem Broker.Covered.sent (hClock : Monotone env.clock) (h : s.Covered w env)
    (hDistinct : s.Distinct) (hRunning : s'.writer.isSome = true → s.writer.isSome = true)
    {sent : Text}
    (hDesk : s'.desk =
      ((resumePosting w.layer.store env.clock req stage (.ok sent) caller).run s.desk).2)
    (hBefore : s.postings.Perm (.posting req stage caller :: others))
    (hAfter : s'.postings = others ++ (waitsFor ((resumePosting w.layer.store env.clock req stage
      (.ok sent) caller).run s.desk).1).filter posts) : s'.Covered w env := by
  rcases posting_sent_cases w env hDistinct hBefore sent with
    ⟨stage', hRun, _⟩ | ⟨eventId, emoji, rfl, hLookup, hRun⟩
  · rw [hRun] at hDesk hAfter
    have hNext : s'.postings.Perm (.posting req stage' caller :: others) := by
      rw [hAfter]
      exact List.perm_append_singleton _ _
    have hSettles : s.desk.Settles s'.desk := by
      rw [hDesk]
      exact Std.Refl.refl _
    apply h.settle hClock hRunning hSettles
    intro pause hPause rid hRequest _
    rcases request_of_posting hBefore hPause hRequest with rfl | hOther
    · exact ⟨_, hNext.mem_iff.mpr List.mem_cons_self, rfl⟩
    · exact ⟨pause, hNext.mem_iff.mpr (List.mem_cons_of_mem _ hOther), hRequest⟩
  · rw [hRun] at hDesk hAfter
    rw [waitsFor_returns, List.filter_nil, List.append_nil] at hAfter
    intro hRuns rid hPending
    rw [hDesk] at hPending
    rw [hDesk, hAfter]
    rcases h (hRunning hRuns) rid hPending with ⟨earlier, hEvent⟩ | ⟨pause, hPause, hRequest⟩
    · refine Or.inl ⟨earlier, ?_⟩
      rw [requestForEvent] at hEvent
      rw [requestForEvent, List.lookup_append, hEvent, Option.some_or]
    · rcases request_of_posting hBefore hPause hRequest with rfl | hOther
      · refine Or.inl ⟨eventId, ?_⟩
        rw [requestForEvent, List.lookup_append, hLookup, Option.none_or]
        simp
      · exact Or.inr ⟨pause, hOther, hRequest⟩

theorem Broker.Covered.rolledBack (hClock : Monotone env.clock) (h : s.Covered w env)
    (hRunning : s'.writer.isSome = true → s.writer.isSome = true) {cause : SendError}
    (hUnreachable : cause.unreachable = true)
    (hDesk : s'.desk = ((rollBack w.layer.store env.clock req.id cause).run s.desk).2)
    (hBefore : s.postings.Perm (.posting req stage .requestAccess :: others))
    (hAfter : s'.postings = others) : s'.Covered w env := by
  have hSettles : s.desk.Settles s'.desk := by
    rw [hDesk]
    exact settles_conforms.handles.rollBack req.id cause s.desk
  refine h.drop hClock hRunning hSettles hBefore hAfter ?_
  by_cases hPending : s.desk.Pending w.layer.store env.clock req.id
  · rw [rollBack_pending hUnreachable hPending] at hDesk
    rw [hDesk]
    rintro ⟨row, hRow, hState⟩
    rw [Database.putGrants_grants, AutoTable.get?_modify, if_pos rfl] at hRow
    obtain ⟨old, _, rfl⟩ := Option.map_eq_some_iff.mp hRow
    cases hState
  · exact fun hLater => hPending (hSettles.pending_before hClock hLater)

end Continuing

theorem Broker.Covered.step (hClock : Monotone env.clock) {act : Act} (h : s.Covered w env)
    (hDistinct : s.Distinct) (hFails : FailsUnreachable act) (hUndo : s.SparesUndone w env act) :
    (s.step w env act).Covered w env := by
  have hDoes := s.step_does w env act
  generalize s.step w env act = s' at hDoes
  cases hDoes with
  | settles running desk postings =>
    apply h.settle hClock running desk
    intro pause hPause rid hRequest _
    exact ⟨pause, postings.mem_iff.mpr hPause, hRequest⟩
  | opens running desk postings =>
    rename_i req caller
    intro hRuns rid hPending
    rw [postings]
    rcases desk.pending_cases hClock hPending with rfl | hBefore
    · exact Or.inr ⟨.posting req .message caller, by simp, rfl⟩
    · rcases h (running hRuns) rid hBefore with ⟨eventId, hEvent⟩ | ⟨pause, hPause, hRequest⟩
      · refine Or.inl ⟨eventId, ?_⟩
        rw [requestForEvent, desk.posted]
        exact hEvent
      · exact Or.inr ⟨pause, List.mem_append_left _ hPause, hRequest⟩
  | continues running task desk before after =>
    rename_i index outcome req stage caller others
    cases outcome with
    | ok sent => exact h.sent hClock hDistinct running desk before after
    | error cause =>
      have hSettled := resumePosting_error_settled w.layer.store env.clock
        req stage cause caller s.desk
      rw [filter_waitsFor_quiet hSettled.quiet, List.append_nil] at after
      cases caller with
      | undo =>
        rw [resumePosting_undo_failed] at desk
        rw [Broker.SparesUndone, task] at hUndo
        apply h.drop hClock running _ before after
        · rw [desk]
          exact hUndo
        · rw [desk]
          exact Std.Refl.refl _
      | requestAccess =>
        rw [resumePosting_failed] at desk
        exact h.rolledBack hClock running hFails desk before after
  | restarts desk idle discarded =>
    rintro hRuns rid ⟨row, hRow, hState⟩
    rw [discarded hRuns] at hRow
    exact absurd (effectiveState_eq_pending.mp hState).1 (restart_not_pending hRow)

theorem start_covered : Broker.start.Covered w env := by
  rintro - rid ⟨row, hRow, _⟩
  cases hRow

/-- In every run in which no send that posts the request of an undo fails while it is still
pending: when no handler is in flight, every pending request has its message recorded. -/
theorem pending_is_posted (w : Wiring) (env : Nextcloud.Environment) (hClock : Monotone env.clock)
    (acts : List Act) (hFails : ∀ act ∈ acts, FailsUnreachable act)
    (hFresh : Machine.EveryStep (Broker.step w env) Broker.NamesFresh Broker.start acts)
    (hUndo : Machine.EveryStep (Broker.step w env) (Broker.SparesUndone w env) Broker.start acts) :
    Machine.EveryState (Broker.step w env)
      (fun s => s.writer.isSome = true → s.tasks = [] →
        ∀ rid, s.desk.Pending w.layer.store env.clock rid →
          ∃ eventId, requestForEvent eventId s.desk.db = some rid)
      Broker.start acts := by
  have hDistinct := run_distinct w env hFresh
  have hCovered : Machine.EveryState (Broker.step w env) (Broker.Covered w env) Broker.start acts := by
    have hEvery : Machine.EveryStep (Broker.step w env)
        (fun s act => s.Distinct ∧ FailsUnreachable act ∧ s.SparesUndone w env act)
        Broker.start acts := by
      intro pre act post hActs
      exact ⟨hDistinct pre (act :: post) hActs, hFails act (by simp [hActs]),
        hUndo pre act post hActs⟩
    apply Machine.everyState_of_everyStep _ start_covered hEvery
    rintro s act h ⟨hDistinct, hFails, hUndo⟩
    exact h.step hClock hDistinct hFails hUndo
  refine hCovered.mono fun s h hRunning hIdle rid hPending => ?_
  refine (h hRunning rid hPending).resolve_right ?_
  rintro ⟨pause, hPause, _⟩
  rw [Broker.postings, hIdle] at hPause
  cases hPause

theorem smallEnvironment_monotone : Monotone smallEnvironment.clock :=
  fun _ _ h => Int.ofNat_le.mpr h

/-- A posted request is rejected and undone, and the message of its successor is posted. -/
def undoneRequest (outcome : Except SendError Text) : List Act :=
  postedRequest ++
    [.event ⟨"!room:x".toList, "$1".toList, "@owner:x".toList, .message "reject 1".toList⟩,
      .resume 0 (.ok "$d".toList),
      .event ⟨"!room:x".toList, "$2".toList, "@owner:x".toList, .message "undo 1".toList⟩,
      .resume 0 outcome]

theorem pending_is_posted_undone :
    Machine.EveryState (Broker.step smallWiring smallEnvironment)
      (fun s => s.writer.isSome = true → s.tasks = [] →
        ∀ rid, s.desk.Pending smallWiring.layer.store smallEnvironment.clock rid →
          ∃ eventId, requestForEvent eventId s.desk.db = some rid)
      Broker.start
      (undoneRequest (.ok "$n".toList) ++ List.replicate 4 (.resume 0 (.ok "$n".toList))) :=
  pending_is_posted smallWiring smallEnvironment smallEnvironment_monotone _ (by decide +kernel)
    (by decide +kernel) (by decide +kernel)

/-- When that send fails, the new request stays pending and no message is recorded for it. -/
theorem undone_request_unposted :
    let acts := undoneRequest (.error ⟨true, "down".toList⟩)
    let s := Machine.run (Broker.step smallWiring smallEnvironment) Broker.start acts
    (∀ act ∈ acts, FailsUnreachable act) ∧
      Machine.EveryStep (Broker.step smallWiring smallEnvironment) Broker.NamesFresh Broker.start
        acts ∧
      s.writer.isSome = true ∧ s.tasks = [] ∧
      s.desk.Pending smallWiring.layer.store smallEnvironment.clock 2 ∧
      ∀ eventId, requestForEvent eventId s.desk.db ≠ some 2 := by
  have hPosted : (Machine.run (Broker.step smallWiring smallEnvironment) Broker.start
      (undoneRequest (.error ⟨true, "down".toList⟩))).desk.db.posted = [("$m".toList, 1)] := by
    decide +kernel
  refine ⟨by decide +kernel, by decide +kernel, by decide +kernel, by decide +kernel,
    by decide +kernel, fun eventId hEvent => ?_⟩
  rw [requestForEvent, hPosted, List.lookup_cons] at hEvent
  split at hEvent <;> cases hEvent

end AccessBroker.System
