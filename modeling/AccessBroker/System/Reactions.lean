import AccessBroker.MatrixBot.Answering
import AccessBroker.System.Posting

/-! # Reactions to a posted request

What is recorded as posted is the message of a stored request, so a decision on
it is answered in the room. Before the record is made, which is after the
message and its reactions are in the room, a decision on it is lost.
-/

namespace AccessBroker.System
open Py Grants MatrixBot Server
set_option autoImplicit false

variable {w : Wiring} {env : Nextcloud.Environment} {s s' : Broker}

/-! ## What posting a request records -/

/-- Only messages of this request were recorded, and no request was forgotten. -/
structure RecordsFor (rid : Nat) (d d' : Desk) : Prop where
  posted : ∀ entry ∈ d'.db.posted, entry ∈ d.db.posted ∨ entry.2 = rid
  known : ∀ other, d.db.Knows other → d'.db.Knows other

instance (rid : Nat) : Std.Refl (RecordsFor rid) where
  refl _ := ⟨fun _ hEntry => Or.inl hEntry, fun _ hKnown => hKnown⟩

instance (rid : Nat) : IsTrans Desk (RecordsFor rid) where
  trans _ _ _ h h' := by
    constructor
    · intro entry hEntry
      exact (h'.posted entry hEntry).elim (h.posted entry) Or.inr
    · intro other hKnown
      exact h'.known other (h.known other hKnown)

theorem settles_recordsFor {rid : Nat} {d d' : Desk} (h : d.Settles d') : RecordsFor rid d d' := by
  constructor
  · intro entry hEntry
    rw [h.db.posted] at hEntry
    exact Or.inl hEntry
  · exact h.db.known

theorem recordPosted_records (eventId : Text) (rid : Nat) :
    Effect.Along (RecordsFor rid) (onDatabase (recordPosted eventId rid)) := by
  intro d
  have hDesk : ((onDatabase (recordPosted eventId rid)).run d).2 =
    { d with db := ((recordPosted eventId rid).run d.db).2 } := rfl
  rw [hDesk]
  rcases recordPosted_cases eventId rid d.db with hRun | ⟨_, hRun⟩ <;> rw [hRun]
  · exact Std.Refl.refl d
  · constructor
    · intro entry hEntry
      rcases List.mem_append.mp hEntry with hEntry | hEntry
      · exact Or.inl hEntry
      · exact Or.inr (by rw [List.mem_singleton.mp hEntry])
    · exact fun _ hKnown => hKnown

theorem rollBack_along {store : Settings} {clock : Nat → Int} (rid : Nat) (cause : SendError) :
    Effect.Along (RecordsFor rid) (rollBack store clock rid cause) :=
  (settles_conforms.handles.rollBack rid cause).mono fun _ _ => settles_recordsFor

theorem resumePosting_records (store : Settings) (clock : Nat → Int) (req : GrantRecord)
    (stage : Posting) (outcome : Except SendError Text) (caller : Caller) :
    Effect.Along (RecordsFor req.id) (resumePosting store clock req stage outcome caller) :=
  resumePosting_along (fun eventId => recordPosted_records eventId req.id)
    (fun cause => rollBack_along req.id cause) stage outcome caller

theorem resumePosting_same {store : Settings} {clock : Nat → Int} (req : GrantRecord)
    (stage : Posting) (outcome : Except SendError Text) (caller : Caller) :
    Effect.Yields (fun progress => ∀ pause, progress = .awaits pause → requestOf pause = some req.id)
      (resumePosting store clock req stage outcome caller) := by
  have hNext (stage' : Posting) : Effect.Yields
      (fun progress => ∀ pause, progress = .awaits pause → requestOf pause = some req.id)
      (return .awaits (.posting req stage' caller) : Handler Progress) := by
    apply Effect.Yields.pure
    rintro pause ⟨⟩
    rfl
  have hReturns (answer : Option Answer) : Effect.Yields
      (fun progress => ∀ pause, progress = .awaits pause → requestOf pause = some req.id)
      (return .returns answer : Handler Progress) := by
    apply Effect.Yields.pure
    rintro pause ⟨⟩
  cases caller with
  | undo =>
    apply Effect.Yields.bind
    intro next
    split
    · exact hNext _
    · exact hReturns _
  | requestAccess =>
    apply Effect.Yields.bind
    intro result
    split
    · exact hNext _
    · exact hReturns _
    · rw [rollBack]
      split
      · exact .bind fun _ => hReturns _
      · exact .raise
    · exact .raise

/-! ## Runs -/

structure Broker.PostsKnown (s : Broker) : Prop where
  posted : ∀ entry ∈ s.desk.db.posted, s.desk.db.Knows entry.2
  postings : ∀ pause ∈ s.postings, ∀ rid, requestOf pause = some rid → s.desk.db.Knows rid

theorem Broker.PostsKnown.step (h : s.PostsKnown) (w : Wiring) (env : Nextcloud.Environment)
    (act : Act) : (s.step w env act).PostsKnown := by
  have hDoes := s.step_does w env act
  generalize s.step w env act = s' at hDoes
  cases hDoes with
  | settles running desk postings =>
    constructor
    · intro entry hEntry
      rw [desk.db.posted] at hEntry
      exact desk.db.known _ (h.posted entry hEntry)
    · intro pause hPause rid hRequest
      exact desk.db.known rid (h.postings pause (postings.mem_iff.mp hPause) rid hRequest)
  | opens running desk postings =>
    constructor
    · intro entry hEntry
      rw [desk.posted] at hEntry
      exact desk.known _ (Or.inr (h.posted entry hEntry))
    · intro pause hPause rid hRequest
      rw [postings] at hPause
      rcases List.mem_append.mp hPause with hPause | hPause
      · exact desk.known rid (Or.inr (h.postings pause hPause rid hRequest))
      · rw [List.mem_singleton.mp hPause] at hRequest
        cases hRequest
        exact desk.known _ (Or.inl rfl)
  | continues running task desk before after =>
    rename_i index outcome req stage caller others
    have hRecords := resumePosting_records w.layer.store env.clock req stage outcome
       caller s.desk
    rw [← desk] at hRecords
    have hReq : s'.desk.db.Knows req.id := by
      apply hRecords.known
      exact h.postings _ (before.mem_iff.mpr List.mem_cons_self) req.id rfl
    constructor
    · intro entry hEntry
      rcases hRecords.posted entry hEntry with hBefore | hSame
      · exact hRecords.known _ (h.posted entry hBefore)
      · rw [hSame]
        exact hReq
    · intro pause hPause rid hRequest
      rw [after] at hPause
      rcases List.mem_append.mp hPause with hPause | hPause
      · apply hRecords.known
        exact h.postings pause (before.mem_iff.mpr (List.mem_cons_of_mem _ hPause)) rid hRequest
      · have hWaits := (List.mem_filter.mp hPause).1
        cases hResult : ((resumePosting w.layer.store env.clock req stage outcome caller).run
          s.desk).1 with
        | error err =>
          rw [hResult] at hWaits
          cases hWaits
        | ok progress =>
          rw [hResult] at hWaits
          cases progress with
          | returns answer => cases hWaits
          | awaits next =>
            rw [waitsFor_awaits, List.mem_singleton] at hWaits
            have hSame := resumePosting_same req stage outcome caller s.desk _ hResult next rfl
            rw [hWaits, hSame] at hRequest
            cases hRequest
            exact hReq
  | restarts desk idle discarded =>
    constructor
    · intro entry hEntry
      rw [desk.db.posted] at hEntry
      exact desk.db.known _ (h.posted entry hEntry)
    · intro pause hPause
      rw [Broker.postings, idle] at hPause
      cases hPause

theorem run_postsKnown (w : Wiring) (env : Nextcloud.Environment) (acts : List Act) :
    (Machine.run (Broker.step w env) Broker.start acts).PostsKnown := by
  apply Machine.run_invariant (I := Broker.PostsKnown)
  · intro s act h
    exact h.step w env act
  · constructor
    · intro entry hEntry
      cases hEntry
    · intro pause hPause
      cases hPause

/-! ## Decisions by reaction -/

/-- The handler sends a message to the room, or changed the state of the request. -/
def Heeded (rid : Nat) (d : Desk) (result : Except BotError Progress × Desk) : Prop :=
  (∃ message, result.1 = .ok (.awaits (.sending message))) ∨
    (result.2.db.grants.get? rid).map Row.state ≠ (d.db.grants.get? rid).map Row.state

def decisionKeys : List Text := [APPROVE_EMOJI, REJECT_EMOJI, REVOKE_EMOJI]

theorem heeded_of_answers {rid : Nat} {d : Desk} {result : Except BotError Progress × Desk}
    (h : Effect.Post (fun progress _ => progress.Says) (fun _ _ => False) result) :
    Heeded rid d result := by
  rcases result with ⟨err | progress, d'⟩
  · exact h.elim
  · cases progress with
    | returns answer => exact h.elim
    | awaits pause =>
      cases pause with
      | sending message => exact Or.inl ⟨message, rfl⟩
      | posting req stage caller => exact h.elim
      | noticing rid' rest => exact h.elim

theorem unrecorded_not_heeded {store : Settings} {bot : Bot} {clock : Nat → Int} {d : Desk}
    {eventId : Text} (hEvent : requestForEvent eventId d.db = none) (rid : Nat)
    (sender key : Text) :
    ¬ Heeded rid d ((handleReaction store bot clock sender eventId key).run d) := by
  have hRun : (handleReaction store bot clock sender eventId key).run d =
      (.ok (.returns none), d) := by
    rw [handleReaction]
    split
    · rfl
    · rw [Effect.bind_ok (Effect.get_run d), hEvent]
      rfl
  rw [hRun]
  rintro (⟨message, hMessage⟩ | hChanged)
  · cases hMessage
  · exact hChanged rfl

/-- In every state of every run, a decision of the approver by reaction to an event is heeded if
and only if the event has been recorded as the message of a request. -/
theorem reaction_heeded_iff (w : Wiring) (env : Nextcloud.Environment) (acts : List Act)
    (eventId : Text) (rid : Nat) (key : Text) (hKey : key ∈ decisionKeys) :
    let s := Machine.run (Broker.step w env) Broker.start acts
    Heeded rid s.desk ((handleReaction w.layer.store w.bot env.clock w.matrix.approver eventId
        key).run s.desk) ↔
      (requestForEvent eventId s.desk.db).isSome = true := by
  intro s
  have hKnown : s.PostsKnown := run_postsKnown w env acts
  have hApprover : ¬ w.matrix.approver ≠ w.bot.approver := fun h => h rfl
  cases hEvent : requestForEvent eventId s.desk.db with
  | none => exact iff_of_false (unrecorded_not_heeded hEvent rid _ key) (by simp)
  | some posted =>
    rw [handleReaction, if_neg hApprover, Effect.bind_ok (Effect.get_run s.desk), hEvent]
    have hPosted : s.desk.Knows posted := by
      obtain ⟨earlier, later, hEntries, _⟩ := List.lookup_eq_some_iff.mp hEvent
      exact hKnown.posted (eventId, posted) (by rw [hEntries]; simp)
    refine iff_of_true (heeded_of_answers ?_) rfl
    dsimp only
    split
    · exact decideRequest_speaks _ none none s.desk hPosted
    split
    · exact decideRequest_speaks _ none none s.desk hPosted
    split
    · exact revokeRequest_speaks s.desk hPosted
    · rename_i hApprove hReject hRevoke
      simp only [decisionKeys, List.mem_cons, List.not_mem_nil, or_false] at hKey
      exact absurd hKey (by simp [hApprove, hReject, hRevoke])

theorem reaction_heeded_iff_posted :
    let s := Machine.run (Broker.step smallWiring smallEnvironment) Broker.start postedRequest
    (Heeded 1 s.desk ((handleReaction smallWiring.layer.store smallWiring.bot
        smallEnvironment.clock smallWiring.matrix.approver "$m".toList APPROVE_EMOJI).run s.desk) ↔
      (requestForEvent "$m".toList s.desk.db).isSome = true) ∧
    requestForEvent "$m".toList s.desk.db = some 1 :=
  ⟨reaction_heeded_iff smallWiring smallEnvironment postedRequest "$m".toList 1 APPROVE_EMOJI
    List.mem_cons_self, by decide +kernel⟩

def requested : List Act := postedRequest.take 2

def theRequest : GrantRecord :=
  ⟨1, "nc".toList, "why".toList, [⟨"docs".toList, Paths.READ⟩], .pending, none, 0, none⟩

def approval : Act :=
  .event ⟨"!room:x".toList, "$1".toList, "@owner:x".toList, .reaction "$m".toList APPROVE_EMOJI⟩

/-- The room has named the message `$m`, and the approver's decisions on it are lost: an
approval is not made up for when it is delivered again after the posting is over. -/
theorem early_reaction_lost :
    let run := Machine.run (Broker.step smallWiring smallEnvironment) Broker.start
    let s := run (requested ++ [.resume 0 (.ok "$m".toList)])
    let later := run (requested ++ .resume 0 (.ok "$m".toList) :: approval ::
      List.replicate 4 (.resume 0 (.ok "$m".toList)) ++ [approval])
    (run requested).tasks[0]? = some (.posting theRequest .message .requestAccess) ∧
      (∀ key ∈ decisionKeys, ¬ Heeded theRequest.id s.desk ((handleReaction
        smallWiring.layer.store smallWiring.bot smallEnvironment.clock smallWiring.matrix.approver
          "$m".toList key).run s.desk)) ∧
      requestForEvent "$m".toList later.desk.db = some theRequest.id ∧
      later.desk.Pending smallWiring.layer.store smallEnvironment.clock theRequest.id := by
  have hUnrecorded : requestForEvent "$m".toList (Machine.run
      (Broker.step smallWiring smallEnvironment) Broker.start
      (requested ++ [.resume 0 (.ok "$m".toList)])).desk.db = none := by decide +kernel
  exact ⟨by decide +kernel, fun key _ => unrecorded_not_heeded hUnrecorded _ _ key,
    by decide +kernel, by decide +kernel⟩

end AccessBroker.System
