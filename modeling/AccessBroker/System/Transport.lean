import AccessBroker.System.Confidentiality
import AccessBroker.System.Undo

/-! # The broker and its servers together

Which requests a run makes depends on the replies so far alone. So against servers of any kind there
is a run in which every request gets the reply of the servers, and only one.
-/

namespace AccessBroker.System
open Py Paths Grants Nextcloud Server
set_option autoImplicit false

variable {σ γ δ π : Type} {w : Wiring} {env : Environment} {replies replies' : Replies}

/-! ## The questions of a step -/

/-- The trace grows by events whose questions were asked in the step. -/
theorem Broker.step_asked (s : Broker) (w : Wiring) (env : Environment) (act : Act) :
    ∃ events, (s.step w env act).trace = s.trace ++ events ∧
      s.desk.asked + (events.map Event.questions).sum ≤ (s.step w env act).desk.asked := by
  by_cases hSilent : ∀ surface tool, act = .call surface tool → s.outcome w env surface tool = none
  · refine ⟨[], ?_, (s.step_narrows w env act).asked⟩
    rw [Broker.step_silent hSilent, List.append_nil]
  push Not at hSilent
  obtain ⟨surface, tool, rfl, hSome⟩ := hSilent
  obtain ⟨result, hOutcome⟩ := Option.ne_none_iff_exists'.mp hSome
  obtain ⟨writer, name, op, hWriter, hTool, hOperation, _⟩ := Broker.outcome_eq_some hOutcome
  have hCounts : Counts ⟨some ⟨writer, s.files⟩, s.desk.asked, s.trace⟩ _ :=
    (operation_together w.platform w.layer s.desk.db env name env.reply env.reply op).along _
  obtain ⟨events, hTrace, hAsked⟩ := hCounts
  rw [Broker.step_operates hWriter hTool hOperation]
  exact ⟨events, hTrace, le_of_eq hAsked.symm⟩

theorem Broker.asked_mono (s : Broker) (w : Wiring) (env : Environment) (acts : List Act) :
    s.desk.asked ≤ (Machine.run (Broker.step w env) s acts).desk.asked :=
  Machine.run_relation (R := fun s s' : Broker => s.desk.asked ≤ s'.desk.asked) (fun _ => le_refl _)
    (fun _ _ _ => Nat.le_trans) (fun s act => (s.step_narrows w env act).asked) s acts

/-- The question of a verb was asked in the step. -/
theorem Broker.verb_asked {s : Broker} {act : Act} {before after : List Nextcloud.Event}
    {name : Text} {call : Verb}
    (hTrace : (s.step w env act).trace = s.trace ++ (before ++ .verb name call :: after)) :
    s.desk.asked + (before.map Event.questions).sum < (s.step w env act).desk.asked := by
  obtain ⟨events, hEvents, hAsked⟩ := s.step_asked w env act
  cases List.append_cancel_left (hTrace.symm.trans hEvents)
  have hVerb : (Event.verb name call).questions = 1 := rfl
  rw [List.map_append, List.sum_append, List.map_cons, List.sum_cons, hVerb] at hAsked
  omega

/-! ## Causality -/

/-- Replies that agree on all that was asked so far have led to the same state. -/
theorem run_agrees (acts : List Act)
    (h : ∀ k < (reached w (env.answering replies) acts).desk.asked, replies k = replies' k) :
    reached w (env.answering replies) acts = reached w (env.answering replies') acts := by
  induction acts using List.reverseRecOn with
  | nil => rw [reached, reached, Machine.run_nil, Machine.run_nil]
  | append_singleton acts act ih =>
    rw [reached_concat] at h ⊢
    rw [reached_concat]
    have hSame : reached w (env.answering replies) acts = reached w (env.answering replies') acts :=
      ih fun k hk => h k (hk.trans_le
        ((reached w (env.answering replies) acts).step_narrows w _ act).asked)
    rw [← hSame]
    refine Broker.step_agrees fun before name call after after' hTrace _ => ?_
    exact h _ (Broker.verb_asked hTrace)

/-- Of two verbs in one trace, the one with the lower number comes first, or they are one. -/
theorem verb_before {before before' after after' : List Nextcloud.Event} {name name' : Text}
    {call call' : Verb}
    (hEvents : before ++ .verb name call :: after = before' ++ .verb name' call' :: after')
    (hCount : (before.map Event.questions).sum ≤ (before'.map Event.questions).sum) :
    (before = before' ∧ name = name' ∧ call = call') ∨
      ∃ rest, before' = before ++ .verb name call :: rest := by
  rcases List.append_eq_append_iff.mp hEvents with ⟨rest, rfl, hRest⟩ | ⟨rest, rfl, hRest⟩
  · cases rest with
    | nil =>
      cases hRest
      exact Or.inl ⟨(List.append_nil _).symm, rfl, rfl⟩
    | cons event rest =>
      cases hRest
      exact Or.inr ⟨rest, rfl⟩
  · cases rest with
    | nil =>
      cases hRest
      exact Or.inl ⟨List.append_nil _, rfl, rfl⟩
    | cons event rest =>
      cases hRest
      have hVerb : (Event.verb name' call').questions = 1 := rfl
      rw [List.map_append, List.sum_append, List.map_cons, List.sum_cons, hVerb] at hCount
      omega

theorem verb_unique {before before' after after' : List Nextcloud.Event} {name name' : Text}
    {call call' : Verb}
    (hEvents : before ++ .verb name call :: after = before' ++ .verb name' call' :: after')
    (hCount : (before.map Event.questions).sum = (before'.map Event.questions).sum) :
    before = before' ∧ name = name' ∧ call = call' := by
  rcases verb_before hEvents hCount.le with hSame | ⟨rest, rfl⟩
  · exact hSame
  · have hVerb : (Event.verb name call).questions = 1 := rfl
    rw [List.map_append, List.sum_append, List.map_cons, List.sum_cons, hVerb] at hCount
    omega

structure Request where
  trace : List Nextcloud.Event
  instanceName : Text
  call : Verb

/-- In the run, the question with the number `n` is the request. -/
inductive Puts (w : Wiring) (env : Environment) (acts : List Act) (n : Nat) (request : Request) :
    Prop where
  | step {pre post : List Act} {act : Act} {before after : List Nextcloud.Event}
      (inRun : acts = pre ++ act :: post)
      (made : ((reached w env pre).step w env act).trace = (reached w env pre).trace ++
        (before ++ .verb request.instanceName request.call :: after))
      (trace : request.trace = (reached w env pre).trace ++ before)
      (number : n = (reached w env pre).desk.asked + (before.map Event.questions).sum)

/-- A request of an earlier step has a lower number than all questions of a later one. -/
theorem asked_before {pre : List Act} {act : Act} (mid : List Act)
    {before after : List Nextcloud.Event} {name : Text} {call : Verb}
    (hMade : ((reached w env pre).step w env act).trace =
      (reached w env pre).trace ++ (before ++ .verb name call :: after)) :
    (reached w env pre).desk.asked + (before.map Event.questions).sum <
      (reached w env (pre ++ act :: mid)).desk.asked := by
  have hLater := ((reached w env pre).step w env act).asked_mono w env mid
  have hRun : reached w env (pre ++ act :: mid) =
      Machine.run (Broker.step w env) ((reached w env pre).step w env act) mid := by
    rw [reached, Machine.run_append]
    rfl
  rw [hRun]
  exact (Broker.verb_asked hMade).trans_le hLater

/-- The next request depends on the replies to the earlier ones alone. -/
theorem puts_causal (w : Wiring) (env : Environment) (acts : List Act) :
    Machine.Causal fun replies => Puts w (env.answering replies) acts where
  earlier := by
    rintro replies replies' n request h ⟨hActs, hMade, hTrace, hNumber⟩
    rename_i pre post act before after
    have hSame : reached w (env.answering replies) pre = reached w (env.answering replies') pre :=
      run_agrees pre fun k hk => h k (by omega)
    by_cases hConcurs : (reached w (env.answering replies) pre).Concurs w env replies replies' act
    · rw [Broker.step_agrees hConcurs] at hMade
      rw [hSame] at hMade hTrace hNumber
      exact ⟨hActs, hMade, hTrace, hNumber⟩
    -- where the two runs part, a later question was answered in two ways
    simp only [Broker.Concurs, Concur, not_forall] at hConcurs
    obtain ⟨before', name', call', after', other, hMade', hOther, hDiffer⟩ := hConcurs
    have hLater : n ≤ (reached w (env.answering replies) pre).desk.asked +
        (before'.map Event.questions).sum := not_lt.mp fun hEarlier => hDiffer (h _ hEarlier)
    have hEvents := List.append_cancel_left (hMade.symm.trans hMade')
    rw [hSame] at hOther hTrace hNumber hLater
    rcases verb_before hEvents (by omega) with ⟨rfl, rfl, rfl⟩ | ⟨rest, rfl⟩
    · exact ⟨hActs, hOther, hTrace, hNumber⟩
    · rw [List.append_assoc] at hOther
      exact ⟨hActs, hOther, hTrace, hNumber⟩
  once := by
    rintro replies n ⟨trace, name, call⟩ ⟨trace', name', call'⟩ ⟨hActs, hMade, hTrace, hNumber⟩
      ⟨hActs', hMade', hTrace', hNumber'⟩
    rename_i pre post act before after pre' post' act' before' after'
    dsimp only at hMade hTrace hMade' hTrace'
    rcases List.append_eq_append_iff.mp (hActs.symm.trans hActs') with
      ⟨rest, rfl, hRest⟩ | ⟨rest, rfl, hRest⟩
    · cases rest with
      | nil =>
        cases hRest
        rw [List.append_nil] at hMade' hTrace' hNumber'
        obtain ⟨rfl, rfl, rfl⟩ :=
          verb_unique (List.append_cancel_left (hMade.symm.trans hMade')) (by omega)
        rw [hTrace, hTrace']
      | cons other mid =>
        cases hRest
        have hFirst := asked_before mid hMade
        omega
    · cases rest with
      | nil =>
        cases hRest
        rw [List.append_nil] at hMade hTrace hNumber
        obtain ⟨rfl, rfl, rfl⟩ :=
          verb_unique (List.append_cancel_left (hMade.symm.trans hMade')) (by omega)
        rw [hTrace, hTrace']
      | cons other mid =>
        cases hRest
        have hFirst := asked_before mid hMade'
        omega

/-! ## Runs against servers -/

theorem gives_of_replies {servers : ReplyingServers σ γ δ π} {events : List Nextcloud.Event} :
    ∀ {start : σ} {k : Nat},
      (∀ before name call after, events = before ++ .verb name call :: after →
        replies (k + (before.map Event.questions).sum) =
          servers.reply (Machine.run servers.see start before) name call) →
      servers.Gives replies start k events := by
  induction events with
  | nil => exact fun _ => trivial
  | cons event events ih =>
    intro start k h
    have hRest {before after : List Nextcloud.Event} {name : Text} {call : Verb}
        (hEvents : events = before ++ .verb name call :: after) :=
      h (event :: before) name call after (congrArg (event :: ·) hEvents)
    simp only [List.map_cons, List.sum_cons, ← Nat.add_assoc] at hRest
    cases event with
    | verb name call => exact ⟨h [] name call events rfl, ih fun _ _ _ _ => hRest⟩
    | checked | appended | appendFailed => exact ih fun _ _ _ _ => hRest

/-- Two transports that give the replies of the same servers give the same. -/
theorem Broker.gives_concurs {servers : ReplyingServers σ γ δ π} {s : Broker} {act : Act} {now : σ}
    (hGives : servers.Gives replies now s.desk.asked
      ((s.step w (env.answering replies) act).trace.drop s.trace.length))
    (hGives' : servers.Gives replies' now s.desk.asked
      ((s.step w (env.answering replies') act).trace.drop s.trace.length)) :
    s.Concurs w env replies replies' act := by
  intro before name call after after' hTrace hTrace'
  dsimp only at hTrace hTrace'
  rw [hTrace, List.drop_left] at hGives
  rw [hTrace', List.drop_left] at hGives'
  rw [hGives.verb, hGives'.verb]

variable {servers : ReplyingServers σ γ δ π} {start : σ} {acts : List Act}

theorem served_unique (hServed : Served w env servers replies start acts)
    (hServed' : Served w env servers replies' start acts) (pre : List Act) :
    ∀ post, acts = pre ++ post →
      reached w (env.answering replies') pre = reached w (env.answering replies) pre := by
  induction pre using List.reverseRecOn with
  | nil =>
    intro post _
    rw [reached, reached, Machine.run_nil, Machine.run_nil]
  | append_singleton pre act ih =>
    intro post hActs
    rw [List.append_assoc, List.singleton_append] at hActs
    have hSame := ih _ hActs
    have hGives' : let s := reached w (env.answering replies') pre
        servers.Gives replies' (Machine.run servers.see start s.trace) s.desk.asked
          ((s.step w (env.answering replies') act).trace.drop s.trace.length) :=
      hServed' pre act post hActs
    rw [hSame] at hGives'
    rw [reached_concat, reached_concat, hSame]
    exact Broker.step_agrees (Broker.gives_concurs hGives' (hServed pre act post hActs))

/-- Each request of the run is given the reply that the servers give after what the trace was. -/
theorem served_of_puts (hReplies : ∀ n request, Puts w (env.answering replies) acts n request →
      replies n = servers.reply (Machine.run servers.see start request.trace)
        request.instanceName request.call) :
    Served w env servers replies start acts := by
  intro pre act post hActs
  obtain ⟨events, hTrace, _⟩ := (reached w (env.answering replies) pre).step_asked w
    (env.answering replies) act
  have hStep : ((Machine.run (Broker.step w (env.answering replies)) Broker.start pre).step w
      (env.answering replies) act).trace =
    (Machine.run (Broker.step w (env.answering replies)) Broker.start pre).trace ++ events := hTrace
  rw [hStep, List.drop_left]
  refine gives_of_replies fun before name call after hEvents => ?_
  rw [hEvents] at hTrace
  rw [← Machine.run_append]
  exact hReplies _ ⟨_, name, call⟩ ⟨hActs, hTrace, rfl, rfl⟩

/-- Against servers of any kind, in any state, there is a transport that in the whole run gives the
replies of the servers, and all such transports lead the broker through the same states. -/
theorem served_once (w : Wiring) (env : Environment) (servers : ReplyingServers σ γ δ π) (start : σ)
    (acts : List Act) :
    ∃ replies, Served w env servers replies start acts ∧
      ∀ replies', Served w env servers replies' start acts → ∀ pre post, acts = pre ++ post →
        reached w (env.answering replies') pre = reached w (env.answering replies) pre := by
  let answer (request : Request) := servers.reply (Machine.run servers.see start request.trace)
    request.instanceName request.call
  have hServed : Served w env servers
      (Machine.given (fun replies => Puts w (env.answering replies) acts) answer (env.reply 0)) start
      acts := served_of_puts fun n request => (puts_causal w env acts).given_eq answer (env.reply 0)
  exact ⟨_, hServed, fun replies' hServed' => served_unique hServed hServed'⟩

end AccessBroker.System
