import AccessBroker.Nextcloud.Lockstep
import AccessBroker.System.Integrity

/-! # What the broker shows

The replies of a Nextcloud server depend only on what lies at or below the paths of the request.
Then what lies where no approved grant reaches makes no difference to a run: neither to what the
tool calls are answered, nor to anything the broker stores, posts or writes down.
-/

namespace AccessBroker.System
open Py Paths Grants Nextcloud Server
set_option autoImplicit false

/-! ## Servers that reply -/

/-- Servers that also reply. A listing shows a part of what lies at a path; `rest` is what the
servers hold beside files, such as clocks and random numbers. -/
structure ReplyingServers (σ γ δ π : Type) extends FileServers σ γ where
  shown : γ → δ
  rest : σ → π
  reply : σ → Text → Verb → Except TransportError Reply

variable {σ γ δ π : Type}

/-- A listing depends only on what is shown of its instance, any other request only on what lies at
or below its paths. -/
structure ReplyingServers.Local (servers : ReplyingServers σ γ δ π) : Prop where
  confined : servers.Confined
  listing : ∀ s s' name path, servers.rest s = servers.rest s' →
    (∀ other, servers.shown (servers.content s name other) =
      servers.shown (servers.content s' name other)) →
    servers.reply s name (.propfind path) = servers.reply s' name (.propfind path) ∧
      servers.rest (servers.serve s name (.propfind path)) =
        servers.rest (servers.serve s' name (.propfind path))
  request : ∀ s s' name call, servers.rest s = servers.rest s' →
    (∀ p ∈ call.paths, ∀ path, Within p path →
      servers.content s name path = servers.content s' name path) →
    servers.reply s name call = servers.reply s' name call ∧
      servers.rest (servers.serve s name call) = servers.rest (servers.serve s' name call) ∧
      ∀ p ∈ call.paths, ∀ path, Within p path →
        servers.content (servers.serve s name call) name path =
          servers.content (servers.serve s' name call) name path

/-- The request is a listing of a listed instance, or all it can see is opened. -/
def Sees (opened : Text → Text → Prop) (listed : Text → Prop) (name : Text) (call : Verb) : Prop :=
  (∃ path, call = .propfind path ∧ listed name) ∨
    ∀ p ∈ call.paths, ∀ path, Within p path → opened name path

/-- Two states that differ at most in what is not opened, and there not in what is listed. -/
structure ReplyingServers.Alike (servers : ReplyingServers σ γ δ π) (opened : Text → Text → Prop)
    (listed : Text → Prop) (s s' : σ) : Prop where
  rest : servers.rest s = servers.rest s'
  content : ∀ name path, opened name path →
    servers.content s name path = servers.content s' name path
  shown : ∀ name, listed name → ∀ path, servers.shown (servers.content s name path) =
    servers.shown (servers.content s' name path)

section Servers

variable {servers : ReplyingServers σ γ δ π} {opened : Text → Text → Prop} {listed : Text → Prop}
variable {s s' : σ} {name : Text} {call : Verb}

theorem FileServers.Confined.unchanged {servers : FileServers σ γ} (h : servers.Confined)
    {name' path : Text}
    (hOut : ¬ (name' = name ∧ call.writes = true ∧ ∃ p ∈ call.paths, Within p path)) :
    servers.content (servers.serve s name call) name' path = servers.content s name' path :=
  not_not.mp fun hChanged => hOut (h s name call name' path hChanged)

/-- Alike states reply alike to what is open to the request, and stay alike. -/
theorem ReplyingServers.Alike.serve (hLocal : servers.Local)
    (h : servers.Alike opened listed s s') (hSees : Sees opened listed name call) :
    servers.reply s name call = servers.reply s' name call ∧
      servers.Alike opened listed (servers.serve s name call) (servers.serve s' name call) := by
  rcases hSees with ⟨path, rfl, hListed⟩ | hOpened
  · obtain ⟨hReply, hRest⟩ := hLocal.listing s s' name path h.rest (h.shown name hListed)
    have hKept (t : σ) (name' path' : Text) :
        servers.content (servers.serve t name (.propfind path)) name' path' =
          servers.content t name' path' := hLocal.confined.unchanged fun hWrites => nomatch hWrites.2.1
    refine ⟨hReply, hRest, fun name' path' hPath => ?_, fun name' hName path' => ?_⟩
    · rw [hKept, hKept]
      exact h.content name' path' hPath
    · rw [hKept, hKept]
      exact h.shown name' hName path'
  · have hBelow : ∀ p ∈ call.paths, ∀ path, Within p path →
        servers.content s name path = servers.content s' name path :=
      fun p hp path hWithin => h.content name path (hOpened p hp path hWithin)
    obtain ⟨hReply, hRest, hAfter⟩ := hLocal.request s s' name call h.rest hBelow
    -- a path is below the request, or keeps its content on both sides
    have hEach (name' path : Text) :
        servers.content (servers.serve s name call) name' path =
            servers.content (servers.serve s' name call) name' path ∨
          servers.content (servers.serve s name call) name' path = servers.content s name' path ∧
          servers.content (servers.serve s' name call) name' path =
            servers.content s' name' path := by
      by_cases hIn : name' = name ∧ call.writes = true ∧ ∃ p ∈ call.paths, Within p path
      · obtain ⟨rfl, _, p, hp, hWithin⟩ := hIn
        exact Or.inl (hAfter p hp path hWithin)
      · exact Or.inr ⟨hLocal.confined.unchanged hIn, hLocal.confined.unchanged hIn⟩
    refine ⟨hReply, hRest, fun name' path hPath => ?_, fun name' hName path => ?_⟩
    · rcases hEach name' path with hSame | ⟨hLeft, hRight⟩
      · exact hSame
      · rw [hLeft, hRight]
        exact h.content name' path hPath
    · rcases hEach name' path with hSame | ⟨hLeft, hRight⟩
      · rw [hSame]
      · rw [hLeft, hRight]
        exact h.shown name' hName path

theorem ReplyingServers.Alike.run (hLocal : servers.Local) (h : servers.Alike opened listed s s')
    {events : List Nextcloud.Event}
    (hSees : ∀ name call, .verb name call ∈ events → Sees opened listed name call) :
    servers.Alike opened listed (Machine.run servers.see s events)
      (Machine.run servers.see s' events) := by
  induction events generalizing s s' with
  | nil => exact h
  | cons event events ih =>
    have hRest : ∀ name call, .verb name call ∈ events → Sees opened listed name call :=
      fun name call hMem => hSees name call (List.mem_cons_of_mem _ hMem)
    cases event with
    | verb name call => exact ih (h.serve hLocal (hSees name call List.mem_cons_self)).2 hRest
    | checked | appended | appendFailed => exact ih h hRest

/-! ## Replies given -/

variable (servers) in
/-- From question `k` on, the verbs among the events get the replies of the servers. -/
def ReplyingServers.Gives (replies : Replies) : σ → Nat → List Nextcloud.Event → Prop
  | _, _, [] => True
  | s, k, .verb name call :: events =>
    replies k = servers.reply s name call ∧ Gives replies (servers.serve s name call) (k + 1) events
  | s, k, event :: events => Gives replies s (k + event.questions) events

instance ReplyingServers.Gives.decidable (replies : Replies) :
    ∀ s k events, Decidable (servers.Gives replies s k events)
  | _, _, [] => .isTrue trivial
  | s, k, .verb name call :: events =>
    have := decidable replies (servers.serve s name call) (k + 1) events
    inferInstanceAs (Decidable (replies k = servers.reply s name call ∧ _))
  | s, _, .checked .. :: events | s, _, .appended .. :: events | s, _, .appendFailed .. :: events =>
    decidable replies s _ events

theorem ReplyingServers.Gives.verb {replies : Replies} {before after : List Nextcloud.Event} :
    ∀ {s : σ} {k : Nat}, servers.Gives replies s k (before ++ .verb name call :: after) →
      replies (k + (before.map Event.questions).sum) =
        servers.reply (Machine.run servers.see s before) name call := by
  induction before with
  | nil => exact fun h => h.1
  | cons event before ih =>
    intro s k h
    rw [List.map_cons, List.sum_cons, ← Nat.add_assoc]
    cases event with
    | verb name' call' => exact ih h.2
    | checked | appended | appendFailed => exact ih h

end Servers

/-! ## Steps of the broker -/

section Steps

variable (w : Wiring) (env : Environment)

def Broker.outcome (s : Broker) (surface : Surface) (tool : Tool) :
    Option (Except LayerError Nextcloud.Answer) :=
  match s.writer with
  | none => none
  | some writer =>
    if tool.name ∉ surface.tools then none
    else (tool.operation w.decode surface).map fun (instanceName, op) =>
      ((op.run w.platform w.layer s.desk.db env instanceName).run
        ⟨some ⟨writer, s.files⟩, s.desk.asked, s.trace⟩).1

variable {w env} in
theorem Broker.outcome_eq_some {s : Broker} {surface : Surface} {tool : Tool}
    {result : Except LayerError Nextcloud.Answer} (h : s.outcome w env surface tool = some result) :
    ∃ writer instanceName op, s.writer = some writer ∧ tool.name ∈ surface.tools ∧
      tool.operation w.decode surface = some (instanceName, op) ∧
      result = ((op.run w.platform w.layer s.desk.db env instanceName).run
        ⟨some ⟨writer, s.files⟩, s.desk.asked, s.trace⟩).1 := by
  unfold Broker.outcome at h
  split at h
  · cases h
  rename_i writer hWriter
  split at h
  · cases h
  rename_i hTool
  obtain ⟨⟨instanceName, op⟩, hOperation, hResult⟩ := Option.map_eq_some_iff.mp h
  exact ⟨writer, instanceName, op, hWriter, not_not.mp hTool, hOperation, hResult.symm⟩

variable {w env} in
/-- A step that does not get to the file layer calls no verb. -/
theorem Broker.step_silent {s : Broker} {act : Act}
    (h : ∀ surface tool, act = .call surface tool → s.outcome w env surface tool = none) :
    (s.step w env act).trace = s.trace := by
  have hStep : ∃ events, (s.step w env act).trace = s.trace ++ events ∧ _ := s.step_events act
  obtain ⟨events, hTrace, hEvents⟩ := hStep
  cases hEvents with
  | nothing hNothing => rw [hTrace, hNothing, List.append_nil]
  | @operation surface tool _ _ hAct hTool hOperation =>
    subst hAct
    have hNone := h surface tool rfl
    unfold Broker.outcome at hNone
    cases hWriter : s.writer with
    | none =>
      unfold Broker.step
      rw [hWriter]
    | some writer =>
      simp only [hWriter, hTool, not_true_eq_false, if_false, hOperation, Option.map_some,
        reduceCtorEq] at hNone

def Served (servers : ReplyingServers σ γ δ π) (replies : Replies) (start : σ)
    (acts : List Act) : Prop :=
  Machine.EveryStep (Broker.step w (env.answering replies))
    (fun s act => servers.Gives replies (Machine.run servers.see start s.trace) s.desk.asked
      ((s.step w (env.answering replies) act).trace.drop s.trace.length)) Broker.start acts

variable {w env} {replies replies' : Replies}

/-- The two traces of a step get the same replies wherever they go on alike. -/
def Broker.Concurs (w : Wiring) (env : Environment) (replies replies' : Replies) (s : Broker)
    (act : Act) : Prop :=
  Concur replies replies' ⟨none, s.desk.asked, s.trace⟩
    ⟨none, s.desk.asked, (s.step w (env.answering replies) act).trace⟩
    ⟨none, s.desk.asked, (s.step w (env.answering replies') act).trace⟩

/-- An operation of a step whose replies agree is the same on both sides. -/
theorem Broker.operation_agrees {s : Broker} {writer : Audit.AuditLog} {surface : Surface}
    {tool : Tool} (hWriter : s.writer = some writer) (hTool : tool.name ∈ surface.tools)
    {instanceName : Text} {op : Nextcloud.Operation}
    (hOperation : tool.operation w.decode surface = some (instanceName, op))
    (h : s.Concurs w env replies replies' (.call surface tool)) :
    (op.run w.platform w.layer s.desk.db (env.answering replies) instanceName).run
        ⟨some ⟨writer, s.files⟩, s.desk.asked, s.trace⟩ =
      (op.run w.platform w.layer s.desk.db (env.answering replies') instanceName).run
        ⟨some ⟨writer, s.files⟩, s.desk.asked, s.trace⟩ := by
  apply (operation_together w.platform w.layer s.desk.db env instanceName replies replies' op).agree
  rw [Broker.Concurs, Broker.step_operates hWriter hTool hOperation,
    Broker.step_operates hWriter hTool hOperation] at h
  exact h

theorem Broker.outcome_agrees {s : Broker} {surface : Surface} {tool : Tool}
    (h : s.Concurs w env replies replies' (.call surface tool)) :
    s.outcome w (env.answering replies) surface tool =
      s.outcome w (env.answering replies') surface tool := by
  unfold Broker.outcome
  split
  · rfl
  rename_i writer hWriter
  split
  · rfl
  rename_i hTool
  rcases hOperation : tool.operation w.decode surface with _ | ⟨instanceName, op⟩
  · rfl
  · exact congrArg (fun result => some result.1)
      (Broker.operation_agrees hWriter (not_not.mp hTool) hOperation h)

/-- Only the operations of tool calls see a reply. -/
theorem Broker.step_agrees {s : Broker} {act : Act} (h : s.Concurs w env replies replies' act) :
    s.step w (env.answering replies) act = s.step w (env.answering replies') act := by
  unfold Broker.step
  split
  · rename_i writer hWriter
    cases act with
    | wait | sweep | restart | resume | event => rfl
    | call surface tool =>
      change s.call w _ writer surface tool = s.call w _ writer surface tool
      unfold Broker.call
      split
      · rfl
      rename_i hTool
      split
      · rfl
      · rfl
      split
      · rfl
      · rename_i instanceName op hOperation
        have hSame := Broker.operation_agrees hWriter (not_not.mp hTool) hOperation h
        rw [Broker.operate, hSame, Broker.operate]
  · rfl

/-! ## Confidentiality -/

variable (w env)

def Covers (r : GrantRecord) (path : Text) : Prop :=
  ∃ item ∈ r.items, ∃ root, normalizePath item.path = some root ∧ Within root path

/-- At some point of the run, a grant that the approver approved in it was active that covers the
path. -/
def Opened (acts : List Act) (name path : Text) : Prop :=
  ∃ pre post r, acts = pre ++ post ∧ ApprovedSince w env Broker.start pre r ∧
    r.instanceName = name ∧ Covers r path

def Hidden (acts : List Act) (name path : Text) : Prop :=
  normalizePath path = some path ∧ ¬ Opened w env acts name path

/-- Two states that differ at most in what is hidden all through the run, and there not in what is
listed of the instances open to discovery. -/
abbrev ReplyingServers.AlikeInSight (servers : ReplyingServers σ γ δ π) (acts : List Act)
    (t t' : σ) : Prop :=
  servers.Alike (fun name path => ¬ Hidden w env acts name path) (· ∈ w.layer.discoveryInstances) t t'

variable {w env}

/-- Whatever is asked of the servers in a run can see nothing that is hidden. -/
theorem verbs_see (hClock : Monotone env.clock) {pre post : List Act} {act : Act}
    {events : List Nextcloud.Event}
    (hEvents : ((Machine.run (Broker.step w env) Broker.start pre).step w env act).trace =
      (Machine.run (Broker.step w env) Broker.start pre).trace ++ events) :
    ∀ name call, .verb name call ∈ events →
      Sees (fun name path => ¬ Hidden w env (pre ++ act :: post) name path)
        (· ∈ w.layer.discoveryInstances) name call := by
  intro name call hMem
  have hStart : ∀ r ∈ Broker.start.active w env, ¬ (fun _ : Text => True) r.instanceName := by
    rw [start_active]
    exact fun r hr => absurd hr List.not_mem_nil
  have hBacked : (Machine.run (Broker.step w env) Broker.start pre).Backed w env
      ((Machine.run (Broker.step w env) Broker.start pre).step w env act) act fun _ r =>
        True → ApprovedSince w env Broker.start pre r := Broker.Backed.approved hClock hStart
  obtain ⟨events', hTrace, hVerbs⟩ := hBacked
  cases List.append_cancel_left (hEvents.symm.trans hTrace)
  obtain ⟨before, after, hSplit⟩ := List.append_of_mem hMem
  obtain ⟨op, _, hGranted⟩ := hVerbs before name call after hSplit
  rcases hGranted with ⟨_, norm, _, _, rfl, hListed⟩ | hGranted
  · exact Or.inl ⟨norm, rfl, hListed⟩
  · refine Or.inr fun p hp path hWithin hHidden => hHidden.2 ?_
    obtain ⟨r, ⟨_, hName, item, hItem, root, again, hRoot, hAgain, hInside, _⟩, hSince⟩ :=
      hGranted p hp
    cases hWithin.kept hHidden.1 hAgain
    exact ⟨pre, act :: post, r, rfl, hSince trivial, hName, item, hItem, root, hRoot,
      hInside.trans hWithin⟩

/-- Against servers that are alike, a step that can only see what is opened gets the same replies. -/
theorem Broker.step_concurs {servers : ReplyingServers σ γ δ π} (hLocal : servers.Local)
    {opened : Text → Text → Prop} {listed : Text → Prop} {t t' : σ} {s : Broker} {act : Act}
    {events : List Nextcloud.Event}
    (hEvents : (s.step w (env.answering replies) act).trace = s.trace ++ events)
    (hSees : ∀ name call, .verb name call ∈ events → Sees opened listed name call)
    (hGives : servers.Gives replies t s.desk.asked
      ((s.step w (env.answering replies) act).trace.drop s.trace.length))
    (hGives' : servers.Gives replies' t' s.desk.asked
      ((s.step w (env.answering replies') act).trace.drop s.trace.length))
    (hAlike : servers.Alike opened listed t t') : s.Concurs w env replies replies' act := by
  intro before name call after after' hTrace hTrace'
  dsimp only at hTrace hTrace'
  rw [hTrace, List.drop_left] at hGives
  rw [hTrace', List.drop_left] at hGives'
  cases List.append_cancel_left (hEvents.symm.trans hTrace)
  have hBefore : servers.Alike opened listed (Machine.run servers.see t before)
      (Machine.run servers.see t' before) :=
    hAlike.run hLocal fun name call hMem => hSees name call (by simp [hMem])
  have hCall : Sees opened listed name call := hSees name call (by simp)
  rw [hGives.verb, hGives'.verb]
  exact (hBefore.serve hLocal hCall).1

end Steps

/-- What lies where no approved grant reaches makes no difference: if the servers differ in it alone,
the broker goes through the same states, and every tool call is answered the same. -/
theorem hidden_files_unseen (w : Wiring) (env : Environment) (hClock : Monotone env.clock)
    (servers : ReplyingServers σ γ δ π) (hLocal : servers.Local) (replies replies' : Replies)
    (start start' : σ) (acts : List Act) (hServed : Served w env servers replies start acts)
    (hServed' : Served w env servers replies' start' acts)
    (hAlike : servers.AlikeInSight w (env.answering replies) acts start start') :
    let run (replies : Replies) (acts : List Act) :=
      Machine.run (Broker.step w (env.answering replies)) Broker.start acts
    (∀ pre post, acts = pre ++ post → run replies pre = run replies' pre) ∧
      ∀ pre surface tool post, acts = pre ++ .call surface tool :: post →
        (run replies pre).outcome w (env.answering replies) surface tool =
          (run replies' pre).outcome w (env.answering replies') surface tool := by
  intro run
  have hEvents (pre : List Act) (act : Act) : ∃ events,
      ((run replies pre).step w (env.answering replies) act).trace =
        (run replies pre).trace ++ events := by
    obtain ⟨events, hEvents, _⟩ := Broker.step_events (run replies pre) act
    exact ⟨events, hEvents⟩
  have hSees (pre : List Act) (act : Act) (post : List Act) (hActs : acts = pre ++ act :: post)
      (events : List Nextcloud.Event)
      (hEvents : ((run replies pre).step w (env.answering replies) act).trace =
        (run replies pre).trace ++ events) :
      ∀ name call, .verb name call ∈ events →
        Sees (fun name path => ¬ Hidden w (env.answering replies) acts name path)
          (· ∈ w.layer.discoveryInstances) name call := by
    rw [hActs]
    have hMonotone : Monotone (env.answering replies).clock := hClock
    exact verbs_see hMonotone hEvents
  -- on two runs that are one so far, against servers alike, the next replies are the same
  have hConcurs (pre : List Act) (act : Act) (post : List Act) (hActs : acts = pre ++ act :: post)
      (hSame : run replies pre = run replies' pre)
      (hNow : servers.AlikeInSight w (env.answering replies) acts
        (Machine.run servers.see start (run replies pre).trace)
        (Machine.run servers.see start' (run replies pre).trace)) :
      (run replies pre).Concurs w env replies replies' act := by
    obtain ⟨events, hEvents⟩ := hEvents pre act
    have hGives' := hServed' pre act post hActs
    change servers.Gives replies' (Machine.run servers.see start' (run replies' pre).trace)
      (run replies' pre).desk.asked (((run replies' pre).step w _ act).trace.drop
        (run replies' pre).trace.length) at hGives'
    rw [← hSame] at hGives'
    exact Broker.step_concurs hLocal hEvents (hSees pre act post hActs events hEvents)
      (hServed pre act post hActs) hGives' hNow
  have hEach (pre : List Act) : ∀ post, acts = pre ++ post → run replies pre = run replies' pre ∧
      servers.AlikeInSight w (env.answering replies) acts
        (Machine.run servers.see start (run replies pre).trace)
        (Machine.run servers.see start' (run replies pre).trace) := by
    induction pre using List.reverseRecOn with
    | nil =>
      have hStart (replies : Replies) : run replies [] = Broker.start := rfl
      exact fun _ _ => ⟨(hStart replies).trans (hStart replies').symm, hAlike⟩
    | append_singleton pre act ih =>
      intro post hActs
      rw [List.append_assoc, List.singleton_append] at hActs
      obtain ⟨hSame, hNow⟩ := ih _ hActs
      obtain ⟨events, hEvents⟩ := hEvents pre act
      have hLast (replies : Replies) : run replies (pre ++ [act]) =
          (run replies pre).step w (env.answering replies) act := Machine.run_append _ _ _ _
      rw [hLast, hLast, ← hSame, hEvents, Machine.run_append, Machine.run_append]
      exact ⟨Broker.step_agrees (hConcurs pre act post hActs hSame hNow),
        hNow.run hLocal (hSees pre act post hActs events hEvents)⟩
  refine ⟨fun pre post hActs => (hEach pre post hActs).1, ?_⟩
  intro pre surface tool post hActs
  obtain ⟨hSame, hNow⟩ := hEach pre _ hActs
  rw [← hSame]
  exact Broker.outcome_agrees (hConcurs pre _ post hActs hSame hNow)

/-! ## A secret -/

def holding (number : UInt8) : Except TransportError Reply := .ok ⟨true, some [number], none, true⟩

def numberingServers : ReplyingServers (Text → Text → UInt8) UInt8 Unit Unit where
  content numbers := numbers
  serve numbers name call := fun name' path =>
    if name' = name ∧ call.writes = true ∧ path ∈ call.paths then 1 else numbers name' path
  shown _ := ()
  rest _ := ()
  reply numbers name
    | .get path => holding (numbers name path)
    | _ => .ok ⟨true, none, some "lock".toList, true⟩

theorem numberingServers_local : numberingServers.Local where
  confined := by
    intro numbers name call name' path hChanged
    simp only [numberingServers] at hChanged
    split at hChanged
    · rename_i hWrites
      exact ⟨hWrites.1, hWrites.2.1, path, hWrites.2.2, List.prefix_rfl⟩
    · exact absurd rfl hChanged
  listing _ _ _ _ _ _ := ⟨rfl, rfl⟩
  request := by
    intro numbers numbers' name call _ hBelow
    refine ⟨?_, rfl, fun p hp path hWithin => ?_⟩
    · cases call with
      | get path =>
        exact congrArg holding (hBelow path List.mem_cons_self path List.prefix_rfl)
      | propfind | put | move | delete | mkcol | lock | unlock => rfl
    · have hSame : numbers name path = numbers' name path := hBelow p hp path hWithin
      simp only [numberingServers, hSame]

def keeping (number : UInt8) (name path : Text) : UInt8 :=
  if name = "nc".toList ∧ path = "private".toList then number else 0

/-- The agent reads below `docs`, which is approved, and tries to read `private`, which is not. -/
def prying : List Act :=
  approvedRequest ++ [.call .transfer (.read "nc".toList "docs/a".toList),
    .call .transfer (.read "nc".toList "private".toList)]

def pryingReplies (number : UInt8) (k : Nat) : Except TransportError Reply :=
  holding (if k = 8 then 0 else number)

theorem prying_served (number : UInt8) (h : number = 1 ∨ number = 2) :
    Served smallWiring smallEnvironment numberingServers (pryingReplies number) (keeping number)
      prying := by
  unfold Served
  rcases h with rfl | rfl
  · decide +kernel
  · decide +kernel

/-- No grant but the one on `docs` is ever active. -/
theorem prying_hides : Hidden smallWiring (smallEnvironment.answering (pryingReplies 1)) prying
    "nc".toList "private".toList := by
  have hDocs : Machine.EveryState (Broker.step smallWiring (smallEnvironment.answering
      (pryingReplies 1))) (fun s => ∀ r ∈ s.active smallWiring (smallEnvironment.answering
        (pryingReplies 1)), ∀ item ∈ r.items, item.path = "docs".toList) Broker.start prying := by
    decide +kernel
  refine ⟨by decide +kernel, ?_⟩
  rintro ⟨pre, post, r, hActs, hSince, _, item, hItem, root, hRoot, hWithin⟩
  have hPath : item.path = "docs".toList := hDocs pre post hActs r hSince.holds item hItem
  have hDocsRoot : normalizePath "docs".toList = some "docs".toList := by decide +kernel
  rw [hPath, hDocsRoot] at hRoot
  cases hRoot
  exact absurd hWithin (by decide +kernel)

theorem hidden_files_unseen_private :
    let run (replies : Replies) (acts : List Act) :=
      Machine.run (Broker.step smallWiring (smallEnvironment.answering replies)) Broker.start acts
    ((∀ pre post, prying = pre ++ post →
        run (pryingReplies 1) pre = run (pryingReplies 2) pre) ∧
      ∀ pre surface tool post, prying = pre ++ .call surface tool :: post →
        (run (pryingReplies 1) pre).outcome smallWiring
            (smallEnvironment.answering (pryingReplies 1)) surface tool =
          (run (pryingReplies 2) pre).outcome smallWiring
            (smallEnvironment.answering (pryingReplies 2)) surface tool) ∧
      (run (pryingReplies 1) approvedRequest).outcome smallWiring
        (smallEnvironment.answering (pryingReplies 1)) .transfer
        (.read "nc".toList "docs/a".toList) = some (.ok (.reply ⟨true, some [0], none, true⟩)) := by
  refine ⟨hidden_files_unseen smallWiring smallEnvironment (fun _ _ h => Int.ofNat_le.mpr h)
    numberingServers numberingServers_local (pryingReplies 1) (pryingReplies 2) (keeping 1)
    (keeping 2) prying (prying_served 1 (Or.inl rfl)) (prying_served 2 (Or.inr rfl))
    ⟨rfl, ?_, fun _ _ _ => rfl⟩, by decide +kernel⟩
  intro name path hSeen
  simp only [numberingServers, keeping]
  split
  · rename_i hPrivate
    rw [hPrivate.1, hPrivate.2] at hSeen
    exact absurd prying_hides hSeen
  · rfl

end AccessBroker.System
