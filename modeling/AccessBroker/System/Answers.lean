import AccessBroker.Nextcloud.Script
import AccessBroker.System.Confidentiality
import AccessBroker.WebdavAdapter.Requests

/-! # What an answer says

The transport of each instance is its adapter. From the tool call down to the requests of the
WebDAV client, a tool is answered with a value exactly if every request that its verbs stand for
was made and went well.
-/

namespace AccessBroker.System
open Py Paths Grants Nextcloud Server WebdavAdapter
set_option autoImplicit false

/-! ## The adapters as servers -/

/-- What the clients have been asked so far, by instance. -/
abbrev Logs := Text → List WebdavAdapter.Exchange

def adapterServers (adapters : Text → Adapter) : ReplyingServers Logs Unit Unit Unit where
  content _ _ _ := ()
  serve logs name call :=
    Function.update logs name (((adapters name).serve call).run (logs name)).2
  shown _ := ()
  rest _ := ()
  reply logs name call :=
    (((adapters name).serve call).run (logs name)).1.map VerbReply.reply

theorem lock_dict {response : LockResponse} {reply : Reply}
    (h : WebdavAdapter.lock response = .ok reply) : reply.isDict = true := by
  cases response with
  | methodNotSupported | responseErrorCode | notFound | raised => cases h
  | answered lockToken =>
    simp only [WebdavAdapter.lock] at h
    split at h
    · cases h
    · cases h
      rfl

/-- Whatever the adapter returns, the layer is given a `dict`. -/
theorem serve_dict (adapter : Adapter) (call : Verb) :
    Effect.Yields (fun r => r.reply.isDict = true) (adapter.serve call) := by
  cases call with
  | propfind path =>
    refine .bind fun outcome => ?_
    split
    · exact .raise
    · exact .pure rfl
  | get path => exact .bind fun _ => .pure rfl
  | put path data lockToken => exact .bind fun _ => .pure rfl
  | move src dst => exact .bind fun _ => .pure rfl
  | delete path => exact .bind fun _ => .pure rfl
  | mkcol path =>
    refine .bind fun found => ?_
    split
    · exact .raise
    · exact .bind fun _ => .pure rfl
  | lock path timeout =>
    refine .bind fun outcome => ?_
    split
    · exact .raise
    · rename_i reply hLock
      exact .pure (lock_dict hLock)
  | unlock path lockToken =>
    rw [Adapter.serve, Adapter.unlock]
    split
    · exact .raise
    · exact .bind fun _ => .pure rfl

/-! ## The requests of a step -/

/-- The block of requests that an exchange between the layer and the adapter consists of. -/
def Blocks (adapter : Adapter) (exchange : Nextcloud.Exchange)
    (block : List WebdavAdapter.Exchange) : Prop :=
  ∃ result, adapter.Keeps exchange.call result block ∧
    exchange.ended = result.map VerbReply.reply ∧
    ∀ reply, exchange.ended = .ok reply → reply.isDict = true

section Steps

variable {adapters : Text → Adapter} {env : Environment} {replies : Replies} {logs : Logs}
variable {instanceName : Text}

theorem blocks_serve (name : Text) (call : Verb) (logs : Logs) :
    ∃ block, (adapterServers adapters).serve logs name call =
        Function.update logs name (logs name ++ block) ∧
      Blocks (adapters name) ⟨name, call, (adapterServers adapters).reply logs name call⟩ block := by
  obtain ⟨block, hLog, hKeeps⟩ := Adapter.serve_keeps call (logs name)
  refine ⟨block, congrArg (Function.update logs name) hLog, _, hKeeps, rfl, fun reply hReply => ?_⟩
  have hDict := serve_dict (adapters name) call (logs name)
  simp only [adapterServers] at hReply
  cases hResult : (((adapters name).serve call).run (logs name)).1 with
  | error err =>
    rw [hResult] at hReply
    cases hReply
  | ok r =>
    rw [hResult] at hReply
    cases hReply
    exact hDict r hResult

/-- The exchanges of one instance are the blocks of its log, in order. -/
theorem blocks_of_gives {events : List Nextcloud.Event} :
    ∀ {k : Nat} {logs : Logs}, (adapterServers adapters).Gives replies logs k events →
      (∀ exchange ∈ dialogue (env.answering replies) k events,
        exchange.instanceName = instanceName) →
      ∃ blocks, Machine.run (adapterServers adapters).see logs events =
          Function.update logs instanceName (logs instanceName ++ blocks.flatten) ∧
        List.Forall₂ (Blocks (adapters instanceName))
          (dialogue (env.answering replies) k events) blocks := by
  induction events with
  | nil =>
    intro k logs _ _
    exact ⟨[], by simp, .nil⟩
  | cons event events ih =>
    intro k logs hGives hInstance
    cases event with
    | verb name call =>
      obtain ⟨hReply, hRest⟩ := hGives
      obtain rfl : name = instanceName := hInstance _ List.mem_cons_self
      obtain ⟨block, hServe, hBlock⟩ := blocks_serve name call logs
      obtain ⟨blocks, hLogs, hBlocks⟩ := ih hRest fun exchange hMem =>
        hInstance exchange (List.mem_cons_of_mem _ hMem)
      refine ⟨block :: blocks, ?_, .cons ?_ hBlocks⟩
      · change Machine.run (adapterServers adapters).see
          ((adapterServers adapters).serve logs name call) events = _
        rw [hLogs, hServe]
        simp
      · rw [← hReply] at hBlock
        exact hBlock
    | checked | appended | appendFailed => exact ih hGives hInstance

/-! ## Scripts and plans -/

/-- Of every target there is a path, so there is something to call. -/
theorem script_ne_nil {platform : Platform} {op : Nextcloud.Operation} {norms : List Text}
    (h : op.targets.map (fun target => namespaceGuard platform target.1) = norms.map some) :
    op.script norms ≠ [] := by
  have hLength : norms.length = op.targets.length := by
    have hSame := congrArg List.length h
    rwa [List.length_map, List.length_map, eq_comm] at hSame
  cases op with
  | move src dst =>
    obtain ⟨normSrc, normDst, rfl⟩ := List.length_eq_two.mp hLength
    exact List.cons_ne_nil _ _
  | list | read | write | trash | mkdir | checkout | checkin =>
    obtain ⟨norm, rfl⟩ := List.length_eq_one_iff.mp hLength
    exact List.cons_ne_nil _ _

theorem plan_ne_nil (adapter : Adapter) {call : Verb} (h : ∀ path, call ≠ .unlock path []) :
    adapter.plan call ≠ [] := by
  cases call with
  | unlock path lockToken =>
    cases lockToken with
    | nil => exact absurd rfl (h path)
    | cons c token => exact List.cons_ne_nil _ _
  | propfind | get | put | move | delete | mkcol | lock => exact List.cons_ne_nil _ _

theorem unlock_mem_script {op : Nextcloud.Operation} {norms : List Text} {path token : Text}
    (h : .unlock path token ∈ op.script norms) :
    ∃ other data principal, op = .checkin other data token principal := by
  unfold Operation.script at h
  split at h
  case h_8 other data lockToken principal norm =>
    simp only [List.mem_cons, reduceCtorEq, Verb.unlock.injEq, List.not_mem_nil, or_false,
      false_or] at h
    exact ⟨other, data, principal, by rw [h.2]⟩
  all_goals simp at h

/-- No tool releases a lock without a token. -/
theorem checkin_token {decode : Text → Option Bytes} {surface : Surface} {tool : Tool}
    {name path lockToken : Text} {data : Bytes} {principal : Option Text}
    (h : tool.operation decode surface = some (name, .checkin path data lockToken principal)) :
    lockToken ≠ [] := by
  cases tool with
  | checkin instanceName other content token =>
    simp only [Tool.operation] at h
    split at h
    · cases h
    · rename_i hToken
      obtain ⟨_, _, hSame⟩ := Option.map_eq_some_iff.mp h
      cases hSame
      exact hToken
  | write instanceName other content =>
    obtain ⟨_, _, hSame⟩ := Option.map_eq_some_iff.mp h
    cases hSame
  | requestAccess | checkAccess | listInstances | list | read | move | trash | mkdir | checkout =>
    cases h

theorem script_plans {decode : Text → Option Bytes} {surface : Surface} {tool : Tool}
    {name : Text} {op : Nextcloud.Operation}
    (hOperation : tool.operation decode surface = some (name, op)) (adapter : Adapter)
    (norms : List Text) : ∀ call ∈ op.script norms, adapter.plan call ≠ [] := by
  refine fun call hCall => plan_ne_nil adapter ?_
  rintro path rfl
  obtain ⟨other, data, principal, rfl⟩ := unlock_mem_script hCall
  exact checkin_token hOperation rfl

/-- The blocks of exchanges that all returned carry out their plans, and well. -/
theorem blocks_returned {adapter : Adapter} {said : List Nextcloud.Exchange}
    {blocks : List (List WebdavAdapter.Exchange)} (h : List.Forall₂ (Blocks adapter) said blocks)
    (hPlans : ∀ exchange ∈ said, adapter.plan exchange.call ≠ []) :
    (∀ exchange ∈ said, exchange.returned) ↔
      blocks.map (List.map WebdavAdapter.Exchange.call) =
          said.map (fun exchange => adapter.plan exchange.call) ∧
        ∀ block ∈ blocks, ∀ request ∈ block, request.good = true := by
  induction h with
  | nil => simp
  | @cons exchange block said blocks hBlock hBlocks ih =>
    obtain ⟨result, hKeeps, hEnded, _⟩ := hBlock
    have hReturned : exchange.returned ↔ ∃ reply, result = .ok reply := by
      rw [Nextcloud.Exchange.returned, hEnded]
      cases result with
      | error err => simp [Except.map]
      | ok r => simp [Except.map]
    have hPlan : adapter.plan exchange.call ≠ [] := hPlans exchange List.mem_cons_self
    rw [List.forall_mem_cons, hReturned, hKeeps.returns, and_iff_right hPlan,
      ih fun other hMem => hPlans other (List.mem_cons_of_mem _ hMem), List.map_cons, List.map_cons,
      List.cons.injEq, List.forall_mem_cons]
    exact and_and_and_comm

/-- A script that was begun was called as a whole, and every verb returned, exactly if the blocks
carry out the plans of the whole script, and well. -/
theorem script_carried {adapter : Adapter} {script : List Verb} {said : List Nextcloud.Exchange}
    {blocks : List (List WebdavAdapter.Exchange)} (h : List.Forall₂ (Blocks adapter) said blocks)
    (hPrefix : said.map Nextcloud.Exchange.call <+: script)
    (hPlans : ∀ call ∈ script, adapter.plan call ≠ []) :
    (said.map Nextcloud.Exchange.call = script ∧ ∀ exchange ∈ said, exchange.returned) ↔
      blocks.map (List.map WebdavAdapter.Exchange.call) = script.map adapter.plan ∧
        ∀ block ∈ blocks, ∀ request ∈ block, request.good = true := by
  have hReturned := blocks_returned h fun exchange hMem =>
    hPlans _ (hPrefix.subset (List.mem_map_of_mem hMem))
  have hPlan : said.map (fun exchange => adapter.plan exchange.call) =
      (said.map Nextcloud.Exchange.call).map adapter.plan := by rw [List.map_map]; rfl
  rw [hPlan] at hReturned
  constructor
  · rintro ⟨rfl, hAll⟩
    exact hReturned.mp hAll
  · rintro ⟨hBlocks, hGood⟩
    have hLength : script.length ≤ (said.map Nextcloud.Exchange.call).length := by
      have hSame := congrArg List.length hBlocks
      rw [List.length_map, List.length_map, ← h.length_eq] at hSame
      rw [List.length_map, hSame]
    have hWhole : said.map Nextcloud.Exchange.call = script := hPrefix.eq_of_length_le hLength
    rw [hWhole] at hReturned
    exact ⟨hWhole, hReturned.mpr ⟨hBlocks, hGood⟩⟩

/-- What follows an exchange was asked for only after all its requests went well. -/
theorem blocks_goOn {adapter : Adapter} {said : List Nextcloud.Exchange}
    {blocks : List (List WebdavAdapter.Exchange)} (h : List.Forall₂ (Blocks adapter) said blocks)
    (hGoesOn : ∀ exchange ∈ said.dropLast, exchange.returned) :
    ∀ request ∈ blocks.flatten.dropLast, request.good = true := by
  induction h with
  | nil => simp
  | @cons exchange block said blocks hBlock hBlocks ih =>
    obtain ⟨result, hKeeps, hEnded, _⟩ := hBlock
    rw [List.flatten_cons]
    cases hBlocks with
    | nil =>
      rw [List.flatten_nil, List.append_nil]
      exact hKeeps.goesOn
    | cons hNext hLater =>
      rw [List.dropLast_cons_cons, List.forall_mem_cons] at hGoesOn
      obtain ⟨⟨reply, hReply⟩, hRest⟩ := hGoesOn
      refine forall_dropLast_append ?_ (ih hRest)
      cases result with
      | error err =>
        rw [hEnded] at hReply
        cases hReply
      | ok r => exact (hKeeps.returns.mp ⟨r, rfl⟩).2.2

end Steps

/-! ## Answers -/

/-- At the paths that the targets stand for, the client was asked for all that the plans of the
operation's verbs ask for, and all of it went well. -/
def CarriedOut (platform : Platform) (adapter : Adapter) (op : Nextcloud.Operation)
    (blocks : List (List WebdavAdapter.Exchange)) : Prop :=
  ∃ norms, op.targets.map (fun target => namespaceGuard platform target.1) = norms.map some ∧
    blocks.map (List.map WebdavAdapter.Exchange.call) = (op.script norms).map adapter.plan ∧
    ∀ block ∈ blocks, ∀ request ∈ block, request.good = true

/-- The requests of one file tool's step, and what its answer says about them. -/
def Broker.Tells (w : Wiring) (env : Environment) (adapters : Text → Adapter) (s : Broker)
    (logs : Logs) (surface : Surface) (tool : Tool)
    (result : Except LayerError Nextcloud.Answer) : Prop :=
  ∃ name op blocks, tool.operation w.decode surface = some (name, op) ∧
    Machine.run (adapterServers adapters).see logs
        ((s.step w env (.call surface tool)).trace.drop s.trace.length) =
      Function.update logs name (logs name ++ blocks.flatten) ∧
    (∀ request ∈ blocks.flatten.dropLast, request.good = true) ∧
    ((∃ answer, result = .ok answer) ↔ CarriedOut w.platform (adapters name) op blocks)

theorem forall₂_left {α β : Type} {R : α → β → Prop} {xs : List α} {ys : List β}
    (h : List.Forall₂ R xs ys) : ∀ a ∈ xs, ∃ b, R a b := by
  induction h with
  | nil => simp
  | cons hHead _ ih => exact List.forall_mem_cons.mpr ⟨⟨_, hHead⟩, ih⟩

theorem Broker.step_tells {w : Wiring} {env : Environment} {adapters : Text → Adapter}
    {replies : Replies} {s : Broker} {logs : Logs} {surface : Surface} {tool : Tool}
    {result : Except LayerError Nextcloud.Answer}
    (hOutcome : s.outcome w (env.answering replies) surface tool = some result)
    (hGives : (adapterServers adapters).Gives replies logs s.desk.asked
      ((s.step w (env.answering replies) (.call surface tool)).trace.drop s.trace.length)) :
    s.Tells w (env.answering replies) adapters logs surface tool result := by
  obtain ⟨writer, name, op, hWriter, hTool, hOperation, rfl⟩ := Broker.outcome_eq_some hOutcome
  have hStep : s.step w (env.answering replies) (.call surface tool) =
      s.operate w (env.answering replies) writer name op :=
    Broker.step_operates hWriter hTool hOperation
  rw [Broker.Tells]
  rw [hStep] at hGives ⊢
  generalize hWorld : (⟨some ⟨writer, s.files⟩, s.desk.asked, s.trace⟩ : World) = world
  -- the blocks of what was said
  have hBlocks (said : List Nextcloud.Exchange)
      (hSaid : Says (env.answering replies) world ((op.run w.platform w.layer s.desk.db
        (env.answering replies) name).run world).2 said)
      (hInstance : ∀ exchange ∈ said, exchange.instanceName = name) :
      ∃ blocks, Machine.run (adapterServers adapters).see logs
          ((s.operate w (env.answering replies) writer name op).trace.drop s.trace.length) =
          Function.update logs name (logs name ++ blocks.flatten) ∧
        List.Forall₂ (Blocks (adapters name)) said blocks := by
    obtain ⟨events, hTrace, _, rfl⟩ := hSaid
    subst hWorld
    have hEvents : (s.operate w (env.answering replies) writer name op).trace =
        s.trace ++ events := hTrace
    rw [hEvents, List.drop_left] at hGives ⊢
    exact blocks_of_gives hGives hInstance
  cases operation_played w.platform w.layer s.desk.db (env.answering replies) name op world with
  | refused hResult hSaid =>
    obtain ⟨blocks, hLogs, hNone⟩ := hBlocks [] hSaid (by simp)
    cases hNone
    refine ⟨name, op, [], hOperation, hLogs, by simp, iff_of_false (by simp [hResult]) ?_⟩
    rintro ⟨norms, hGuards, hPlan, _⟩
    exact script_ne_nil hGuards (List.map_eq_nil_iff.mp hPlan.symm)
  | @played norms hGuards hPlays =>
    obtain ⟨said, hSaid, hInstance, hPrefix, hGoesOn, hReturns⟩ := hPlays
    obtain ⟨blocks, hLogs, hEach⟩ := hBlocks said hSaid hInstance
    have hDicts : Dicts said := by
      intro exchange hMem
      obtain ⟨block, _, _, _, hDict⟩ := forall₂_left hEach exchange hMem
      exact hDict
    refine ⟨name, op, blocks, hOperation, hLogs, blocks_goOn hEach hGoesOn, ?_⟩
    rw [hReturns hDicts,
      script_carried hEach hPrefix (script_plans hOperation (adapters name) norms)]
    constructor
    · rintro ⟨hPlan, hGood⟩
      exact ⟨norms, hGuards, hPlan, hGood⟩
    · rintro ⟨norms', hGuards', hPlan, hGood⟩
      have hSame : norms' = norms :=
        List.map_injective_iff.mpr (Option.some_injective _) (hGuards'.symm.trans hGuards)
      rw [hSame] at hPlan
      exact ⟨hPlan, hGood⟩

/-- In every run in which the adapters are the transport, requests are made in the steps of file
tools alone. A file tool is answered with a value exactly if all the requests that its verbs stand
for were made in its step and went well; and a request follows another of the step only if that one
went well. -/
theorem answers_are_true (w : Wiring) (env : Environment) (adapters : Text → Adapter)
    (replies : Replies) (acts : List Act)
    (hServed : Served w env (adapterServers adapters) replies (fun _ => []) acts) :
    let run (acts : List Act) := Machine.run (Broker.step w (env.answering replies)) Broker.start acts
    let logs (acts : List Act) := Machine.run (adapterServers adapters).see (fun _ => [])
      (run acts).trace
    (∀ pre act post, acts = pre ++ act :: post →
      (∀ surface tool, act = .call surface tool →
        (run pre).outcome w (env.answering replies) surface tool = none) →
      logs (pre ++ [act]) = logs pre) ∧
    ∀ pre surface tool post result, acts = pre ++ .call surface tool :: post →
      (run pre).outcome w (env.answering replies) surface tool = some result →
      ∃ name op blocks, tool.operation w.decode surface = some (name, op) ∧
        logs (pre ++ [.call surface tool]) =
          Function.update (logs pre) name (logs pre name ++ blocks.flatten) ∧
        (∀ request ∈ blocks.flatten.dropLast, request.good = true) ∧
        ((∃ answer, result = .ok answer) ↔ CarriedOut w.platform (adapters name) op blocks) := by
  intro run logs
  have hRun (pre : List Act) (act : Act) :
      run (pre ++ [act]) = (run pre).step w (env.answering replies) act :=
    Machine.run_append _ _ _ _
  constructor
  · intro pre act post _ hSilent
    simp only [logs, hRun, Broker.step_silent hSilent]
  · intro pre surface tool post result hActs hOutcome
    have hStep : ∃ events, ((run pre).step w (env.answering replies) (.call surface tool)).trace =
        (run pre).trace ++ events ∧ _ := (run pre).step_events (.call surface tool)
    obtain ⟨events, hTrace, _⟩ := hStep
    have hTells : (run pre).Tells w (env.answering replies) adapters (logs pre) surface tool result :=
      Broker.step_tells hOutcome (hServed pre (.call surface tool) post hActs)
    obtain ⟨name, op, blocks, hOperation, hLogs, hGood, hAnswer⟩ := hTells
    rw [hTrace, List.drop_left] at hLogs
    refine ⟨name, op, blocks, hOperation, ?_, hGood, hAnswer⟩
    rw [← hLogs]
    simp only [logs, hRun, hTrace, Machine.run_append]

/-- Every file holds two chunks, every folder nothing, and every lock is given. -/
def willing : Nat → (call : ClientCall) → Except ClientError call.Returned
  | _, .list _ => .ok []
  | _, .downloadIter _ => .ok [[1], [2]]
  | _, .executeRequest .. => .ok (some "<t>".toList)
  | _, .check _ => .ok false
  | _, .uploadTo .. | _, .move .. | _, .mkdir _ | _, .clean _ => .ok ()

def willingAdapter : Adapter := ⟨"u".toList, id, willing⟩

def approvedReading : List Act :=
  approvedRequest ++ [.call .transfer (.read "nc".toList "docs/a".toList)]

def chunksReply : Reply := ⟨true, some [1, 2], none, true⟩

theorem answers_are_true_read :
    let run (acts : List Act) := Machine.run (Broker.step smallWiring
      (smallEnvironment.answering fun _ => .ok chunksReply)) Broker.start acts
    let logs (acts : List Act) := Machine.run (adapterServers fun _ => willingAdapter).see
      (fun _ => []) (run acts).trace
    ∃ name op blocks, Tool.operation smallWiring.decode .transfer
        (.read "nc".toList "docs/a".toList) = some (name, op) ∧
      logs approvedReading = Function.update (logs approvedRequest) name
        (logs approvedRequest name ++ blocks.flatten) ∧
      (∀ request ∈ blocks.flatten.dropLast, request.good = true) ∧
      ((∃ answer, (.ok (.reply chunksReply) : Except LayerError Answer) = .ok answer) ↔
        CarriedOut smallWiring.platform willingAdapter op blocks) :=
  (answers_are_true smallWiring smallEnvironment (fun _ => willingAdapter)
    (fun _ => .ok chunksReply) approvedReading (by unfold Served; decide +kernel)).2 approvedRequest
    .transfer (.read "nc".toList "docs/a".toList) [] _ rfl (by decide +kernel)

end AccessBroker.System
