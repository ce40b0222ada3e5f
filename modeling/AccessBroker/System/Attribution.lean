import AccessBroker.Nextcloud.Attribution
import AccessBroker.System.HumanGate

/-! # Attribution of the records

Which surface and which grant the records of a tool call name.
-/

namespace AccessBroker.System
open Py Grants Nextcloud Server
set_option autoImplicit false

def CarriesGrant (events : List Nextcloud.Event) (entry : Audit.Entry) : Prop :=
  ∃ (rid : Nat) (path mode : Text) (listed now : Int) (other : Text),
    entry.grantId = some (rid : Int) ∧
      .checked entry.instanceName path mode listed now ⟨true, some rid, "ok".toList⟩ ∈ events ∧
      entry.path ∈ [path, moveText path other, moveText other path]

/-- The records of a call on this surface name the surface, and the grant behind what they
allow. -/
structure Attributed (surface : Surface) (events : List Nextcloud.Event) : Prop where
  principal : ∀ entry files, .appended entry files ∈ events →
    (entry.principal = some Surface.transfer.principal ↔ surface = .transfer)
  grant : ∀ entry files, .appended entry files ∈ events → entry.decision = "allowed".toList →
    entry.reason ≠ "discovery".toList → CarriesGrant events entry

/-- Something is recorded that cannot be attributed: on the agent surface an operation that
is allowed by a grant, on the transfer surface anything. -/
def Misattributes (w : Wiring) (env : Environment) (db : Database) (writer : Audit.AuditLog)
    (k : Nat) (instanceName : Text) (op : Nextcloud.Operation) : Surface → Prop
  | .agent => ¬ op.Discovers w.layer instanceName ∧
      AllPass w.platform w.layer db env.clock instanceName k op.targets ∧
      Writable env (k + 2 * op.targets.length) writer
  | .transfer => ∃ path mode, op.targets = [(path, mode)] ∧
      Writable env (refusalQuestion w.platform w.layer instanceName k path) writer

section Records

variable {surface : Surface} {world world' : World} {events : List Nextcloud.Event}

theorem attributed_nil (surface : Surface) : Attributed surface [] := by
  constructor <;> simp

theorem attributed_of_leaves {written : Audit.Entry → Prop} {called : Text → Verb → Prop}
    (h : Leaves world world' written called) (hTrace : world'.trace = world.trace ++ events)
    (hPrincipal : ∀ entry, written entry →
      (entry.principal = some Surface.transfer.principal ↔ surface = .transfer))
    (hGrant : ∀ entry, written entry → entry.decision = "allowed".toList →
      entry.reason = "discovery".toList) : Attributed surface events := by
  obtain ⟨events', hEvents, hWritten, _⟩ := h
  rw [hEvents] at hTrace
  cases List.append_cancel_left hTrace
  constructor
  · exact fun entry files hMem => hPrincipal entry ((hWritten entry).mp ⟨files, hMem⟩)
  · intro entry files hMem hAllowed hOther
    exact absurd (hGrant entry ((hWritten entry).mp ⟨files, hMem⟩) hAllowed) hOther

theorem not_attributed_of_granting {entry : Audit.Entry} (h : HasRecord world world' entry)
    (hTrace : world'.trace = world.trace ++ events) (hGranting : Granting entry) :
    ¬ Attributed surface events := by
  intro hAttributed
  obtain ⟨events', files, hEvents, hMem⟩ := h
  rw [hEvents] at hTrace
  cases List.append_cancel_left hTrace
  obtain ⟨rid, _, _, _, _, _, hId, _⟩ :=
    hAttributed.grant entry files hMem hGranting.decision hGranting.reason
  rw [hGranting.grantId] at hId
  cases hId

theorem not_attributed_of_refusal {layer : Layer} {instanceName : Text} {entry : Audit.Entry}
    (hLayer : layer.principal = some Surface.agent.principal) (h : HasRecord world world' entry)
    (hTrace : world'.trace = world.trace ++ events) (hRefusal : Refusal layer instanceName entry) :
    ¬ Attributed .transfer events := by
  intro hAttributed
  obtain ⟨events', files, hEvents, hMem⟩ := h
  rw [hEvents] at hTrace
  cases List.append_cancel_left hTrace
  obtain ⟨_, _, _, rfl⟩ := hRefusal
  have hPrincipal : layer.principal = some Surface.transfer.principal :=
    (hAttributed.principal _ files hMem).mpr rfl
  rw [hLayer] at hPrincipal
  revert hPrincipal
  decide

end Records

theorem refused_ne_allowed : "refused".toList ≠ "allowed".toList := by decide

/-! ## Calls -/

theorem transfer_operation {decode : Text → Option Bytes} {tool : Tool} {instanceName : Text}
    {op : Nextcloud.Operation} (hTool : tool.name ∈ Surface.transfer.tools)
    (hOperation : tool.operation decode .transfer = some (instanceName, op)) :
    (∃ path mode, op.targets = [(path, mode)]) ∧ ∀ path, op ≠ .list path := by
  cases tool with
  | requestAccess | checkAccess | listInstances => cases hOperation
  | list => exact absurd hTool (show "list".toList ∉ TRANSFER_TOOLS by decide)
  | move => exact absurd hTool (show "move".toList ∉ TRANSFER_TOOLS by decide)
  | trash => exact absurd hTool (show "trash".toList ∉ TRANSFER_TOOLS by decide)
  | mkdir => exact absurd hTool (show "mkdir".toList ∉ TRANSFER_TOOLS by decide)
  | read instanceName path =>
    cases hOperation
    exact ⟨⟨path, _, rfl⟩, fun _ h => by cases h⟩
  | write instanceName path content =>
    obtain ⟨data, _, hData⟩ := Option.map_eq_some_iff.mp hOperation
    cases hData
    exact ⟨⟨path, _, rfl⟩, fun _ h => by cases h⟩
  | checkout instanceName path timeout =>
    cases hOperation
    exact ⟨⟨path, _, rfl⟩, fun _ h => by cases h⟩
  | checkin instanceName path content lockToken =>
    rw [Tool.operation] at hOperation
    split at hOperation
    · cases hOperation
    · obtain ⟨data, _, hData⟩ := Option.map_eq_some_iff.mp hOperation
      cases hData
      exact ⟨⟨path, _, rfl⟩, fun _ h => by cases h⟩

section Calls

variable (w : Wiring) (env : Environment) (db : Database) (instanceName : Text)
variable (op : Nextcloud.Operation) (world : World) {st : Audit.AuditState} {events : List Nextcloud.Event}

theorem agent_attributed_iff (hLayer : w.layer.principal = some Surface.agent.principal)
    (hAudit : world.audit = some st) (hSecrets : st.writer.secrets = [])
    (hTrace : ((op.run w.platform w.layer db env instanceName).run world).2.trace =
      world.trace ++ events) :
    Attributed .agent events ↔
      ¬ Misattributes w env db st.writer world.asked instanceName op .agent := by
  have hAgent (entry : Audit.Entry) (h : entry.principal = w.layer.principal) :
      entry.principal = some Surface.transfer.principal ↔ Surface.agent = .transfer := by
    rw [h, hLayer]
    decide
  by_cases hDiscovers : op.Discovers w.layer instanceName
  · obtain ⟨written, called, hLeaves, hWritten⟩ := discovery_records w.platform db env world hDiscovers
    refine iff_of_true ?_ fun h => h.1 hDiscovers
    exact attributed_of_leaves hLeaves hTrace (fun entry h => hAgent entry (hWritten entry h).2)
      fun entry h _ => (hWritten entry h).1
  · obtain ⟨refused, hSummary, _⟩ := operation_summary w.platform db env op hDiscovers
      hAudit hSecrets
    by_cases hPass : AllPass w.platform w.layer db env.clock instanceName world.asked op.targets
    · by_cases hWritable : Writable env (world.asked + 2 * op.targets.length) st.writer
      · obtain ⟨entry, hRecord, hGranting⟩ := hSummary.allowed hPass hWritable
        exact iff_of_false (not_attributed_of_granting hRecord hTrace hGranting)
          (not_not_intro ⟨hDiscovers, hPass, hWritable⟩)
      · refine iff_of_true ?_ fun h => hWritable h.2.2
        exact attributed_of_leaves (hSummary.silent hPass hWritable) hTrace
          (fun _ h => h.elim) fun _ h => h.elim
    · refine iff_of_true ?_ fun h => hPass h.2.1
      apply attributed_of_leaves (hSummary.refuses hPass) hTrace
      · intro entry hEntry
        obtain ⟨_, _, _, rfl⟩ := hSummary.refusal entry hEntry
        exact hAgent _ rfl
      · intro entry hEntry hAllowed
        obtain ⟨_, _, _, rfl⟩ := hSummary.refusal entry hEntry
        exact absurd hAllowed refused_ne_allowed

theorem transfer_attributed_iff (hLayer : w.layer.principal = some Surface.agent.principal)
    (hAudit : world.audit = some st) (hSecrets : st.writer.secrets = []) {path mode : Text}
    (hTargets : op.targets = [(path, mode)]) (hList : ∀ path, op ≠ .list path)
    (hTrace : ((op.run w.platform w.layer db env instanceName).run world).2.trace =
      world.trace ++ events) :
    Attributed .transfer events ↔
      ¬ Misattributes w env db st.writer world.asked instanceName op .transfer := by
  have hMisattributes : Misattributes w env db st.writer world.asked instanceName op .transfer ↔
      Writable env (refusalQuestion w.platform w.layer instanceName world.asked path) st.writer := by
    constructor
    · rintro ⟨_, _, hSame, hWritable⟩
      rw [hTargets] at hSame
      cases hSame
      exact hWritable
    · exact fun hWritable => ⟨path, mode, hTargets, hWritable⟩
  rw [hMisattributes]
  have hDiscovers : ¬ op.Discovers w.layer instanceName := fun h => h.1.elim hList
  obtain ⟨refused, hSummary, hRefused⟩ := operation_summary w.platform db env op hDiscovers hAudit
    hSecrets
  by_cases hPass : AllPass w.platform w.layer db env.clock instanceName world.asked op.targets
  · have hQuestion : refusalQuestion w.platform w.layer instanceName world.asked path =
        world.asked + 2 * op.targets.length := by
      rw [hTargets] at hPass ⊢
      obtain ⟨⟨norm, hPasses⟩, _⟩ := hPass
      rw [refusalQuestion, if_pos ⟨hPasses.known, by rw [hPasses.guard]; rfl⟩]
      rfl
    rw [hQuestion]
    by_cases hWritable : Writable env (world.asked + 2 * op.targets.length) st.writer
    · obtain ⟨entry, hRecord, hGranting⟩ := hSummary.allowed hPass hWritable
      exact iff_of_false (not_attributed_of_granting hRecord hTrace hGranting)
        (not_not_intro hWritable)
    · refine iff_of_true ?_ hWritable
      exact attributed_of_leaves (hSummary.silent hPass hWritable) hTrace
        (fun _ h => h.elim) fun _ h => h.elim
  · rw [← hRefused hList path mode hTargets hPass]
    by_cases hEntry : ∃ entry, refused entry
    · obtain ⟨entry, hEntry⟩ := hEntry
      refine iff_of_false ?_ (not_not_intro ⟨entry, hEntry⟩)
      exact not_attributed_of_refusal hLayer ((hSummary.refuses hPass).hasRecord hEntry) hTrace
        (hSummary.refusal entry hEntry)
    · refine iff_of_true ?_ hEntry
      exact attributed_of_leaves (hSummary.refuses hPass) hTrace
        (fun entry h => absurd ⟨entry, h⟩ hEntry) fun entry h => absurd ⟨entry, h⟩ hEntry

end Calls

/-- The records of a tool call are attributed exactly if it records nothing that needs a
grant and, on the transfer surface, nothing at all. -/
theorem attributed_iff (w : Wiring) (env : Environment) (s : Broker) (writer : Audit.AuditLog)
    (surface : Surface) (tool : Tool)
    (hLayer : w.layer.principal = some Surface.agent.principal) (hSecrets : writer.secrets = []) :
    ∃ events, (s.call w env writer surface tool).trace = s.trace ++ events ∧
      (Attributed surface events ↔ ∀ instanceName op, tool.name ∈ surface.tools →
        tool.operation w.decode surface = some (instanceName, op) →
          ¬ Misattributes w env s.desk.db writer s.desk.asked instanceName op surface) := by
  unfold Broker.call
  split
  · rename_i hTool
    exact ⟨[], (List.append_nil _).symm, iff_of_true (attributed_nil surface)
      fun _ _ h => absurd h hTool⟩
  rename_i hTool
  rw [Decidable.not_not] at hTool
  split
  · refine ⟨[], by rw [Broker.perform_trace, List.append_nil], iff_of_true (attributed_nil surface) ?_⟩
    rintro _ _ _ ⟨⟩
  · refine ⟨[], by rw [Broker.perform_trace, List.append_nil], iff_of_true (attributed_nil surface) ?_⟩
    rintro _ _ _ ⟨⟩
  split
  · rename_i hNone
    refine ⟨[], (List.append_nil _).symm, iff_of_true (attributed_nil surface) fun _ _ _ h => ?_⟩
    rw [hNone] at h
    cases h
  · rename_i instanceName op hOperation
    have hOnly (P : Text → Nextcloud.Operation → Prop) : (∀ instanceName' op',
        tool.name ∈ surface.tools → tool.operation w.decode surface = some (instanceName', op') →
          P instanceName' op') ↔ P instanceName op := by
      constructor
      · exact fun h => h instanceName op hTool hOperation
      · intro h instanceName' op' _ hOp
        rw [hOperation] at hOp
        cases hOp
        exact h
    rw [hOnly]
    let world : World := ⟨some ⟨writer, s.files⟩, s.desk.asked, s.trace⟩
    have hGrows : Grows world ((op.run w.platform w.layer s.desk.db env instanceName).run world).2 :=
      (operation_calls op world).mono fun _ _ => trivial
    obtain ⟨events, hEvents, _⟩ := hGrows
    refine ⟨events, hEvents, ?_⟩
    cases surface with
    | agent => exact agent_attributed_iff w env s.desk.db instanceName op _ hLayer rfl hSecrets hEvents
    | transfer =>
      obtain ⟨⟨path, mode, hTargets⟩, hList⟩ := transfer_operation hTool hOperation
      exact transfer_attributed_iff w env s.desk.db instanceName op _ hLayer rfl hSecrets hTargets
        hList hEvents

theorem attributed_iff_refused :
    let writer : Audit.AuditLog := ⟨[], .ofText Audit.GENESIS, 0⟩
    ∃ events, (Broker.start.call smallWiring smallEnvironment writer .agent
        (.trash "nc".toList "docs".toList)).trace = Broker.start.trace ++ events ∧
      Attributed .agent events := by
  intro writer
  obtain ⟨events, hEvents, hAttributed⟩ := attributed_iff smallWiring smallEnvironment Broker.start
    writer .agent (.trash "nc".toList "docs".toList) rfl rfl
  refine ⟨events, hEvents, hAttributed.mpr ?_⟩
  rintro _ _ _ ⟨⟩ ⟨_, ⟨⟨norm, hPasses⟩, _⟩, _⟩
  have hGuard : namespaceGuard smallWiring.platform "docs".toList = some "docs".toList := by
    decide +kernel
  cases hPasses.norm_eq hGuard
  exact absurd hPasses.allowed (by decide +kernel)

def recorded (entry : Audit.Entry) (events : List Nextcloud.Event) : Bool :=
  events.any fun event =>
    match event with
    | .appended other _ => decide (other = entry)
    | _ => false

theorem mem_of_recorded {entry : Audit.Entry} {events : List Nextcloud.Event}
    (h : recorded entry events = true) : ∃ files, .appended entry files ∈ events := by
  obtain ⟨event, hMem, hEvent⟩ := List.any_eq_true.mp h
  cases event with
  | appended other files =>
    cases of_decide_eq_true hEvent
    exact ⟨files, hMem⟩
  | checked | appendFailed | verb => cases hEvent

/-- After the approval of `docs`, two reads on the transfer surface: the allowed one is
recorded without the grant, the refused one as the agent's. -/
theorem reads_misattributed :
    let s := Machine.run (Broker.step smallWiring smallEnvironment) Broker.start approvedRequest
    ∀ path ∈ ["docs/a".toList, "other".toList], ∀ events,
      (s.step smallWiring smallEnvironment (.call .transfer (.read "nc".toList path))).trace =
        s.trace ++ events → ¬ Attributed .transfer events := by
  intro s path hPath events hEvents hAttributed
  have hDrop : events = (s.step smallWiring smallEnvironment
      (.call .transfer (.read "nc".toList path))).trace.drop s.trace.length := by
    rw [hEvents, List.drop_left]
  rcases List.mem_cons.mp hPath with rfl | hPath
  · have hRecorded : recorded (allowedEntry smallWiring.layer "nc".toList "docs/a".toList
        "read".toList "granted read".toList (some Surface.transfer.principal)) events = true := by
      rw [hDrop]
      decide +kernel
    obtain ⟨files, hMem⟩ := mem_of_recorded hRecorded
    obtain ⟨rid, _, _, _, _, _, hId, _⟩ := hAttributed.grant _ files hMem rfl (by decide)
    cases hId
  · cases List.mem_singleton.mp hPath
    have hRecorded : recorded (refusedEntry smallWiring.layer "nc".toList "other".toList
        Paths.READ "path not covered by any active grant".toList) events = true := by
      rw [hDrop]
      decide +kernel
    obtain ⟨files, hMem⟩ := mem_of_recorded hRecorded
    have hPrincipal := (hAttributed.principal _ files hMem).mpr rfl
    exact absurd hPrincipal (by decide)

end AccessBroker.System
