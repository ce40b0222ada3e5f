import AccessBroker.Nextcloud.Outcomes
import AccessBroker.Nextcloud.Verbs

/-! # What the records of an operation name

Every allowed record is written without the number of a grant. A refused one carries the
principal of the layer, whoever called.
-/

namespace AccessBroker.Nextcloud
open Py Paths Grants Audit
set_option autoImplicit false

/-- The targets pass the wall one after the other, from question `k` on. -/
def AllPass (platform : Platform) (layer : Layer) (db : Database) (clock : Nat → Int)
    (instanceName : Text) : Nat → List (Text × Text) → Prop
  | _, [] => True
  | k, (path, mode) :: targets =>
    (∃ norm, Passes platform layer db clock k instanceName path mode norm) ∧
      AllPass platform layer db clock instanceName (k + 2) targets

/-- A listing of an instance that is open to discovery; no grant is behind it. -/
def Operation.Discovers (layer : Layer) (instanceName : Text) (op : Operation) : Prop :=
  (∃ path, op = .list path) ∧ instanceName ∈ layer.discoveryInstances

def HasRecord (w w' : World) (entry : Entry) : Prop :=
  ∃ events files, w'.trace = w.trace ++ events ∧ .appended entry files ∈ events

abbrev Grows : World → World → Prop := InvImage (OnlyCalls fun _ => True) World.trace

section Bodies

variable {platform : Platform} {layer : Layer} {db : Database} {env : Environment}
variable {instanceName : Text} {w w' between : World} {entry : Entry}

theorem Leaves.hasRecord {written : Entry → Prop} {called : Text → Verb → Prop}
    (h : Leaves w w' written called) (hEntry : written entry) : HasRecord w w' entry := by
  obtain ⟨events, hEvents, hWritten, _⟩ := h
  obtain ⟨files, hMem⟩ := (hWritten entry).mpr hEntry
  exact ⟨events, files, hEvents, hMem⟩

theorem HasRecord.grows (h : HasRecord w between entry) (hGrows : Grows between w') :
    HasRecord w w' entry := by
  obtain ⟨events, files, hEvents, hMem⟩ := h
  obtain ⟨more, hMore, _⟩ := hGrows
  exact ⟨events ++ more, files, by rw [hMore, hEvents, List.append_assoc],
    List.mem_append_left _ hMem⟩

theorem HasRecord.after (hFirst : Leaves w between nothing noCall)
    (h : HasRecord between w' entry) : HasRecord w w' entry := by
  obtain ⟨events, hEvents, _⟩ := hFirst
  obtain ⟨more, files, hMore, hMem⟩ := h
  exact ⟨events ++ more, files, by rw [hMore, hEvents, List.append_assoc],
    List.mem_append_right _ hMem⟩

/-- The body starts with this record, or raises because the log does not take it. -/
def Logs {α : Type} (env : Environment) (body : Run α) (w : World) (entry : Entry) : Prop :=
  (Permits env w.asked w.audit entry ∧
      (w.audit.isSome = true → HasRecord w (body.run w).2 entry)) ∨
    (¬ Permits env w.asked w.audit entry ∧ ∃ err w', body.run w = (.error err, w') ∧
      Leaves w w' nothing noCall)

theorem auditAnd_logs (path operation reason : Text) (call : Verb) (principal : Option Text) :
    Logs env (auditAnd platform layer env instanceName path operation reason call principal) w
      (allowedEntry layer instanceName path operation reason principal) := by
  rcases auditAnd_leaves platform layer env instanceName w path operation reason call principal
    with ⟨hPermits, result, w', hRun, _, _, _, _, hLeaves⟩ | hRefused
  · refine Or.inl ⟨hPermits, fun hWired => ?_⟩
    rw [hRun]
    exact hLeaves.hasRecord ⟨rfl, hWired⟩
  · exact Or.inr hRefused

theorem Logs.bind {α β : Type} {body : Run α} {rest : α → Run β} (h : Logs env body w entry)
    (hRest : ∀ a, Effect.Along Grows (rest a)) : Logs env (body >>= rest) w entry := by
  rcases h with ⟨hPermits, hRecord⟩ | ⟨hNot, err, w', hRun, hLeaves⟩
  · refine Or.inl ⟨hPermits, fun hWired => (hRecord hWired).grows ?_⟩
    rcases hBody : body.run w with ⟨err | a, w'⟩
    · rw [Effect.bind_error hBody]
      exact Std.Refl.refl w'
    · rw [Effect.bind_ok hBody]
      exact hRest a w'
  · exact Or.inr ⟨hNot, err, w', Effect.bind_error hRun, hLeaves⟩

end Bodies

/-- The entry of a record that allows an operation on the strength of a grant. -/
structure Granting (entry : Entry) : Prop where
  decision : entry.decision = "allowed".toList
  reason : entry.reason ≠ "discovery".toList
  grantId : entry.grantId = none
  failInject : entry.failInject = false

def Refusal (layer : Layer) (instanceName : Text) (entry : Entry) : Prop :=
  ∃ shown mode reason, entry = refusedEntry layer instanceName shown mode reason

/-- What a call with these targets records: a granting entry first, or nothing, or a refusal. -/
structure Summary (platform : Platform) (layer : Layer) (db : Database) (env : Environment)
    (instanceName : Text) (targets : List (Text × Text)) (writer : AuditLog)
    (refused : Entry → Prop) (w w' : World) : Prop where
  allowed : AllPass platform layer db env.clock instanceName w.asked targets →
    Writable env (w.asked + 2 * targets.length) writer →
      ∃ entry, HasRecord w w' entry ∧ Granting entry
  silent : AllPass platform layer db env.clock instanceName w.asked targets →
    ¬ Writable env (w.asked + 2 * targets.length) writer → Leaves w w' nothing noCall
  refuses : ¬ AllPass platform layer db env.clock instanceName w.asked targets →
    Leaves w w' refused noCall
  refusal : ∀ entry, refused entry → Refusal layer instanceName entry

/-- A call for one path that does not pass records its refusal if the files can be written. -/
def RecordsRefusal (platform : Platform) (layer : Layer) (db : Database) (env : Environment)
    (instanceName : Text) (targets : List (Text × Text)) (writer : AuditLog)
    (refused : Entry → Prop) (w : World) : Prop :=
  ∀ path mode, targets = [(path, mode)] →
    ¬ AllPass platform layer db env.clock instanceName w.asked targets →
      ((∃ entry, refused entry) ↔
        Writable env (refusalQuestion platform layer instanceName w.asked path) writer)

section Summaries

variable {platform : Platform} {layer : Layer} {db : Database} {env : Environment}
variable {instanceName : Text} {w : World} {st : AuditState}

theorem allowedEntry_granting (layer : Layer) (instanceName path operation : Text)
    {reason : Text} (principal : Option Text) (hReason : reason ≠ "discovery".toList) :
    Granting (allowedEntry layer instanceName path operation reason principal) :=
  ⟨rfl, hReason, rfl, rfl⟩

theorem auditAnd_grants (platform : Platform) (layer : Layer) (env : Environment)
    (instanceName operation reason : Text) (call : Text → Verb)
    (principal : Option Text) (hReason : reason ≠ "discovery".toList) {β : Type}
    (rest : Text → Reply → Run β) (hRest : ∀ norm reply, Effect.Along Grows (rest norm reply))
    (norm : Text) (w : World) :
    ∃ entry, Logs env (auditAnd platform layer env instanceName norm operation reason (call norm)
      principal >>= rest norm) w entry ∧ Granting entry :=
  ⟨_, (auditAnd_logs norm operation reason (call norm) principal).bind (hRest norm),
    allowedEntry_granting layer instanceName norm operation principal hReason⟩

theorem permits_iff {k : Nat} {audit : Option AuditState} {entry : Entry}
    (hAudit : audit = some st) (hSecrets : st.writer.secrets = []) (hId : entry.grantId = none)
    (hInject : entry.failInject = false) :
    Permits env k audit entry ↔ Writable env k st.writer := by
  rw [Permits, hAudit]
  simp only [Option.some.injEq, forall_eq']
  exact recordable_iff hSecrets hId hInject

theorem records_refused_iff {k : Nat} {shown mode reason : Text} (hAudit : w.audit = some st)
    (hSecrets : st.writer.secrets = []) :
    Records env k w.audit (refusedEntry layer instanceName shown mode reason) ↔
      Writable env k st.writer := by
  rw [Records, hAudit]
  simp only [Option.some.injEq, exists_eq_left']
  exact recordable_iff hSecrets rfl rfl

theorem passed_summary {β : Type} {body : Run β} {targets : List (Text × Text)} {w₁ : World}
    {w' : World} {entry : Entry} (hAudit : w.audit = some st) (hSecrets : st.writer.secrets = [])
    (hPass : AllPass platform layer db env.clock instanceName w.asked targets)
    (hQuiet : Leaves w w₁ nothing noCall) (hAudit₁ : w₁.audit = w.audit)
    (hAsked : w₁.asked = w.asked + 2 * targets.length) (hLogs : Logs env body w₁ entry)
    (hGranting : Granting entry) (hEnd : (body.run w₁).2 = w') :
    Summary platform layer db env instanceName targets st.writer nothing w w' := by
  have hPermits : Permits env w₁.asked w₁.audit entry ↔
      Writable env (w.asked + 2 * targets.length) st.writer := by
    rw [hAsked, hAudit₁]
    exact permits_iff hAudit hSecrets hGranting.grantId hGranting.failInject
  have hWired : w₁.audit.isSome = true := by
    rw [hAudit₁, hAudit]
    rfl
  rw [Logs, hPermits] at hLogs
  constructor
  · intro _ hWritable
    rcases hLogs with ⟨_, hRecord⟩ | ⟨hNot, _⟩
    · rw [← hEnd]
      exact ⟨entry, (hRecord hWired).after hQuiet, hGranting⟩
    · exact absurd hWritable hNot
  · intro _ hNot
    rcases hLogs with ⟨hWritable, _⟩ | ⟨_, err, w₂, hRun, hLeaves⟩
    · exact absurd hWritable hNot
    · rw [← hEnd, hRun]
      exact hQuiet.after hLeaves
  · exact fun hNot => absurd hPass hNot
  · exact fun _ h => h.elim

theorem refused_summary {targets : List (Text × Text)} {w' : World} {refused : Entry → Prop}
    (hNot : ¬ AllPass platform layer db env.clock instanceName w.asked targets)
    (hLeaves : Leaves w w' refused noCall)
    (hRefusal : ∀ entry, refused entry → Refusal layer instanceName entry) :
    Summary platform layer db env instanceName targets st.writer refused w w' :=
  ⟨fun h => absurd h hNot, fun h => absurd h hNot, fun _ => hLeaves, hRefusal⟩

theorem single_summary {β : Type} {site : Run Text} {path mode : Text} {recording : Prop}
    {body : Text → Run β} (hAudit : w.audit = some st) (hSecrets : st.writer.secrets = [])
    (hDecides : Decides platform layer db env instanceName w path mode site recording)
    (hBody : ∀ norm w, ∃ entry, Logs env (body norm) w entry ∧ Granting entry) :
    ∃ refused, Summary platform layer db env instanceName [(path, mode)] st.writer refused w
        ((site >>= body).run w).2 ∧
      (recording → RecordsRefusal platform layer db env instanceName [(path, mode)] st.writer
        refused w) := by
  rcases hDecides with
    ⟨norm, w₁, hPasses, hRun, hAsked, hAudit₁, hQuiet⟩ | ⟨hNone, err, w₁, shown, reason, hRun, hLeaves⟩
  · have hPass : AllPass platform layer db env.clock instanceName w.asked [(path, mode)] :=
      ⟨⟨norm, hPasses⟩, trivial⟩
    obtain ⟨entry, hLogs, hGranting⟩ := hBody norm w₁
    refine ⟨nothing, passed_summary hAudit hSecrets hPass hQuiet hAudit₁ hAsked hLogs hGranting ?_,
      fun _ _ _ _ hNot => absurd hPass hNot⟩
    rw [Effect.bind_ok hRun]
  · have hNot : ¬ AllPass platform layer db env.clock instanceName w.asked [(path, mode)] := by
      rintro ⟨⟨norm, hPasses⟩, _⟩
      exact hNone norm hPasses
    rw [Effect.bind_error hRun]
    refine ⟨_, refused_summary hNot hLeaves ?_, ?_⟩
    · rintro entry ⟨_, rfl, _⟩
      exact ⟨shown, mode, reason, rfl⟩
    · rintro hRecording _ _ ⟨⟩ _
      constructor
      · rintro ⟨_, _, rfl, hRecords⟩
        exact (records_refused_iff hAudit hSecrets).mp hRecords
      · exact fun hWritable =>
          ⟨_, hRecording, rfl, (records_refused_iff hAudit hSecrets).mpr hWritable⟩

theorem move_summary (src dst : Text) (body : Text → Text → Run Reply)
    (hAudit : w.audit = some st) (hSecrets : st.writer.secrets = [])
    (hBody : ∀ normSrc normDst w, ∃ entry, Logs env (body normSrc normDst) w entry ∧ Granting entry) :
    ∃ refused, Summary platform layer db env instanceName [(src, WRITE), (dst, WRITE)] st.writer
      refused w ((do
        let normSrc ← authorized platform layer db env instanceName src WRITE
        let normDst ← authorized platform layer db env instanceName dst WRITE
        body normSrc normDst : Run Reply).run w).2 := by
  rcases authorized_decides platform layer db env instanceName src WRITE w with
    ⟨normSrc, w₁, hSrc, hRun, hAsked, hAudit₁, hQuiet⟩ | ⟨hNone, err, w₁, shown, reason, hRun, hLeaves⟩
  · rw [Effect.bind_ok hRun]
    rcases authorized_decides platform layer db env instanceName dst WRITE w₁ with
      ⟨normDst, w₂, hDst, hRun₂, hAsked₂, hAudit₂, hQuiet₂⟩ |
      ⟨hNone, err, w₂, shown, reason, hRun₂, hLeaves⟩
    · rw [hAsked] at hDst
      have hPass : AllPass platform layer db env.clock instanceName w.asked
          [(src, WRITE), (dst, WRITE)] := ⟨⟨normSrc, hSrc⟩, ⟨normDst, hDst⟩, trivial⟩
      obtain ⟨entry, hLogs, hGranting⟩ := hBody normSrc normDst w₂
      refine ⟨nothing, passed_summary hAudit hSecrets hPass (hQuiet.after hQuiet₂)
        (hAudit₂.trans hAudit₁) ?_ hLogs hGranting ?_⟩
      · rw [hAsked₂, hAsked]
        rfl
      · rw [Effect.bind_ok hRun₂]
    · rw [Effect.bind_error hRun₂]
      refine ⟨_, refused_summary ?_ (hQuiet.after hLeaves) ?_⟩
      · rintro ⟨_, ⟨normDst, hDst⟩, _⟩
        rw [hAsked] at hNone
        exact hNone normDst hDst
      · rintro entry ⟨_, rfl, _⟩
        exact ⟨shown, WRITE, reason, rfl⟩
  · rw [Effect.bind_error hRun]
    refine ⟨_, refused_summary ?_ hLeaves ?_⟩
    · rintro ⟨⟨normSrc, hSrc⟩, _⟩
      exact hNone normSrc hSrc
    · rintro entry ⟨_, rfl, _⟩
      exact ⟨shown, WRITE, reason, rfl⟩

variable (platform db env w) in
theorem discovery_records {op : Operation} (h : op.Discovers layer instanceName) :
    ∃ written called, Leaves w ((op.run platform layer db env instanceName).run w).2 written called ∧
      ∀ entry, written entry → entry.reason = "discovery".toList ∧
        entry.principal = layer.principal := by
  obtain ⟨⟨path, rfl⟩, hMem⟩ := h
  have hState : (((Operation.list path).run platform layer db env instanceName).run w).2 =
      ((list platform layer db env instanceName path).run w).2 := Effect.bind_state (fun _ _ => rfl) w
  rw [hState, list]
  split
  · exact ⟨_, _, Leaves.refl w, fun _ h => h.elim⟩
  split
  · exact ⟨_, _, Leaves.refl w, fun _ h => h.elim⟩
  · rename_i norm _
    rw [if_pos hMem]
    rcases auditAnd_leaves platform layer env instanceName w norm "list".toList "discovery".toList
      (.propfind norm) none with ⟨_, result, w', hRun, _, _, _, _, hLeaves⟩ | ⟨_, err, w', hRun, hLeaves⟩
    · rw [hRun]
      refine ⟨_, _, hLeaves, ?_⟩
      rintro entry ⟨rfl, _⟩
      exact ⟨rfl, rfl⟩
    · rw [hRun]
      exact ⟨_, _, hLeaves, fun _ h => h.elim⟩

theorem checkout_rest (platform : Platform) (layer : Layer) (env : Environment)
    (instanceName : Text) (principal : Option Text) (norm : Text) (result : Reply) :
    Effect.Along Grows (do
      let content ← auditAnd platform layer env instanceName norm "read".toList
        "checkout read".toList (.get norm) principal
      let data := if content.isDict then content.content else none
      if result.isDict then return (result.lockToken, data) else Effect.raise .attributeError) := by
  refine .bind ((onlyCalls_frames platform env _).auditAnd _ _ _ (callVerb_calls trivial) _)
    fun content => ?_
  dsimp only
  split
  · exact .pure _
  · exact .raise _

variable (platform layer db env instanceName) in
theorem authorized_summary {β : Type} (hAudit : w.audit = some st)
    (hSecrets : st.writer.secrets = []) (path mode operation reason : Text) (call : Text → Verb)
    (principal : Option Text) (hReason : reason ≠ "discovery".toList) (rest : Text → Reply → Run β)
    (hRest : ∀ norm reply, Effect.Along Grows (rest norm reply)) :
    ∃ refused, Summary platform layer db env instanceName [(path, mode)] st.writer refused w ((do
        let norm ← authorized platform layer db env instanceName path mode
        let reply ← auditAnd platform layer env instanceName norm operation reason (call norm)
          principal
        rest norm reply : Run β).run w).2 ∧
      RecordsRefusal platform layer db env instanceName [(path, mode)] st.writer refused w := by
  obtain ⟨refused, hSummary, hRefused⟩ := single_summary hAudit hSecrets
    (authorized_decides platform layer db env instanceName path mode w)
    (auditAnd_grants platform layer env instanceName operation reason call principal hReason rest
      hRest)
  exact ⟨refused, hSummary, hRefused trivial⟩

variable (platform db env) in
theorem operation_summary (op : Operation) (hDiscovers : ¬ op.Discovers layer instanceName)
    (hAudit : w.audit = some st) (hSecrets : st.writer.secrets = []) :
    ∃ refused, Summary platform layer db env instanceName op.targets st.writer refused w
        ((op.run platform layer db env instanceName).run w).2 ∧
      ((∀ path, op ≠ .list path) →
        RecordsRefusal platform layer db env instanceName op.targets st.writer refused w) := by
  have hReply (norm : Text) (reply : Reply) :
      Effect.Along Grows (pure (Answer.reply reply) : Run Answer) := .pure _
  have hOne (path mode operation reason : Text) (call : Text → Verb) (principal : Option Text)
      (hReason : reason ≠ "discovery".toList) :=
    authorized_summary platform layer db env instanceName hAudit hSecrets path mode operation
      reason call principal hReason (fun _ reply => pure (Answer.reply reply)) hReply
  cases op with
  | list path =>
    have hClosed : instanceName ∉ layer.discoveryInstances := fun hMem =>
      hDiscovers ⟨⟨path, rfl⟩, hMem⟩
    obtain ⟨site, hDecides, hList⟩ :=
      list_decides platform layer db env instanceName path w hClosed
    obtain ⟨refused, hSummary, _⟩ := single_summary hAudit hSecrets hDecides
      (auditAnd_grants platform layer env instanceName "list".toList "granted read".toList
        .propfind none (by decide) (fun _ reply => pure (Answer.reply reply)) hReply)
    rw [← Effect.bind_assoc, ← hList] at hSummary
    exact ⟨refused, hSummary, fun h => absurd rfl (h path)⟩
  | read path principal =>
    obtain ⟨refused, hSummary, hRefused⟩ :=
      hOne path READ "read".toList "granted read".toList .get principal (by decide)
    rw [← Effect.bind_assoc] at hSummary
    exact ⟨refused, hSummary, fun _ => hRefused⟩
  | write path data principal =>
    obtain ⟨refused, hSummary, hRefused⟩ := hOne path WRITE "write".toList "granted write".toList
      (fun norm => .put norm data none) principal (by decide)
    rw [← Effect.bind_assoc] at hSummary
    exact ⟨refused, hSummary, fun _ => hRefused⟩
  | move src dst =>
    obtain ⟨refused, hSummary⟩ := move_summary src dst (fun normSrc normDst =>
        auditAnd platform layer env instanceName (moveText normSrc normDst) "move".toList
          "granted write".toList (.move normSrc normDst) none) hAudit hSecrets
      fun normSrc normDst w => ⟨_, auditAnd_logs _ _ _ _ _,
        allowedEntry_granting layer instanceName _ _ none (by decide)⟩
    have hState := Effect.bind_state (m := move platform layer db env instanceName src dst)
      (f := fun reply => pure (Answer.reply reply)) (fun _ _ => rfl) w
    refine ⟨refused, ?_, fun _ path mode hTargets => by cases hTargets⟩
    exact hState ▸ hSummary
  | trash path =>
    obtain ⟨refused, hSummary, hRefused⟩ :=
      hOne path WRITE "trash".toList "granted write".toList .delete none (by decide)
    rw [← Effect.bind_assoc] at hSummary
    exact ⟨refused, hSummary, fun _ => hRefused⟩
  | mkdir path =>
    obtain ⟨refused, hSummary, hRefused⟩ :=
      hOne path WRITE "mkdir".toList "granted write".toList .mkcol none (by decide)
    rw [← Effect.bind_assoc] at hSummary
    exact ⟨refused, hSummary, fun _ => hRefused⟩
  | checkout path timeout principal =>
    obtain ⟨refused, hSummary, hRefused⟩ := authorized_summary platform layer db env instanceName
      hAudit hSecrets path WRITE "checkout".toList "granted write".toList (.lock · timeout)
      principal (by decide) _ (checkout_rest platform layer env instanceName principal)
    have hState := Effect.bind_state
      (m := checkout platform layer db env instanceName path timeout principal)
      (f := fun result => pure (Answer.checkedOut result.1 result.2)) (fun _ _ => rfl) w
    exact ⟨refused, hState ▸ hSummary, fun _ => hRefused⟩
  | checkin path data lockToken principal =>
    obtain ⟨refused, hSummary, hRefused⟩ := authorized_summary platform layer db env instanceName
      hAudit hSecrets path WRITE "checkin".toList "granted write".toList
      (.put · data (some lockToken)) principal (by decide) (fun norm written => do
        let unlocked ← auditAnd platform layer env instanceName norm "checkin-unlock".toList
          "lock released".toList (.unlock norm lockToken) principal
        return (written.truth, unlocked.truth))
      fun norm _ => .bind ((onlyCalls_frames platform env _).auditAnd _ _ _ (callVerb_calls trivial) _)
        fun _ => .pure _
    have hState := Effect.bind_state
      (m := checkin platform layer db env instanceName path data lockToken principal)
      (f := fun result => pure (Answer.checkedIn result.1 result.2)) (fun _ _ => rfl) w
    exact ⟨refused, hState ▸ hSummary, fun _ => hRefused⟩

end Summaries

end AccessBroker.Nextcloud
