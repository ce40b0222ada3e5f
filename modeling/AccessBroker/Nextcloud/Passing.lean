import AccessBroker.Nextcloud.Attribution

/-! # What passes the wall goes through

Once all its targets pass, an operation calls its verb on them right after the verb's record, unless
the log does not take the record.
-/

namespace AccessBroker.Nextcloud
open Py Paths Grants Audit
set_option autoImplicit false

/-- The verb is one of the operation's, at its normalized targets, and the entry is its record. -/
structure Carries (platform : Platform) (instanceName : Text) (op : Operation) (call : Verb)
    (entry : Entry) : Prop where
  makes : op.Makes call
  targets : List.Forall₂ (fun target norm => namespaceGuard platform target.1 = some norm)
    op.targets call.paths
  names : Names op instanceName call entry

/-- The operation has its verb called at its normalized targets right after the verb's record, which
ends the log; or a record fails. -/
def GoesThrough (platform : Platform) (instanceName : Text) (op : Operation)
    (trace trace' : List Event) : Prop :=
  ∃ events, trace' = trace ++ events ∧
    ((∃ before entry files call after, Carries platform instanceName op call entry ∧
        EndsWith platform files entry ∧
        events = before ++ .appended entry files :: .verb instanceName call :: after) ∨
      ∃ entry cause, .appendFailed entry cause ∈ events)

/-- The operation has its verb called right after a record, or a record fails. -/
def CallsOrFails (instanceName : Text) (op : Operation) (trace trace' : List Event) : Prop :=
  ∃ events, trace' = trace ++ events ∧
    ((∃ before entry files call after, op.Makes call ∧
        events = before ++ .appended entry files :: .verb instanceName call :: after) ∨
      ∃ entry cause, .appendFailed entry cause ∈ events)

section Passing

variable {platform : Platform} {layer : Layer} {db : Database} {env : Environment}
variable {instanceName : Text} {op : Operation} {w w' between : World}

theorem CallsOrFails.grows (h : CallsOrFails instanceName op w.trace between.trace)
    (hGrows : Grows between w') : CallsOrFails instanceName op w.trace w'.trace := by
  obtain ⟨events, hEvents, hOutcome⟩ := h
  obtain ⟨more, hMore, _⟩ := hGrows
  refine ⟨events ++ more, by rw [hMore, hEvents, List.append_assoc], ?_⟩
  rcases hOutcome with ⟨before, entry, files, call, after, hMakes, rfl⟩ | ⟨entry, cause, hFailed⟩
  · exact Or.inl ⟨before, entry, files, call, after ++ more, hMakes, by simp⟩
  · exact Or.inr ⟨entry, cause, List.mem_append_left _ hFailed⟩

theorem CallsOrFails.after (hFirst : Leaves w between nothing noCall)
    (h : CallsOrFails instanceName op between.trace w'.trace) :
    CallsOrFails instanceName op w.trace w'.trace := by
  obtain ⟨events, hEvents, _⟩ := hFirst
  obtain ⟨more, hMore, hOutcome⟩ := h
  refine ⟨events ++ more, by rw [hMore, hEvents, List.append_assoc], ?_⟩
  rcases hOutcome with ⟨before, entry, files, call, after, hMakes, rfl⟩ | ⟨entry, cause, hFailed⟩
  · exact Or.inl ⟨events ++ before, entry, files, call, after, hMakes, by simp⟩
  · exact Or.inr ⟨entry, cause, List.mem_append_right _ hFailed⟩

theorem CallsOrFails.bind {α β : Type} {body : Run α} {rest : α → Run β}
    (h : CallsOrFails instanceName op w.trace (body.run w).2.trace)
    (hRest : ∀ a, Effect.Along Grows (rest a)) :
    CallsOrFails instanceName op w.trace ((body >>= rest).run w).2.trace := by
  rcases hBody : body.run w with ⟨err | a, w'⟩
  · rw [Effect.bind_error hBody]
    rwa [hBody] at h
  · rw [Effect.bind_ok hBody]
    rw [hBody] at h
    exact h.grows (hRest a w')

/-- A part of an operation that goes through from every world with a log. -/
def PartGoes {α : Type} (instanceName : Text) (op : Operation) (part : Run α) : Prop :=
  ∀ w, w.audit.isSome = true → CallsOrFails instanceName op w.trace (part.run w).2.trace

theorem auditAnd_goes {call : Verb} (hCall : op.Makes call) (path operation reason : Text)
    (principal : Option Text) : PartGoes instanceName op
      (auditAnd platform layer env instanceName path operation reason call principal) := by
  intro w hWired
  obtain ⟨s, hAudit⟩ := Option.isSome_iff_exists.mp hWired
  rw [auditAnd, Effect.bind_ok (Effect.get_run w), hAudit]
  dsimp only
  rcases auditRecord_cases platform env s
      (allowedEntry layer instanceName path operation reason principal) w with
    ⟨s', hRun, _⟩ | ⟨s', cause, hRun⟩
  · rw [Effect.bind_ok hRun]
    obtain ⟨result, hVerb⟩ := callVerb_run layer env instanceName call _
    rw [hVerb]
    refine ⟨_, List.append_assoc _ _ _, Or.inl ?_⟩
    exact ⟨[], _, s'.files, call, [], hCall, rfl⟩
  · rw [Effect.bind_error hRun]
    exact ⟨[_], rfl, Or.inr ⟨_, cause, List.mem_singleton.mpr rfl⟩⟩

theorem PartGoes.bind {α β : Type} {body : Run α} {rest : α → Run β}
    (h : PartGoes instanceName op body) (hRest : ∀ a, Effect.Along Grows (rest a)) :
    PartGoes instanceName op (body >>= rest) :=
  fun w hWired => (h w hWired).bind hRest

/-- What passes a site of the wall goes on to the part after it. -/
theorem Decides.goes {β : Type} {path mode : Text} {site : Run Text} {recording : Prop}
    {rest : Text → Run β}
    (h : Decides platform layer db env instanceName w path mode site recording)
    (hPasses : ∃ norm, Passes platform layer db env.clock w.asked instanceName path mode norm)
    (hRest : ∀ norm w', w'.audit = w.audit → w'.asked = w.asked + 2 →
      CallsOrFails instanceName op w'.trace ((rest norm).run w').2.trace) :
    CallsOrFails instanceName op w.trace ((site >>= rest).run w).2.trace := by
  rcases h with ⟨norm, w', _, hRun, hAsked, hAudit, hQuiet⟩ | ⟨hNone, _⟩
  · rw [Effect.bind_ok hRun]
    exact .after hQuiet (hRest norm w' hAudit hAsked)
  · obtain ⟨norm, hPass⟩ := hPasses
    exact absurd hPass (hNone norm)

theorem list_goes {path : Text} (hWired : w.audit.isSome = true)
    (hPasses : ∃ norm, Passes platform layer db env.clock w.asked instanceName path READ norm) :
    CallsOrFails instanceName (.list path) w.trace
      ((list platform layer db env instanceName path).run w).2.trace := by
  by_cases hDiscovery : instanceName ∈ layer.discoveryInstances
  · obtain ⟨norm, hPass⟩ := hPasses
    obtain ⟨client, hClient⟩ := Option.isSome_iff_exists.mp hPass.known
    rw [list, hClient]
    dsimp only
    rw [hPass.guard]
    dsimp only
    rw [if_pos hDiscovery]
    exact auditAnd_goes .list _ _ _ _ w hWired
  · obtain ⟨site, hDecides, hList⟩ :=
      list_decides platform layer db env instanceName path w hDiscovery
    rw [hList]
    refine hDecides.goes hPasses fun norm w' hAudit _ => ?_
    exact auditAnd_goes .list _ _ _ _ w' (hAudit ▸ hWired)

theorem operation_callsOrFails (hWired : w.audit.isSome = true)
    (hPass : AllPass platform layer db env.clock instanceName w.asked op.targets) :
    CallsOrFails instanceName op w.trace
      ((op.run platform layer db env instanceName).run w).2.trace := by
  have hOne {β : Type} {path mode : Text} {rest : Text → Run β}
      (hPass : AllPass platform layer db env.clock instanceName w.asked [(path, mode)])
      (hRest : ∀ norm, PartGoes instanceName op (rest norm)) : CallsOrFails instanceName op w.trace
        ((authorized platform layer db env instanceName path mode >>= rest).run w).2.trace :=
    (authorized_decides platform layer db env instanceName path mode w).goes hPass.1
      fun norm w' hAudit _ => hRest norm w' (hAudit ▸ hWired)
  cases op with
  | list path => exact (list_goes hWired hPass.1).bind fun _ => .pure _
  | read path principal =>
    exact (hOne hPass fun norm => auditAnd_goes .read _ _ _ _).bind fun _ => .pure _
  | write path data principal =>
    exact (hOne hPass fun norm => auditAnd_goes .write _ _ _ _).bind fun _ => .pure _
  | move src dst =>
    refine CallsOrFails.bind ?_ fun _ => .pure _
    refine (authorized_decides platform layer db env instanceName src WRITE w).goes hPass.1
      fun normSrc w' hAudit hAsked => ?_
    have hNext := hPass.2.1
    rw [← hAsked] at hNext
    refine (authorized_decides platform layer db env instanceName dst WRITE w').goes hNext
      fun normDst w'' hAudit' _ => ?_
    exact auditAnd_goes .move _ _ _ _ w'' (by rw [hAudit', hAudit, hWired])
  | trash path => exact (hOne hPass fun norm => auditAnd_goes .trash _ _ _ _).bind fun _ => .pure _
  | mkdir path => exact (hOne hPass fun norm => auditAnd_goes .mkdir _ _ _ _).bind fun _ => .pure _
  | checkout path timeout principal =>
    exact (hOne hPass fun norm => (auditAnd_goes .checkout _ _ _ _).bind
      (checkout_rest platform layer env instanceName principal norm)).bind fun _ => .pure _
  | checkin path data lockToken principal =>
    exact (hOne hPass fun norm => (auditAnd_goes .checkin _ _ _ _).bind fun written =>
      .bind ((onlyCalls_frames platform env _).auditAnd _ _ _ (callVerb_calls trivial) _)
        fun _ => .pure _).bind fun _ => .pure _

theorem AllAdmitted.normalized {before : List Event} :
    ∀ {k : Nat} {targets : List (Text × Text)} {norms : List Text},
      AllAdmitted platform layer db env instanceName before k targets norms →
      List.Forall₂ (fun target norm => namespaceGuard platform target.1 = some norm) targets norms
  | _, [], [], _ => .nil
  | _, _ :: _, _ :: _, hAll => .cons hAll.1.guard hAll.2.normalized
  | _, [], _ :: _, hAll => hAll.elim
  | _, _ :: _, [], hAll => hAll.elim

theorem Mediated.normalized {wired : Bool} {start : Nat} {before : List Event} {call : Verb}
    (h : Mediated platform layer db env instanceName op wired start before call) :
    List.Forall₂ (fun target norm => namespaceGuard platform target.1 = some norm) op.targets
      call.paths := by
  rcases h.admitted with ⟨path, norm, rfl, hGuard, rfl, _⟩ | hAdmitted
  · exact .cons hGuard .nil
  · exact hAdmitted.normalized

/-- An operation whose targets all pass goes through. -/
theorem operation_goes (platform : Platform) (layer : Layer) (db : Database) (env : Environment)
    (instanceName : Text) (op : Operation) {w : World} (hWired : w.audit.isSome = true)
    (hPass : AllPass platform layer db env.clock instanceName w.asked op.targets) :
    GoesThrough platform instanceName op w.trace
      ((op.run platform layer db env instanceName).run w).2.trace := by
  obtain ⟨events, hTrace, hOutcome⟩ := operation_callsOrFails hWired hPass
  obtain ⟨events', hTrace', hJustified, _⟩ :=
    run_mediated platform layer db env instanceName op w
  cases List.append_cancel_left (hTrace.symm.trans hTrace')
  refine ⟨events, hTrace, hOutcome.imp ?_ id⟩
  rintro ⟨before, entry, files, call, after, hMakes, rfl⟩
  have hSplit : before ++ .appended entry files :: .verb instanceName call :: after =
      (before ++ [.appended entry files]) ++ .verb instanceName call :: after := by simp
  obtain ⟨_, hMediated⟩ := hJustified _ _ after hSplit instanceName call rfl
  obtain ⟨earlier, entry', files', hBefore, hNames, hEnds⟩ := hMediated.recorded hWired
  cases (List.append_inj' hBefore rfl).2
  exact ⟨before, entry, files, call, after, ⟨hMakes, hMediated.normalized, hNames⟩, hEnds, rfl⟩

end Passing

end AccessBroker.Nextcloud
