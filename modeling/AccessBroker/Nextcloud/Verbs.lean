import AccessBroker.Nextcloud.Mediation

/-! # The verbs an operation calls

What holds across every question an operation asks holds across the operation.
Among the verbs, it has to hold only across those the operation is made of.
-/

namespace AccessBroker.Nextcloud
open Py Paths Grants Audit
set_option autoImplicit false

/-- The verbs that `run` goes through. -/
def Operation.calls : Operation → Verb → Bool
  | .list _, .propfind _ | .read _ _, .get _ | .write _ _ _, .put _ _ _ | .move _ _, .move _ _
  | .trash _, .delete _ | .mkdir _, .mkcol _ | .checkout _ _ _, .lock _ _
  | .checkout _ _ _, .get _ | .checkin _ _ _ _, .put _ _ _
  | .checkin _ _ _ _, .unlock _ _ => true
  | _, _ => false

/-- The same with the arguments that are handed on; `norm` is what the wall passed. -/
inductive Operation.Makes : Operation → Verb → Prop
  | list {path norm : Text} : Makes (.list path) (.propfind norm)
  | read {path norm : Text} {principal : Option Text} : Makes (.read path principal) (.get norm)
  | write {path norm : Text} {data : Bytes} {principal : Option Text} :
    Makes (.write path data principal) (.put norm data none)
  | move {src dst normSrc normDst : Text} : Makes (.move src dst) (.move normSrc normDst)
  | trash {path norm : Text} : Makes (.trash path) (.delete norm)
  | mkdir {path norm : Text} : Makes (.mkdir path) (.mkcol norm)
  | checkout {path norm : Text} {timeout : Int} {principal : Option Text} :
    Makes (.checkout path timeout principal) (.lock norm timeout)
  | checkoutRead {path norm : Text} {timeout : Int} {principal : Option Text} :
    Makes (.checkout path timeout principal) (.get norm)
  | checkin {path norm lockToken : Text} {data : Bytes} {principal : Option Text} :
    Makes (.checkin path data lockToken principal) (.put norm data (some lockToken))
  | checkinUnlock {path norm lockToken : Text} {data : Bytes} {principal : Option Text} :
    Makes (.checkin path data lockToken principal) (.unlock norm lockToken)

theorem Operation.Makes.calls {op : Operation} {call : Verb} (h : op.Makes call) :
    op.calls call = true := by
  cases h <;> rfl

/-- A call of a verb asks one question, however it ends. -/
theorem callVerb_state {env : Environment} (instanceName : Text) (call : Verb) (w : World) :
    ((callVerb env instanceName call).run w).2 =
      { w with asked := w.asked + 1, trace := w.trace ++ [.verb instanceName call] } := by
  simp only [callVerb]
  split <;> rfl

section Frames

variable {platform : Platform} {layer : Layer} {db : Database} {env : Environment}
variable {instanceName : Text} {R : World → World → Prop} [Std.Refl R] [IsTrans World R]

/-- The relation holds across the decisions of the wall and the records. -/
structure Spans (platform : Platform) (env : Environment) (R : World → World → Prop) : Prop where
  wall : ∀ layer db instanceName norm mode, Effect.Along R (wall layer db env instanceName norm mode)
  record : ∀ s entry, Effect.Along R (auditRecord platform env s entry)

namespace Spans

theorem auditRefusal (hR : Spans platform env R) (path operation reason : Text) :
    Effect.Along R (auditRefusal platform layer env instanceName path operation reason) := by
  refine .bind .get fun world => ?_
  split
  · exact .pure _
  · exact .handle (hR.record _ _) fun _ => .pure _

theorem authorized (hR : Spans platform env R) (path mode : Text) :
    Effect.Along R (authorized platform layer db env instanceName path mode) := by
  rw [Nextcloud.authorized]
  split
  · exact .bind (hR.auditRefusal _ _ _) fun _ => .raise _
  · split
    · exact .bind (hR.auditRefusal _ _ _) fun _ => .raise _
    · refine .bind (hR.wall _ _ _ _ _) fun decision => ?_
      split
      · exact .pure _
      · exact .bind (hR.auditRefusal _ _ _) fun _ => .raise _

theorem auditAnd (hR : Spans platform env R) (path operation reason : Text) {call : Verb}
    (hCall : Effect.Along R (callVerb env instanceName call)) (principal : Option Text) :
    Effect.Along R
      (auditAnd platform layer env instanceName path operation reason call principal) := by
  have hScrubbed : Effect.Along R (scrubErrors layer instanceName
      (callVerb env instanceName call)) := by
    refine .handle hCall fun err => ?_
    split
    · exact .raise _
    · exact .raise _
  refine .bind .get fun world => ?_
  split
  · exact hScrubbed
  · exact .bind (hR.record _ _) fun _ => hScrubbed

theorem list (hR : Spans platform env R) (path : Text)
    (hCall : ∀ norm, Effect.Along R (callVerb env instanceName (.propfind norm))) :
    Effect.Along R (list platform layer db env instanceName path) := by
  rw [Nextcloud.list]
  split
  · exact .raise _
  split
  · exact .raise _
  split
  · exact hR.auditAnd _ _ _ (hCall _) _
  · refine .bind (.bind (hR.wall _ _ _ _ _) fun decision => ?_) fun _ => hR.auditAnd _ _ _ (hCall _) _
    split
    · exact .pure _
    · exact .raise _

/-- The rule for whole operations. -/
theorem makes (hR : Spans platform env R) (op : Operation)
    (hCall : ∀ call, op.Makes call → Effect.Along R (callVerb env instanceName call)) :
    Effect.Along R (op.run platform layer db env instanceName) := by
  have hOne (path mode : Text) {rest : Text → Run Reply}
      (hRest : ∀ norm, Effect.Along R (rest norm)) : Effect.Along R
        (Nextcloud.authorized platform layer db env instanceName path mode >>= rest) :=
    .bind (hR.authorized path mode) hRest
  cases op with
  | list path => exact .bind (hR.list path fun _ => hCall _ .list) fun _ => .pure _
  | read path principal =>
    exact .bind (hOne _ _ fun _ => hR.auditAnd _ _ _ (hCall _ .read) _) fun _ => .pure _
  | write path data principal =>
    exact .bind (hOne _ _ fun _ => hR.auditAnd _ _ _ (hCall _ .write) _) fun _ => .pure _
  | move src dst =>
    exact .bind (hOne _ _ fun _ => hOne _ _ fun _ => hR.auditAnd _ _ _ (hCall _ .move) _)
      fun _ => .pure _
  | trash path =>
    exact .bind (hOne _ _ fun _ => hR.auditAnd _ _ _ (hCall _ .trash) _) fun _ => .pure _
  | mkdir path =>
    exact .bind (hOne _ _ fun _ => hR.auditAnd _ _ _ (hCall _ .mkdir) _) fun _ => .pure _
  | checkout path timeout principal =>
    refine .bind (.bind (hR.authorized _ _) fun norm =>
      .bind (hR.auditAnd _ _ _ (hCall (.lock norm timeout) .checkout) _) fun result =>
        .bind (hR.auditAnd _ _ _ (hCall (.get norm) .checkoutRead) _) fun content => ?_) fun _ => .pure _
    dsimp only
    split
    · exact .pure _
    · exact .raise _
  | checkin path data lockToken principal =>
    exact .bind (.bind (hR.authorized _ _) fun norm =>
      .bind (hR.auditAnd _ _ _ (hCall (.put norm data (some lockToken)) .checkin) _) fun _ =>
        .bind (hR.auditAnd _ _ _ (hCall (.unlock norm lockToken) .checkinUnlock) _) fun _ => .pure _)
      fun _ => .pure _

end Spans

/-- The relation holds across the readings of the clocks, the decisions and the records. -/
structure Frames (platform : Platform) (env : Environment) (R : World → World → Prop) : Prop where
  now : Effect.Along R (now env)
  checked : ∀ instanceName path mode listed now decision,
    Effect.Along R (note (.checked instanceName path mode listed now decision))
  record : ∀ s entry, Effect.Along R (auditRecord platform env s entry)

namespace Frames

theorem spans (hR : Frames platform env R) : Spans platform env R where
  wall _ _ _ _ _ := .bind hR.now fun _ => .bind hR.now fun _ =>
    .bind (hR.checked _ _ _ _ _ _) fun _ => .pure _
  record := hR.record

theorem auditAnd (hR : Frames platform env R) (path operation reason : Text) {call : Verb}
    (hCall : Effect.Along R (callVerb env instanceName call)) (principal : Option Text) :
    Effect.Along R
      (auditAnd platform layer env instanceName path operation reason call principal) :=
  hR.spans.auditAnd path operation reason hCall principal

theorem run (hR : Frames platform env R) (op : Operation)
    (hCall : ∀ call, op.calls call = true → Effect.Along R (callVerb env instanceName call)) :
    Effect.Along R (op.run platform layer db env instanceName) :=
  hR.spans.makes op fun call hMakes => hCall call hMakes.calls

end Frames

end Frames

/-! ## Questions asked -/

def AsksOn (before after : World) : Prop := before.asked ≤ after.asked

instance : Std.Refl AsksOn where
  refl _ := le_refl _

instance : IsTrans World AsksOn where
  trans _ _ _ := Nat.le_trans

theorem operation_asks {platform : Platform} {layer : Layer} {db : Database} {env : Environment}
    {instanceName : Text} (op : Operation) :
    Effect.Along AsksOn (op.run platform layer db env instanceName) := by
  have hFrames : Frames platform env AsksOn := by
    refine ⟨fun world => Nat.le_succ _, fun _ _ _ _ _ _ world => le_refl _,
      fun s entry world => ?_⟩
    rcases auditRecord_cases platform env s entry world with ⟨s', hRun, _⟩ | ⟨s', cause, hRun⟩
    · rw [hRun]
      exact Nat.le_succ _
    · rw [hRun]
      exact Nat.le_succ _
  refine hFrames.run op fun call _ world => ?_
  rw [callVerb_state]
  exact Nat.le_succ _

/-! ## The log -/

def KeepsLog (before after : World) : Prop := before.audit.isSome = true → after.audit.isSome = true

instance : Std.Refl KeepsLog where
  refl _ := id

instance : IsTrans World KeepsLog where
  trans _ _ _ h h' hWired := h' (h hWired)

theorem operation_keepsLog {platform : Platform} {layer : Layer} {db : Database} {env : Environment}
    {instanceName : Text} (op : Operation) :
    Effect.Along KeepsLog (op.run platform layer db env instanceName) := by
  have hFrames : Frames platform env KeepsLog := by
    refine ⟨fun _ => id, fun _ _ _ _ _ _ _ => id, fun s entry world _ => ?_⟩
    rcases auditRecord_cases platform env s entry world with ⟨s', hRun, _⟩ | ⟨s', cause, hRun⟩ <;>
      rw [hRun] <;> rfl
  refine hFrames.run op fun call _ world => ?_
  rw [callVerb_state]
  exact id

/-! ## Verbs called -/

def OnlyCalls (allowed : Verb → Prop) (before after : List Event) : Prop :=
  ∃ events, after = before ++ events ∧
    ∀ instanceName call, .verb instanceName call ∈ events → allowed call

section OnlyCalls

variable {allowed : Verb → Prop}

theorem OnlyCalls.refl (trace : List Event) : OnlyCalls allowed trace trace :=
  ⟨[], (List.append_nil _).symm, fun _ _ hMem => absurd hMem List.not_mem_nil⟩

theorem OnlyCalls.trans {before between after : List Event} (hFirst : OnlyCalls allowed before between)
    (hSecond : OnlyCalls allowed between after) : OnlyCalls allowed before after := by
  obtain ⟨events, hEvents, hAllowed⟩ := hFirst
  obtain ⟨more, hMore, hAllowedMore⟩ := hSecond
  refine ⟨events ++ more, by rw [hMore, hEvents, List.append_assoc], ?_⟩
  intro instanceName call hMem
  rcases List.mem_append.mp hMem with hMem | hMem
  · exact hAllowed instanceName call hMem
  · exact hAllowedMore instanceName call hMem

theorem OnlyCalls.mono {allowed' : Verb → Prop} (hAllowed : ∀ call, allowed call → allowed' call)
    {before after : List Event} (h : OnlyCalls allowed before after) :
    OnlyCalls allowed' before after := by
  obtain ⟨events, hEvents, hCalls⟩ := h
  exact ⟨events, hEvents, fun instanceName call hMem => hAllowed call (hCalls _ call hMem)⟩

theorem OnlyCalls.concat {event : Event}
    (hEvent : ∀ instanceName call, event = .verb instanceName call → allowed call)
    (trace : List Event) : OnlyCalls allowed trace (trace ++ [event]) := by
  refine ⟨[event], rfl, fun instanceName call hMem => ?_⟩
  exact hEvent instanceName call (List.mem_singleton.mp hMem).symm

instance : Std.Refl (InvImage (OnlyCalls allowed) World.trace) where
  refl w := .refl w.trace

instance : IsTrans World (InvImage (OnlyCalls allowed) World.trace) where
  trans _ _ _ := OnlyCalls.trans

end OnlyCalls

/-- Records and decisions call no verb. -/
theorem onlyCalls_frames (platform : Platform) (env : Environment) (allowed : Verb → Prop) :
    Frames platform env (InvImage (OnlyCalls allowed) World.trace) := by
  refine ⟨fun world => .refl world.trace,
    fun _ _ _ _ _ _ world => .concat (by simp) world.trace, fun s entry world => ?_⟩
  rcases auditRecord_cases platform env s entry world with ⟨s', hRun, _⟩ | ⟨s', cause, hRun⟩
  · rw [hRun]
    exact .concat (by simp) world.trace
  · rw [hRun]
    exact .concat (by simp) world.trace

theorem callVerb_calls {env : Environment} {instanceName : Text} {allowed : Verb → Prop}
    {call : Verb} (hCall : allowed call) :
    Effect.Along (InvImage (OnlyCalls allowed) World.trace) (callVerb env instanceName call) := by
  intro world
  rw [callVerb_state]
  refine .concat ?_ world.trace
  rintro _ _ ⟨⟩
  exact hCall

theorem operation_calls {platform : Platform} {layer : Layer} {db : Database} {env : Environment}
    {instanceName : Text} (op : Operation) :
    Effect.Along (InvImage (OnlyCalls fun call => op.calls call = true) World.trace)
      (op.run platform layer db env instanceName) :=
  (onlyCalls_frames platform env _).run op fun _ hCall => callVerb_calls hCall

end AccessBroker.Nextcloud
