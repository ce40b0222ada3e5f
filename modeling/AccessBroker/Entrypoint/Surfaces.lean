import AccessBroker.Entrypoint
import AccessBroker.System.Steps

/-! # The surfaces are separate

Content moves only on the transfer surface, under the transfer token; names are
listed and rearranged only on the agent surface, under the agent token.
-/

namespace AccessBroker.Entrypoint
open Py Nextcloud Server AccessBroker.System
set_option autoImplicit false

/-! ## Bearer headers -/

/-- A bearer header with this token; the scheme is read in any case. -/
def Bears (header token : Text) : Prop :=
  ∃ scheme : Text, scheme.map Char.toLower = "bearer ".toList ∧ header = scheme ++ token

theorem lowerLatin1_eq_iff {c d : Char} (hd : d.toNat < 0xC0) :
    lowerLatin1 c = d ↔ c.toLower = d := by
  unfold lowerLatin1
  split
  · rename_i hUpper
    have hSame : c.toLower = c := by
      unfold Char.toLower
      split
      · rename_i hAscii
        have : c.toNat ≤ 90 := hAscii.2
        omega
      · rfl
    have hLowered : (Char.ofNat (c.toNat + 32)).toNat = c.toNat + 32 :=
      Json.toNat_ofNat (by omega)
    constructor
    · rintro rfl
      omega
    · rintro rfl
      rw [hSame] at hd
      omega
  · rfl

theorem map_lowerLatin1_eq_iff {text target : Text} (hTarget : ∀ d ∈ target, d.toNat < 0xC0) :
    text.map lowerLatin1 = target ↔ text.map Char.toLower = target := by
  induction text generalizing target with
  | nil => simp
  | cons c text ih =>
    cases target with
    | nil => simp
    | cons d target =>
      have hTail : ∀ d' ∈ target, d'.toNat < 0xC0 :=
        fun d' hd' => hTarget d' (List.mem_cons_of_mem d hd')
      simp only [List.map_cons, List.cons.injEq, lowerLatin1_eq_iff (hTarget d List.mem_cons_self),
        ih hTail]

theorem bearerToken_eq_some_iff {header token : Text} :
    bearerToken header = some token ↔ Bears header token := by
  have hAscii : ∀ d ∈ "bearer ".toList, d.toNat < 0xC0 := by
    have hAll : ("bearer ".toList.all fun d => decide (d.toNat < 0xC0)) = true := by decide
    exact fun d hd => of_decide_eq_true (List.all_eq_true.mp hAll d hd)
  unfold bearerToken
  constructor
  · intro h
    split at h
    · rename_i hScheme
      have hTaken := List.prefix_iff_eq_take.mp (List.isPrefixOf_iff_prefix.mp hScheme)
      rw [← List.map_take] at hTaken
      refine ⟨header.take 7, (map_lowerLatin1_eq_iff hAscii).mp hTaken.symm, ?_⟩
      rw [← Option.some.inj h, List.take_append_drop]
    · cases h
  · rintro ⟨scheme, hScheme, rfl⟩
    have hLength : scheme.length = 7 := by simpa using congrArg List.length hScheme
    rw [if_pos]
    · rw [← hLength, List.drop_left]
    · rw [List.map_append, (map_lowerLatin1_eq_iff hAscii).mpr hScheme]
      exact List.isPrefixOf_iff_prefix.mpr (List.prefix_append _ _)

theorem encode_injective : Function.Injective encode := by
  intro text text' h
  have hBytes : text.utf8Encode = text'.utf8Encode := congrArg List.toByteArray h
  have hDecoded := congrArg ByteArray.utf8Decode? hBytes
  simpa [List.utf8Decode?_utf8Encode] using hDecoded

theorem checkAuth_iff {provided : Option Text} {expected : Text} :
    checkAuth provided expected = true ↔ provided = some expected ∧ expected ≠ [] := by
  match provided with
  | none => simp [checkAuth]
  | some [] =>
    simp only [checkAuth, Option.some.injEq]
    grind
  | some (c :: rest) =>
    simp only [checkAuth, beq_iff_eq, encode_injective.eq_iff, Option.some.injEq]
    grind

/-! ## Dispatch -/

def AtOrBelow (here path : Text) : Prop := path = here ∨ ∃ rest, path = here ++ '/' :: rest

theorem matches_iff {here path : Text} :
    (path == here || startsWith path (here ++ ['/'])) = true ↔ AtOrBelow here path := by
  simp only [Bool.or_eq_true, beq_iff_eq, startsWith, List.isPrefixOf_iff_prefix, AtOrBelow]
  refine or_congr Iff.rfl (exists_congr fun rest => ?_)
  rw [List.append_assoc, List.singleton_append, eq_comm]

theorem mounts_apart {path : Text} (hAgent : AtOrBelow (mount .agent) path) :
    ¬AtOrBelow (mount .transfer) path := by
  have hSecond : path[1]? = some 'm' := by
    rcases hAgent with rfl | ⟨rest, rfl⟩ <;> rfl
  rintro (rfl | ⟨rest, rfl⟩)
  · exact absurd hSecond (by decide)
  · exact absurd (show some 't' = some 'm' from hSecond) (by decide)

def tokenOf (config : Config.AgentConfig) : Surface → Text
  | .agent => config.token
  | .transfer => config.transferToken

theorem tokenOf_ne_nil (config : Config.AgentConfig) (surface : Surface) :
    tokenOf config surface ≠ [] := by
  have hLong : 32 ≤ (tokenOf config surface).length := by
    cases surface with
    | agent => exact config.token_long
    | transfer => exact config.transferToken_long
  intro hNil
  rw [hNil] at hLong
  exact absurd hLong (by decide)

theorem tokenOf_injective (config : Config.AgentConfig) :
    Function.Injective (tokenOf config) := by
  intro surface surface' h
  cases surface <;> cases surface'
  · rfl
  · exact absurd h config.token_ne_transferToken
  · exact absurd h.symm config.token_ne_transferToken
  · rfl

theorem Bears.unique {header token token' : Text} (h : Bears header token)
    (h' : Bears header token') : token = token' :=
  Option.some.inj ((bearerToken_eq_some_iff.mpr h).symm.trans (bearerToken_eq_some_iff.mpr h'))

structure Admitted (config : Config.AgentConfig) (req : Request) (surface : Surface) : Prop where
  path : AtOrBelow (mount surface) req.path
  token : Bears req.authorization (tokenOf config surface)

theorem guard_answer_eq_app {config : Config.AgentConfig} {req : Request}
    {surface surface' : Surface} :
    BearerMiddleware.answer ⟨surface', tokenOf config surface'⟩ req = .app surface ↔
      surface' = surface ∧ Bears req.authorization (tokenOf config surface) := by
  have hAuth : checkAuth (bearerToken req.authorization) (tokenOf config surface') = true ↔
      Bears req.authorization (tokenOf config surface') := by
    rw [checkAuth_iff, bearerToken_eq_some_iff]
    exact and_iff_left (tokenOf_ne_nil config surface')
  rw [BearerMiddleware.answer]
  split
  · rename_i h
    simp only [Response.app.injEq]
    constructor
    · rintro rfl
      exact ⟨rfl, hAuth.mp h⟩
    · exact And.left
  · rename_i h
    constructor
    · exact fun hAnswer => Response.noConfusion hAnswer
    · rintro ⟨rfl, hBears⟩
      exact absurd (hAuth.mpr hBears) h

theorem answer_eq_app_iff {config : Config.AgentConfig} {req : Request} {surface : Surface} :
    answer config req = .app surface ↔ Admitted config req surface := by
  have hRoutes : buildDualApp config.token config.transferToken =
      [(mount .transfer, ⟨.transfer, tokenOf config .transfer⟩),
        (mount .agent, ⟨.agent, tokenOf config .agent⟩)] := rfl
  rw [answer, hRoutes, Routes.answer, List.find?_cons, List.find?_cons]
  by_cases hTransfer : AtOrBelow (mount .transfer) req.path
  · have hAgent : ¬AtOrBelow (mount .agent) req.path := fun h => mounts_apart h hTransfer
    rw [matches_iff.mpr hTransfer]
    refine guard_answer_eq_app.trans ⟨?_, fun h => ⟨?_, h.token⟩⟩
    · rintro ⟨rfl, hBears⟩
      exact ⟨hTransfer, hBears⟩
    · cases surface with
      | agent => exact absurd h.path hAgent
      | transfer => rfl
  · rw [Bool.eq_false_iff.mpr (mt matches_iff.mp hTransfer)]
    by_cases hAgent : AtOrBelow (mount .agent) req.path
    · rw [matches_iff.mpr hAgent]
      refine guard_answer_eq_app.trans ⟨?_, fun h => ⟨?_, h.token⟩⟩
      · rintro ⟨rfl, hBears⟩
        exact ⟨hAgent, hBears⟩
      · cases surface with
        | agent => rfl
        | transfer => exact absurd h.path hTransfer
    · rw [Bool.eq_false_iff.mpr (mt matches_iff.mp hAgent)]
      constructor
      · exact fun hAnswer => Response.noConfusion hAnswer
      · intro h
        cases surface with
        | agent => exact absurd h.path hAgent
        | transfer => exact absurd h.path hTransfer

theorem answer_cases (config : Config.AgentConfig) (req : Request) :
    (∃ surface, answer config req = .app surface) ∨
      answer config req ∈ [.unauthorized, .notFound] := by
  rw [answer, Routes.answer]
  split
  · rw [BearerMiddleware.answer]
    split
    · exact Or.inl ⟨_, rfl⟩
    · exact Or.inr List.mem_cons_self
  · exact Or.inr (List.mem_cons_of_mem _ List.mem_cons_self)

/-! ## Verbs -/

def surfaceOf : Verb → Surface
  | .get _ | .put _ _ _ | .lock _ _ | .unlock _ _ => .transfer
  | .propfind _ | .move _ _ | .delete _ | .mkcol _ => .agent

/-- The surface with the tool that asks for an operation. -/
def toolSurface : Operation → Surface
  | .read _ _ | .write _ _ _ | .checkout _ _ _ | .checkin _ _ _ _ => .transfer
  | .list _ | .move _ _ | .trash _ | .mkdir _ => .agent

theorem surfaceOf_of_calls {op : Operation} {call : Verb} (hCall : op.calls call = true) :
    surfaceOf call = toolSurface op := by
  cases op <;> cases call <;> first | rfl | cases hCall

theorem toolSurface_of_registered {decode : Text → Option Bytes} {surface : Surface} {tool : Tool}
    {instanceName : Text} {op : Operation} (hTool : tool.name ∈ surface.tools)
    (hOp : tool.operation decode surface = some (instanceName, op)) :
    toolSurface op = surface := by
  cases tool with
  | requestAccess | checkAccess | listInstances => cases hOp
  | list instanceName path =>
    cases hOp
    cases surface with
    | agent => rfl
    | transfer => exact absurd hTool (show "list".toList ∉ TRANSFER_TOOLS by decide +kernel)
  | move instanceName src dst =>
    cases hOp
    cases surface with
    | agent => rfl
    | transfer => exact absurd hTool (show "move".toList ∉ TRANSFER_TOOLS by decide +kernel)
  | trash instanceName path =>
    cases hOp
    cases surface with
    | agent => rfl
    | transfer => exact absurd hTool (show "trash".toList ∉ TRANSFER_TOOLS by decide +kernel)
  | mkdir instanceName path =>
    cases hOp
    cases surface with
    | agent => rfl
    | transfer => exact absurd hTool (show "mkdir".toList ∉ TRANSFER_TOOLS by decide +kernel)
  | read instanceName path =>
    cases hOp
    cases surface with
    | agent => exact absurd hTool (show "read".toList ∉ AGENT_TOOLS by decide +kernel)
    | transfer => rfl
  | checkout instanceName path timeout =>
    cases hOp
    cases surface with
    | agent => exact absurd hTool (show "checkout".toList ∉ AGENT_TOOLS by decide +kernel)
    | transfer => rfl
  | write instanceName path content =>
    obtain ⟨data, _, hOp⟩ := Option.map_eq_some_iff.mp hOp
    cases hOp
    cases surface with
    | agent => exact absurd hTool (show "write".toList ∉ AGENT_TOOLS by decide +kernel)
    | transfer => rfl
  | checkin instanceName path content lockToken =>
    rw [Tool.operation] at hOp
    split at hOp
    · cases hOp
    · obtain ⟨data, _, hOp⟩ := Option.map_eq_some_iff.mp hOp
      cases hOp
      cases surface with
      | agent => exact absurd hTool (show "checkin".toList ∉ AGENT_TOOLS by decide +kernel)
      | transfer => rfl

section Serving

variable (w : Wiring) (env : Environment)

theorem call_trace (s : Broker) (writer : Audit.AuditLog) (surface : Surface) (tool : Tool) :
    OnlyCalls (fun call => surfaceOf call = surface) s.trace
      (s.call w env writer surface tool).trace := by
  unfold Broker.call
  split
  · exact .refl _
  rename_i hTool
  split
  · rw [Broker.perform_trace]
    exact .refl _
  · rw [Broker.perform_trace]
    exact .refl _
  · split
    · exact .refl _
    · rename_i op hOp
      refine OnlyCalls.mono ?_ (operation_calls op ⟨some ⟨writer, s.files⟩, s.desk.asked, s.trace⟩)
      intro call hCall
      rw [surfaceOf_of_calls hCall]
      exact toolSurface_of_registered (not_not.mp hTool) hOp

theorem step_call_trace (s : Broker) (surface : Surface) (tool : Tool) :
    OnlyCalls (fun call => surfaceOf call = surface) s.trace
      (s.step w env (.call surface tool)).trace := by
  unfold Broker.step
  split
  · exact call_trace w env s _ surface tool
  · exact .refl _

theorem serve_trace (config : Config.AgentConfig) (s : Broker) (req : Request) :
    OnlyCalls (fun call => Admitted config req (surfaceOf call)) s.trace
      (serve w env config s req).trace := by
  unfold serve
  split
  · exact .refl _
  · rename_i surface hAnswer
    have hAdmitted := answer_eq_app_iff.mp hAnswer
    induction req.calls generalizing s with
    | nil => exact .refl _
    | cons tool calls ih =>
      refine OnlyCalls.trans (OnlyCalls.mono ?_ (step_call_trace w env s surface tool)) (ih _)
      rintro call rfl
      exact hAdmitted

/-- Content verbs come only from the transfer surface under the transfer token, the others
only from the agent surface under the agent token; no header opens both surfaces, and any
other request reaches neither. -/
theorem surfaces_separated (config : Config.AgentConfig) (s : Broker) (req : Request) :
    (∃ events, (serve w env config s req).trace = s.trace ++ events ∧
      ∀ instanceName call, .verb instanceName call ∈ events →
        AtOrBelow (mount (surfaceOf call)) req.path ∧
          Bears req.authorization (tokenOf config (surfaceOf call))) ∧
    (∀ other surface surface', req.authorization = other.authorization →
      answer config req = .app surface → answer config other = .app surface' →
        surface = surface') ∧
    ((∀ surface, ¬(AtOrBelow (mount surface) req.path ∧
        Bears req.authorization (tokenOf config surface))) →
      answer config req ∈ [.unauthorized, .notFound] ∧ serve w env config s req = s) := by
  refine ⟨?_, ?_, ?_⟩
  · obtain ⟨events, hEvents, hCalls⟩ := serve_trace w env config s req
    refine ⟨events, hEvents, fun instanceName call hMem => ?_⟩
    have hAdmitted := hCalls instanceName call hMem
    exact ⟨hAdmitted.path, hAdmitted.token⟩
  · intro other surface surface' hSame hAnswer hOther
    have hToken := (answer_eq_app_iff.mp hAnswer).token
    have hToken' := (answer_eq_app_iff.mp hOther).token
    rw [hSame] at hToken
    exact tokenOf_injective config (hToken.unique hToken')
  · intro hNone
    have hClosed (surface : Surface) : answer config req ≠ .app surface := fun hAnswer =>
      hNone surface ⟨(answer_eq_app_iff.mp hAnswer).path, (answer_eq_app_iff.mp hAnswer).token⟩
    rcases answer_cases config req with ⟨surface, hAnswer⟩ | hAnswer
    · exact absurd hAnswer (hClosed surface)
    · refine ⟨hAnswer, ?_⟩
      unfold serve
      split
      · rfl
      · exact absurd ‹_› (hClosed _)

end Serving

def plainTokens : Config.AgentConfig :=
  ⟨List.replicate 32 'a', List.replicate 32 't', by decide, by decide, by decide⟩

/-- A checkout, under `Authorization: BEARER ttt…`. -/
def checkoutAt (path : Text) : Request :=
  ⟨path, [("authorization".toList, "BEARER ".toUTF8.toList ++ List.replicate 32 116)],
    [.checkout "nc".toList "docs/a".toList 0]⟩

example : answer plainTokens (checkoutAt "/transfer/mcp".toList) = .app .transfer := by
  decide +kernel

example : answer plainTokens (checkoutAt "/mcp".toList) = .unauthorized := by decide +kernel

example : answer plainTokens (checkoutAt "/transfers".toList) = .notFound := by decide +kernel

end AccessBroker.Entrypoint
