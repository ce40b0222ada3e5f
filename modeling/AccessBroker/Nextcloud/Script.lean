import AccessBroker.Nextcloud.Speaking

/-! # The script of an operation

An operation has the verbs of its script called in order, and goes on only after a verb that
returned. It returns exactly if the whole script was called and every verb returned.
-/

namespace AccessBroker.Nextcloud
open Py Paths Grants Audit
set_option autoImplicit false

def Operation.script : Operation → List Text → List Verb
  | .list _, [norm] => [.propfind norm]
  | .read _ _, [norm] => [.get norm]
  | .write _ data _, [norm] => [.put norm data none]
  | .move _ _, [normSrc, normDst] => [.move normSrc normDst]
  | .trash _, [norm] => [.delete norm]
  | .mkdir _, [norm] => [.mkcol norm]
  | .checkout _ timeout _, [norm] => [.lock norm timeout, .get norm]
  | .checkin _ data lockToken _, [norm] => [.put norm data (some lockToken), .unlock norm lockToken]
  | _, _ => []

def Exchange.returned (exchange : Exchange) : Prop := ∃ reply, exchange.ended = .ok reply

/-- Whatever is returned is a `dict`. -/
def Dicts (said : List Exchange) : Prop :=
  ∀ exchange ∈ said, ∀ reply, exchange.ended = .ok reply → reply.isDict = true

/-- Between two worlds a beginning of the script is called; the result is a value exactly if all of
it is called and returns. -/
def Plays {α : Type} (env : Environment) (instanceName : Text) (script : List Verb)
    (result : Except LayerError α) (w w' : World) : Prop :=
  ∃ said, Says env w w' said ∧ (∀ exchange ∈ said, exchange.instanceName = instanceName) ∧
    said.map Exchange.call <+: script ∧ (∀ exchange ∈ said.dropLast, exchange.returned) ∧
    (Dicts said → ((∃ a, result = .ok a) ↔
      said.map Exchange.call = script ∧ ∀ exchange ∈ said, exchange.returned))

def PlaysOut {α : Type} (env : Environment) (instanceName : Text) (script : List Verb)
    (part : Run α) : Prop :=
  ∀ w, Plays env instanceName script (part.run w).1 w (part.run w).2

section Scripts

variable {platform : Platform} {layer : Layer} {db : Database} {env : Environment}
variable {instanceName : Text} {script more : List Verb} {w w' between : World}

theorem Dicts.right {said others : List Exchange} (h : Dicts (said ++ others)) : Dicts others :=
  fun exchange hMem => h exchange (List.mem_append_right _ hMem)

theorem plays_pure {α : Type} (a : α) : PlaysOut env instanceName [] (pure a : Run α) :=
  fun w => ⟨[], .refl env w, by simp, List.nil_prefix, by simp,
    fun _ => iff_of_true ⟨a, rfl⟩ (by simp)⟩

/-- What is silent and returns goes on with the script. -/
theorem Plays.after {α : Type} {result : Except LayerError α} (hFirst : Says env w between [])
    (h : Plays env instanceName script result between w') :
    Plays env instanceName script result w w' := by
  obtain ⟨said, hSaid, hRest⟩ := h
  exact ⟨said, hFirst.trans hSaid, hRest⟩

/-- What holds of a list, and of all but the last of another, holds of all but the last of both. -/
theorem forall_dropLast_append {α : Type} {P : α → Prop} {xs ys : List α} (hxs : ∀ a ∈ xs, P a)
    (hys : ∀ a ∈ ys.dropLast, P a) : ∀ a ∈ (xs ++ ys).dropLast, P a := by
  intro a hMem
  rcases List.eq_nil_or_concat ys with rfl | ⟨ys, last, rfl⟩
  · rw [List.append_nil] at hMem
    exact hxs a (List.dropLast_subset xs hMem)
  · rw [List.concat_eq_append, ← List.append_assoc, List.dropLast_concat] at hMem
    rw [List.concat_eq_append, List.dropLast_concat] at hys
    exact (List.mem_append.mp hMem).elim (hxs a) (hys a)

/-- After a script that was played well, the rest plays the rest. -/
theorem Plays.continued {α : Type} {said : List Exchange} {result : Except LayerError α}
    (hSaid : Says env w between said) (hInstance : ∀ exchange ∈ said, exchange.instanceName = instanceName)
    (hAll : ∀ exchange ∈ said, exchange.returned)
    (hSecond : Plays env instanceName more result between w') :
    Plays env instanceName (said.map Exchange.call ++ more) result w w' := by
  obtain ⟨others, hOthers, hInstance', hPrefix, hGoesOn, hReturns⟩ := hSecond
  refine ⟨said ++ others, hSaid.trans hOthers, ?_, ?_, forall_dropLast_append hAll hGoesOn,
    fun hDicts => ?_⟩
  · exact fun exchange hMem =>
      (List.mem_append.mp hMem).elim (hInstance exchange) (hInstance' exchange)
  · rw [List.map_append]
    exact (List.prefix_append_right_inj _).mpr hPrefix
  · rw [hReturns hDicts.right, List.map_append, List.append_cancel_left_eq, List.forall_mem_append]
    exact and_congr_right fun _ => (and_iff_right hAll).symm

/-- A part that raised has not played its script well, and so not the script it begins. -/
theorem Plays.stopped {α β : Type} {err : LayerError}
    (h : Plays env instanceName script (.error err : Except LayerError α) w w') :
    Plays env instanceName (script ++ more) (.error err : Except LayerError β) w w' := by
  obtain ⟨said, hSaid, hInstance, hPrefix, hGoesOn, hReturns⟩ := h
  refine ⟨said, hSaid, hInstance, hPrefix.trans (List.prefix_append _ _), hGoesOn,
    fun hDicts => ?_⟩
  refine iff_of_false (by simp) fun hWhole => ?_
  have hScript : said.map Exchange.call = script :=
    hPrefix.eq_of_length_le (by rw [hWhole.1, List.length_append]; omega)
  obtain ⟨a, hOk⟩ := (hReturns hDicts).mpr ⟨hScript, hWhole.2⟩
  cases hOk

/-! ## Parts -/

theorem auditAnd_plays (path operation reason : Text) (call : Verb) (principal : Option Text) :
    PlaysOut env instanceName [call]
      (auditAnd platform layer env instanceName path operation reason call principal) := by
  intro w
  have hVerb (w : World) : Plays env instanceName [call]
      ((scrubErrors layer instanceName (callVerb env instanceName call)).run w).1 w
      ((scrubErrors layer instanceName (callVerb env instanceName call)).run w).2 := by
    obtain ⟨result, hRun, hReturns⟩ := callVerb_leaves layer env instanceName w call
    refine ⟨_, callVerb_speaks env layer instanceName call w, by simp, List.prefix_rfl, by simp,
      fun _ => ?_⟩
    rw [hRun]
    simp [Exchange.returned, hReturns]
  rw [auditAnd, Effect.bind_ok (Effect.get_run w)]
  cases w.audit with
  | none => exact hVerb w
  | some s =>
    dsimp only
    have hSays := auditRecord_speaks env platform s
      (allowedEntry layer instanceName path operation reason principal) w
    rcases hRun : (auditRecord platform env s
        (allowedEntry layer instanceName path operation reason principal)).run w with ⟨err | _, w'⟩
    · rw [hRun] at hSays
      rw [Effect.bind_error hRun]
      exact ⟨[], hSays, by simp, List.nil_prefix, by simp, fun _ => by simp⟩
    · rw [hRun] at hSays
      rw [Effect.bind_ok hRun]
      exact (hVerb w').after hSays

/-- A verb, and what comes after it. -/
theorem auditAnd_then {β : Type} {path operation reason : Text} {call : Verb}
    {principal : Option Text} {rest : Reply → Run β}
    (hRest : ∀ reply, PlaysOut env instanceName more (rest reply)) :
    PlaysOut env instanceName (call :: more) (auditAnd platform layer env instanceName path operation
      reason call principal >>= rest) := by
  intro w
  have hFirst : Plays env instanceName [call]
      ((auditAnd platform layer env instanceName path operation reason call principal).run w).1 w
      ((auditAnd platform layer env instanceName path operation reason call principal).run w).2 :=
    auditAnd_plays path operation reason call principal w
  rcases hRun : (auditAnd platform layer env instanceName path operation reason call principal).run w
    with ⟨err | reply, w'⟩
  · rw [hRun] at hFirst
    rw [Effect.bind_error hRun]
    exact hFirst.stopped
  · rw [Effect.bind_ok hRun]
    exact .continued (auditAnd_said hRun) (by simp) (by simp [Exchange.returned]) (hRest reply w')

/-- After the lock, the read is played; the lock is handed out if it comes as a `dict`. -/
theorem checkout_plays (norm : Text) (timeout : Int) (principal : Option Text) :
    PlaysOut env instanceName [.lock norm timeout, .get norm] (do
      let result ← auditAnd platform layer env instanceName norm "checkout".toList
        "granted write".toList (.lock norm timeout) principal
      let content ← auditAnd platform layer env instanceName norm "read".toList
        "checkout read".toList (.get norm) principal
      let data := if content.isDict then content.content else none
      if result.isDict then return (result.lockToken, data) else Effect.raise .attributeError) := by
  intro w
  have hLock : Plays env instanceName [.lock norm timeout]
      ((auditAnd platform layer env instanceName norm "checkout".toList "granted write".toList
        (.lock norm timeout) principal).run w).1 w
      ((auditAnd platform layer env instanceName norm "checkout".toList "granted write".toList
        (.lock norm timeout) principal).run w).2 := auditAnd_plays _ _ _ _ _ w
  rcases hRun : (auditAnd platform layer env instanceName norm "checkout".toList
      "granted write".toList (.lock norm timeout) principal).run w with ⟨err | locked, w'⟩
  · rw [hRun] at hLock
    rw [Effect.bind_error hRun]
    exact hLock.stopped
  rw [Effect.bind_ok hRun]
  have hSaid : Says env w w' [⟨instanceName, .lock norm timeout, .ok locked⟩] := auditAnd_said hRun
  by_cases hDict : locked.isDict = true
  · simp only [hDict, if_true]
    exact .continued hSaid (by simp) (by simp [Exchange.returned])
      (auditAnd_then (fun content => plays_pure _) w')
  · simp only [hDict]
    obtain ⟨others, hOthers, hInstance, hPrefix, hGoesOn, _⟩ :
        Plays env instanceName [.get norm] _ w' _ := auditAnd_plays norm "read".toList
          "checkout read".toList (.get norm) principal w'
    rw [Effect.bind_state fun _ _ => rfl]
    refine ⟨_, hSaid.trans hOthers, ?_, ?_, ?_, fun hDicts => ?_⟩
    · simpa using hInstance
    · exact (List.prefix_cons_inj _).mpr hPrefix
    · exact forall_dropLast_append (by simp [Exchange.returned]) hGoesOn
    · exact absurd (hDicts _ List.mem_cons_self locked rfl) hDict

/-! ## Operations -/

/-- A wall refuses and nothing is called, or the script for what the targets stand for is played. -/
inductive Played {α : Type} (platform : Platform) (env : Environment) (instanceName : Text)
    (targets : List (Text × Text)) (script : List Text → List Verb) (result : Except LayerError α)
    (w w' : World) : Prop where
  | refused {err : LayerError} : result = .error err → Says env w w' [] →
    Played platform env instanceName targets script result w w'
  | played {norms : List Text} :
    targets.map (fun target => namespaceGuard platform target.1) = norms.map some →
    Plays env instanceName (script norms) result w w' →
    Played platform env instanceName targets script result w w'

theorem Played.after {α : Type} {target : Text × Text} {targets : List (Text × Text)}
    {script : List Text → List Verb} {norm : Text} {result : Except LayerError α}
    (hGuard : namespaceGuard platform target.1 = some norm) (hFirst : Says env w between [])
    (h : Played platform env instanceName targets (fun norms => script (norm :: norms)) result
      between w') : Played platform env instanceName (target :: targets) script result w w' := by
  cases h with
  | refused hResult hSaid => exact .refused hResult (hFirst.trans hSaid)
  | played hGuards hPlays => exact .played (by simp [hGuard, hGuards]) (hPlays.after hFirst)

/-- A target that the wall decides on comes before what plays the script. -/
theorem authorized_played {α : Type} {path mode : Text} {targets : List (Text × Text)}
    {script : List Text → List Verb} {rest : Text → Run α}
    (hRest : ∀ norm w, Played platform env instanceName targets (fun norms => script (norm :: norms))
      ((rest norm).run w).1 w ((rest norm).run w).2) (w : World) :
    Played platform env instanceName ((path, mode) :: targets) script
      ((authorized platform layer db env instanceName path mode >>= rest).run w).1 w
      ((authorized platform layer db env instanceName path mode >>= rest).run w).2 := by
  rcases hRun : (authorized platform layer db env instanceName path mode).run w with ⟨err | norm, w'⟩
  · have hSays := authorized_speaks env platform layer db instanceName path mode w
    rw [hRun] at hSays
    rw [Effect.bind_error hRun]
    exact .refused rfl hSays
  · obtain ⟨hGuard, hSays⟩ := authorized_said hRun
    rw [Effect.bind_ok hRun]
    exact .after hGuard hSays (hRest norm w')

theorem PlaysOut.played {α : Type} {part : Run α} {script : List Text → List Verb}
    (h : PlaysOut env instanceName (script []) part) (w : World) :
    Played platform env instanceName [] script (part.run w).1 w (part.run w).2 :=
  have hGuards : ([] : List (Text × Text)).map (fun target => namespaceGuard platform target.1) =
      ([] : List Text).map some := rfl
  .played hGuards (h w)

theorem list_played (path : Text) (w : World) :
    Played platform env instanceName [(path, READ)] (Operation.script (.list path))
      ((list platform layer db env instanceName path).run w).1 w
      ((list platform layer db env instanceName path).run w).2 := by
  have hCall (norm reason : Text) (w : World) : Played platform env instanceName []
      (fun norms => (Operation.list path).script (norm :: norms))
      ((auditAnd platform layer env instanceName norm "list".toList reason (.propfind norm)
        none).run w).1 w ((auditAnd platform layer env instanceName norm "list".toList reason
          (.propfind norm) none).run w).2 := PlaysOut.played (auditAnd_plays _ _ _ _ _) w
  unfold Nextcloud.list
  split
  · exact .refused rfl (.refl env w)
  split
  · exact .refused rfl (.refl env w)
  rename_i norm hGuard
  split
  · exact .after hGuard (.refl env w) (hCall norm _ w)
  obtain ⟨w₁, hWall, hAsked, _, hTrace⟩ := wall_run layer db env instanceName norm READ w
  have hChecked : Says env w w₁ [] := ⟨_, hTrace, hAsked, rfl⟩
  rw [authorizedRead, Effect.bind_assoc, Effect.bind_ok hWall]
  split
  · exact .after hGuard hChecked (hCall norm _ w₁)
  · exact .refused rfl hChecked

theorem Played.map {α β : Type} {targets : List (Text × Text)} {script : List Text → List Verb}
    {part : Run α} (f : α → β) (h : Played platform env instanceName targets script (part.run w).1 w
      (part.run w).2) :
    Played platform env instanceName targets script
      ((part >>= fun a => pure (f a) : Run β).run w).1 w
      ((part >>= fun a => pure (f a) : Run β).run w).2 := by
  rcases hRun : part.run w with ⟨err | a, w'⟩
  · rw [hRun] at h
    rw [Effect.bind_error hRun]
    cases h with
    | refused _ hSaid => exact .refused rfl hSaid
    | played hGuards hPlays =>
      obtain ⟨said, hSaid, hInstance, hPrefix, hGoesOn, hReturns⟩ := hPlays
      exact .played hGuards ⟨said, hSaid, hInstance, hPrefix, hGoesOn,
        fun hDicts => by simpa using hReturns hDicts⟩
  · rw [hRun] at h
    rw [Effect.bind_ok hRun]
    cases h with
    | refused hResult _ => cases hResult
    | played hGuards hPlays =>
      obtain ⟨said, hSaid, hInstance, hPrefix, hGoesOn, hReturns⟩ := hPlays
      exact .played hGuards ⟨said, hSaid, hInstance, hPrefix, hGoesOn,
        fun hDicts => by simpa using hReturns hDicts⟩

/-- Every operation is refused, or plays its script. -/
theorem operation_played (platform : Platform) (layer : Layer) (db : Database) (env : Environment)
    (instanceName : Text) (op : Operation) (w : World) :
    Played platform env instanceName op.targets op.script
      ((op.run platform layer db env instanceName).run w).1 w
      ((op.run platform layer db env instanceName).run w).2 := by
  cases op with
  | list path => exact (list_played path w).map _
  | read path principal =>
    exact (authorized_played (fun norm => PlaysOut.played (auditAnd_plays _ _ _ _ _)) w).map _
  | write path data principal =>
    exact (authorized_played (fun norm => PlaysOut.played (auditAnd_plays _ _ _ _ _)) w).map _
  | move src dst =>
    exact (authorized_played (fun normSrc => authorized_played fun normDst =>
      PlaysOut.played (auditAnd_plays _ _ _ _ _)) w).map _
  | trash path =>
    exact (authorized_played (fun norm => PlaysOut.played (auditAnd_plays _ _ _ _ _)) w).map _
  | mkdir path =>
    exact (authorized_played (fun norm => PlaysOut.played (auditAnd_plays _ _ _ _ _)) w).map _
  | checkout path timeout principal =>
    exact (authorized_played (fun norm => PlaysOut.played (checkout_plays norm timeout principal))
      w).map _
  | checkin path data lockToken principal =>
    exact (authorized_played (fun norm => PlaysOut.played (auditAnd_then fun written =>
      auditAnd_then fun unlocked => plays_pure _)) w).map _

end Scripts

end AccessBroker.Nextcloud
