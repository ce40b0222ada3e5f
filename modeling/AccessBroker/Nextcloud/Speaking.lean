import AccessBroker.Nextcloud.Dialogue
import AccessBroker.Nextcloud.Verbs

/-! # What an operation can say

However an operation ends, it has called only its own verbs, with the arguments it was given. A
checkout that returns has been given the lock, and then the content.
-/

namespace AccessBroker.Nextcloud
open Py Paths Grants Audit
set_option autoImplicit false

/-- What is said between two worlds calls only these verbs. -/
def Speaks (env : Environment) (allowed : Verb → Prop) (w w' : World) : Prop :=
  ∃ said, Says env w w' said ∧ ∀ exchange ∈ said, allowed exchange.call

section Speaking

variable {env : Environment} {allowed : Verb → Prop} {w w' : World}

instance : Std.Refl (Speaks env allowed) where
  refl w := ⟨[], .refl env w, fun _ hMem => absurd hMem List.not_mem_nil⟩

instance : IsTrans World (Speaks env allowed) where
  trans := by
    rintro w between w' ⟨said, hFirst, hSaid⟩ ⟨more, hSecond, hMore⟩
    refine ⟨said ++ more, hFirst.trans hSecond, fun exchange hMem => ?_⟩
    rcases List.mem_append.mp hMem with hMem | hMem
    · exact hSaid exchange hMem
    · exact hMore exchange hMem

variable {platform : Platform} {layer : Layer} {db : Database} {instanceName : Text}

theorem Says.speaks (h : Says env w w' []) : Speaks env allowed w w' :=
  ⟨[], h, fun _ hMem => absurd hMem List.not_mem_nil⟩

variable (platform env allowed) in
theorem speaks_spans : Spans platform env (Speaks env allowed) where
  wall layer db instanceName norm mode w := by
    obtain ⟨w', hWall, hAsked, _, hTrace⟩ := wall_run layer db env instanceName norm mode w
    rw [hWall]
    exact Says.speaks ⟨_, hTrace, hAsked, rfl⟩
  record s entry w := (auditRecord_speaks env platform s entry w).speaks

theorem callVerb_said {call : Verb} (hCall : allowed call) :
    Effect.Along (Speaks env allowed) (callVerb env instanceName call) := by
  intro w
  rw [callVerb_state]
  refine ⟨[⟨instanceName, call, env.reply w.asked⟩], ⟨[.verb instanceName call], rfl, rfl, rfl⟩, ?_⟩
  intro exchange hMem
  rw [List.mem_singleton.mp hMem]
  exact hCall

theorem operation_speaks (op : Operation) (hMakes : ∀ call, op.Makes call → allowed call) :
    Effect.Along (Speaks env allowed) (op.run platform layer db env instanceName) :=
  (speaks_spans env allowed platform).makes op fun call hCall => callVerb_said (hMakes call hCall)

theorem authorized_said {path mode norm : Text}
    (hRun : (authorized platform layer db env instanceName path mode).run w = (.ok norm, w')) :
    namespaceGuard platform path = some norm ∧ Says env w w' [] := by
  have hSays := authorized_speaks env platform layer db instanceName path mode w
  rw [hRun] at hSays
  rcases authorized_decides platform layer db env instanceName path mode w with
    ⟨_, _, hPasses, hPass, _⟩ | ⟨_, _, _, _, _, hRefuse, _⟩
  · rw [hRun] at hPass
    cases hPass
    exact ⟨hPasses.guard, hSays⟩
  · rw [hRun] at hRefuse
    cases hRefuse

theorem auditAnd_said {path operation reason : Text} {call : Verb} {principal : Option Text}
    {reply : Reply}
    (hRun : (auditAnd platform layer env instanceName path operation reason call principal).run w =
      (.ok reply, w')) : Says env w w' [⟨instanceName, call, .ok reply⟩] := by
  rcases auditAnd_leaves platform layer env instanceName w path operation reason call principal with
    ⟨hPermits, result, w₁, hCall, hReply, _⟩ | ⟨_, err, w₁, hCall, _⟩
  · have hSays := auditAnd_speaks platform call hPermits
    rw [hRun] at hCall hSays
    cases hCall
    rw [(hReply reply).mp rfl] at hSays
    exact hSays
  · rw [hRun] at hCall
    cases hCall

/-- A checkout that returns was given the lock first, and then the content. -/
theorem checkout_said {path : Text} {timeout : Int} {principal lockToken : Option Text}
    {content : Option Bytes}
    (hRun : (checkout platform layer db env instanceName path timeout principal).run w =
      (.ok (lockToken, content), w')) :
    ∃ norm locked got, namespaceGuard platform path = some norm ∧
      Says env w w' [⟨instanceName, .lock norm timeout, .ok locked⟩,
        ⟨instanceName, .get norm, .ok got⟩] ∧
      lockToken = locked.lockToken ∧ content = if got.isDict then got.content else none := by
  obtain ⟨norm, w₁, hPass, hRun⟩ := Effect.of_bind hRun
  obtain ⟨locked, w₂, hLock, hRun⟩ := Effect.of_bind hRun
  obtain ⟨got, w₃, hGet, hRun⟩ := Effect.of_bind hRun
  obtain ⟨hGuard, hWall⟩ := authorized_said hPass
  dsimp only at hRun
  split at hRun
  · cases hRun
    exact ⟨norm, locked, got, hGuard, hWall.trans ((auditAnd_said hLock).trans (auditAnd_said hGet)),
      rfl, rfl⟩
  · cases hRun

end Speaking

end AccessBroker.Nextcloud
