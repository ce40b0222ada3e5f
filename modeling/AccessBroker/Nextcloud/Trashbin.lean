import AccessBroker.Nextcloud.Verbs

/-! # The trash namespaces

The guard looks at the very text that a verb is given later, after all decoding
and folding, so no spelling of a path reaches the trash.
-/

namespace AccessBroker.Nextcloud
open Py Paths Grants Audit
set_option autoImplicit false

def InTrashbin (platform : Platform) (path : Text) : Prop :=
  ∃ name ∈ forbiddenNames, Within name (platform.lower path)

variable {platform : Platform}

theorem forbidden_iff {path : Text} :
    (forbiddenNames.any fun name =>
      platform.lower path == name || startsWith (platform.lower path) (name ++ ['/'])) = true ↔
      InTrashbin platform path := by
  rw [InTrashbin, List.any_eq_true]
  refine exists_congr fun name => and_congr_right fun _ => ?_
  rw [← inside_iff, inside, Bool.beq_comm]

theorem forbiddenNames_ne_nil {name : Text} (hName : name ∈ forbiddenNames) : name ≠ [] := by
  rintro rfl
  exact absurd hName (by decide)

theorem not_inTrashbin_root (hLower : platform.lower [] = []) : ¬ InTrashbin platform [] := by
  rintro ⟨name, hName, hWithin⟩
  rw [hLower] at hWithin
  have hParts := hWithin.eq_of_length_le (by
    rw [components, components, List.splitOn_nil]
    exact List.length_pos_iff.mpr (List.splitOn_ne_nil '/' name))
  exact forbiddenNames_ne_nil hName (Components.splitOn_injective '/' hParts)

/-- Whatever the guard lets through is outside the trash. -/
theorem namespaceGuard_outside (hLower : platform.lower [] = []) {path norm : Text}
    (hGuard : namespaceGuard platform path = some norm) : ¬ InTrashbin platform norm := by
  rw [namespaceGuard] at hGuard
  split at hGuard
  · split at hGuard
    · cases hGuard
      exact not_inTrashbin_root hLower
    · cases hGuard
  · split at hGuard
    · cases hGuard
    · rename_i hAllowed
      cases hGuard
      exact fun hTrash => hAllowed (forbidden_iff.mpr hTrash)

theorem Mediated.outside (hLower : platform.lower [] = []) {layer : Layer} {db : Database}
    {env : Environment} {instanceName : Text} {op : Operation} {wired : Bool} {start : Nat}
    {before : List Event} {call : Verb}
    (h : Mediated platform layer db env instanceName op wired start before call) :
    ∀ path ∈ call.paths, ¬ InTrashbin platform path := by
  intro path hPath
  rcases h.admitted with ⟨raw, norm, _, hGuard, rfl, _⟩ | hAdmitted
  · rw [Verb.paths, List.mem_singleton] at hPath
    rw [hPath]
    exact namespaceGuard_outside hLower hGuard
  · obtain ⟨target, _, k, _, hAt⟩ := hAdmitted.mem hPath
    exact namespaceGuard_outside hLower hAt.guard

/-- No operation calls a verb with a path in the trash. -/
theorem trashbin_unreachable (platform : Platform) (hLower : platform.lower [] = [])
    (layer : Layer) (db : Database) (env : Environment) (instanceName : Text) (op : Operation)
    (w : World) :
    OnlyCalls (fun call => ∀ path ∈ call.paths, ¬ InTrashbin platform path) w.trace
      ((op.run platform layer db env instanceName).run w).2.trace := by
  obtain ⟨events, hTrace, hJustified, _⟩ :=
    run_mediated platform layer db env instanceName op w
  refine ⟨events, hTrace, fun name call hMem => ?_⟩
  obtain ⟨before, after, hSplit⟩ := List.append_of_mem hMem
  obtain ⟨_, hMediated⟩ := hJustified before _ after hSplit name call rfl
  exact hMediated.outside hLower

/-- A grant on `trashbin` itself reaches nothing, however the path is spelled. -/
theorem trashbin_unreachable_encoded :
    OnlyCalls (fun call => ∀ path ∈ call.paths, ¬ InTrashbin plainPlatform path) opened.trace
        (((Operation.trash "a/..\\%2554rashbin/".toList).run plainPlatform oneClient
          (oneGrant ⟨"trashbin".toList, WRITE⟩) calm ['p']).run opened).2.trace ∧
      (((Operation.trash "a/..\\%2554rashbin/".toList).run plainPlatform oneClient
        (oneGrant ⟨"trashbin".toList, WRITE⟩) calm ['p']).run opened).1 =
        .error (.accessRefused "path is in a forbidden namespace".toList) :=
  ⟨trashbin_unreachable plainPlatform rfl oneClient (oneGrant ⟨"trashbin".toList, WRITE⟩) calm
    ['p'] (.trash "a/..\\%2554rashbin/".toList) opened, by decide +kernel⟩

end AccessBroker.Nextcloud
