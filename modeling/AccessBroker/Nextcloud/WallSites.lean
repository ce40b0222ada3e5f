import AccessBroker.Grants.Display
import AccessBroker.Nextcloud.Outcomes

/-! # The two wall sites

`_authorized` and the listing flatten the active grants into one grant for each item.
What they decide is the union over the items, each with its own path, mode and instance.
-/

namespace AccessBroker.Nextcloud
open Py Paths Grants Audit
set_option autoImplicit false

def Granted (store : Settings) (db : Database) (now : Int) (instanceName norm mode : Text) : Prop :=
  ∃ rid row, db.grants.get? rid = some row ∧ row.instanceName = instanceName ∧
    effectiveState store now row = .active ∧ ∃ item ∈ row.items, ∃ root again,
      normalizePath item.path = some root ∧ root ≠ [] ∧ normalizePath norm = some again ∧
        Within root again ∧ (mode = WRITE → item.mode = WRITE)

def Reaches {α : Type} (run : Run α) (w : World) (instanceName : Text) (call : Verb) : Prop :=
  ∃ events, (run.run w).2.trace = w.trace ++ events ∧ .verb instanceName call ∈ events

section Decision

variable {layer : Layer} {db : Database} {instanceName : Text}

theorem mem_grantsAt {listed : Int} {g : Grant} :
    g ∈ grantsAt layer db listed instanceName ↔ ∃ rid row, db.grants.get? rid = some row ∧
      row.instanceName = instanceName ∧ effectiveState layer.store listed row = .active ∧
      ∃ item ∈ row.items, g = ⟨item.path, item.mode, row.expiresAt, rid⟩ := by
  rw [grantsAt, List.mem_flatMap]
  constructor
  · rintro ⟨rec, hRec, hg⟩
    obtain ⟨row, expiry, hRow, hActive, hExpiry, hBefore, hName, hEq⟩ := mem_activeGrants.mp hRec
    obtain ⟨item, hItem, rfl⟩ := List.mem_map.mp hg
    rw [hEq] at hItem
    refine ⟨rec.id, row, hRow, hName _ rfl, ?_, item, hItem, by rw [hEq]; rfl⟩
    exact effectiveState_eq_active.mpr ⟨hActive, expiry, hExpiry, hBefore⟩
  · rintro ⟨rid, row, hRow, hName, hLive, item, hItem, rfl⟩
    obtain ⟨hActive, expiry, hExpiry, hBefore⟩ := effectiveState_eq_active.mp hLive
    refine ⟨toRecord layer.store listed rid row, mem_activeGrants.mpr
      ⟨row, expiry, hRow, hActive, hExpiry, hBefore, ?_, rfl⟩, List.mem_map.mpr ⟨item, hItem, rfl⟩⟩
    intro name hSome
    cases hSome
    exact hName

theorem allowed_iff_granted {norm mode : Text} {now : Int} (hMode : mode ∈ modes)
    (hItems : ∀ rid row, db.grants.get? rid = some row → row.state = .active →
      ∀ item ∈ row.items, item.mode ∈ modes) :
    (checkAccess norm mode (grantsAt layer db now instanceName) now).allowed = true ↔
      Granted layer.store db now instanceName norm mode := by
  rw [checkAccess_allowed_iff]
  constructor
  · rintro ⟨_, again, hAgain, g, hg, hAdmits⟩
    obtain ⟨rid, row, hRow, hName, hLive, item, hItem, rfl⟩ := mem_grantsAt.mp hg
    obtain ⟨root, hRoot, hNonempty, hWithin⟩ := hAdmits.scope
    exact ⟨rid, row, hRow, hName, hLive, item, hItem, root, again, hRoot, hNonempty, hAgain,
      hWithin, hAdmits.mode⟩
  · rintro ⟨rid, row, hRow, hName, hLive, item, hItem, root, again, hRoot, hNonempty, hAgain,
      hWithin, hSuffices⟩
    obtain ⟨hActive, expiry, hExpiry, hBefore⟩ := effectiveState_eq_active.mp hLive
    refine ⟨hMode, again, hAgain, ⟨item.path, item.mode, row.expiresAt, rid⟩, ?_, ?_⟩
    · exact mem_grantsAt.mpr ⟨rid, row, hRow, hName, hLive, item, hItem, rfl⟩
    · exact ⟨⟨expiry, hExpiry, hBefore⟩, hItems rid row hRow hActive item hItem, hSuffices,
        root, hRoot, hNonempty, hWithin⟩

theorem session_modes (cfg : Settings) (start : Int) (acts : List Grants.Act) :
    let db := (Machine.run (Session.step cfg) (Session.start start) acts).db
    ∀ rid row, db.grants.get? rid = some row → row.state = .active →
      ∀ item ∈ row.items, item.mode ∈ modes := by
  intro db rid row hRow hActive item hItem
  obtain ⟨expiry, hExpiry⟩ := Option.ne_none_iff_exists'.mp (row.active_expires hActive)
  have hAuth := ((Session.run_agrees start acts rid).authorized _ _ _).mpr
    ⟨row, hRow, hActive, rfl, rfl, hExpiry⟩
  exact (hAuth.accepted item hItem).mode

end Decision

section Sites

variable {platform : Platform} {layer : Layer} {db : Database} {env : Environment}
variable {instanceName : Text} {w : World}

theorem Leaves.reaches_iff {α : Type} {run : Run α} {written : Entry → Prop}
    {called : Text → Verb → Prop} (h : Leaves w (run.run w).2 written called) (name : Text)
    (call : Verb) : Reaches run w name call ↔ called name call := by
  obtain ⟨events, hEvents, _, hCalled⟩ := h
  rw [← hCalled]
  constructor
  · rintro ⟨events', hEvents', hMem⟩
    rw [hEvents] at hEvents'
    rwa [List.append_cancel_left hEvents']
  · exact fun hMem => ⟨events, hEvents, hMem⟩

/-- What follows a site calls its verb exactly when the site passes and the log permits it. -/
theorem Decides.reaches_iff {site : Run Text} {path mode operation reason : Text}
    {call : Text → Verb} {principal : Option Text} {recording : Prop}
    (h : Decides platform layer db env instanceName w path mode site recording)
    (hCall : ∀ norm norm', call norm = call norm' → norm = norm') (norm : Text) :
    Reaches (do
      let norm ← site
      auditAnd platform layer env instanceName norm operation reason (call norm) principal : Run Reply)
        w instanceName (call norm) ↔
      Passes platform layer db env.clock w.asked instanceName path mode norm ∧
        Permits env (w.asked + 2) w.audit
          (allowedEntry layer instanceName norm operation reason principal) := by
  rcases h with ⟨norm₁, w₁, hPasses, hRun, hAsked, hAudit, hSite⟩ | ⟨hNone, err, w₁, _, _, hRun, hSite⟩
  · rcases auditAnd_leaves platform layer env instanceName w₁ norm₁ operation reason (call norm₁)
      principal with
      ⟨hPermits, result, w₂, hCalls, _, _, _, _, hLeaves⟩ | ⟨hNot, err, w₂, hCalls, hLeaves⟩
    · rw [Leaves.reaches_iff (hSite.after (by rw [Effect.bind_ok hRun, hCalls]; exact hLeaves))]
      rw [hAsked, hAudit] at hPermits
      constructor
      · rintro ⟨_, hSame⟩
        cases hCall _ _ hSame
        exact ⟨hPasses, hPermits⟩
      · rintro ⟨hNorm, _⟩
        rw [hNorm.norm_eq hPasses.guard]
        exact ⟨rfl, rfl⟩
    · rw [Leaves.reaches_iff (hSite.after (by rw [Effect.bind_ok hRun, hCalls]; exact hLeaves))]
      rw [hAsked, hAudit] at hNot
      refine ⟨False.elim, ?_⟩
      rintro ⟨hNorm, hPermits⟩
      cases hNorm.norm_eq hPasses.guard
      exact hNot hPermits
  · rw [Leaves.reaches_iff (by rw [Effect.bind_error hRun]; exact hSite)]
    exact ⟨False.elim, fun h => hNone norm h.1⟩

theorem authorized_ok_iff {path mode norm : Text} :
    ((authorized platform layer db env instanceName path mode).run w).1 = .ok norm ↔
      Passes platform layer db env.clock w.asked instanceName path mode norm := by
  rcases authorized_decides platform layer db env instanceName path mode w with
    ⟨norm₁, w₁, hPasses, hRun, _⟩ | ⟨hNone, err, w₁, _, _, hRun, _⟩
  · rw [hRun]
    refine ⟨fun h => ?_, fun h => ?_⟩
    · cases h
      exact hPasses
    · rw [h.norm_eq hPasses.guard]
  · rw [hRun]
    exact ⟨fun h => (by cases h), fun h => absurd h (hNone norm)⟩

/-- On an instance that is not open to discovery, listing and reading reach the transport for
the same normalized paths. -/
theorem list_reaches_iff_read (path : Text) (principal : Option Text) (norm : Text)
    (hDiscovery : instanceName ∉ layer.discoveryInstances) (hSecrets : Unsecretive w.audit) :
    Reaches (list platform layer db env instanceName path) w instanceName (.propfind norm) ↔
      Reaches (read platform layer db env instanceName path principal) w instanceName
        (.get norm) := by
  obtain ⟨site, hDecides, hList⟩ := list_decides platform layer db env instanceName path w hDiscovery
  rw [hList, read, hDecides.reaches_iff (by simp),
    (authorized_decides platform layer db env instanceName path READ w).reaches_iff (by simp)]
  refine and_congr_right fun _ => forall₂_congr fun s hs => ?_
  rw [recordable_iff (hSecrets s hs) rfl rfl, recordable_iff (hSecrets s hs) rfl rfl]

end Sites

/-- With both clocks at one instant, the wall passes a path exactly when one live item of one
grant on the instance covers it, and the listing is held to the same wall as a read. -/
theorem wall_is_union (platform : Platform) (layer : Layer) (start : Int) (acts : List Grants.Act)
    (env : Environment) (w : World) (instanceName path : Text) :
    let db := (Machine.run (Session.step layer.store) (Session.start start) acts).db
    (env.clock (w.asked + 1) = env.clock w.asked → ∀ mode ∈ modes, ∀ norm,
      ((authorized platform layer db env instanceName path mode).run w).1 = .ok norm ↔
        (layer.clients.lookup instanceName).isSome = true ∧
          namespaceGuard platform path = some norm ∧
          Granted layer.store db (env.clock w.asked) instanceName norm mode) ∧
    (∀ mode ∉ modes, ∀ norm,
      ((authorized platform layer db env instanceName path mode).run w).1 ≠ .ok norm) ∧
    (Unsecretive w.audit → instanceName ∉ layer.discoveryInstances → ∀ principal norm,
      Reaches (list platform layer db env instanceName path) w instanceName (.propfind norm) ↔
        Reaches (read platform layer db env instanceName path principal) w instanceName
          (.get norm)) := by
  intro db
  refine ⟨fun hSame mode hMode norm => ?_, fun mode hMode norm hRun => ?_,
    fun hSecrets hDiscovery principal norm =>
      list_reaches_iff_read path principal norm hDiscovery hSecrets⟩
  · have hUnion : (checkAccess norm mode (grantsAt layer db (env.clock w.asked) instanceName)
        (env.clock w.asked)).allowed = true ↔
        Granted layer.store db (env.clock w.asked) instanceName norm mode :=
      allowed_iff_granted hMode (session_modes layer.store start acts)
    rw [authorized_ok_iff, ← hUnion]
    constructor
    · rintro ⟨hKnown, hGuard, hAllowed⟩
      rw [hSame] at hAllowed
      exact ⟨hKnown, hGuard, hAllowed⟩
    · rintro ⟨hKnown, hGuard, hAllowed⟩
      refine ⟨hKnown, hGuard, ?_⟩
      rw [hSame]
      exact hAllowed
  · have hPasses := authorized_ok_iff.mp hRun
    exact hMode (checkAccess_allowed_iff.mp hPasses.allowed).1

def oneStore : Layer := ⟨defaultSettings, [("nc".toList, ⟨none⟩)], [], none⟩

theorem wall_is_union_docs :
    let db := (Machine.run (Session.step defaultSettings) (Session.start 0)
      (approvedRequest "docs".toList READ)).db
    Granted defaultSettings db 1 "nc".toList "docs/x".toList READ ∧
      (Reaches (list plainPlatform oneStore db calm "nc".toList "docs/x".toList) opened
        "nc".toList (.propfind "docs/x".toList) ↔
      Reaches (read plainPlatform oneStore db calm "nc".toList "docs/x".toList none) opened
        "nc".toList (.get "docs/x".toList)) := by
  obtain ⟨hUnion, _, hSites⟩ := wall_is_union plainPlatform oneStore 0
    (approvedRequest "docs".toList READ) calm opened "nc".toList "docs/x".toList
  have hUnsecretive : Unsecretive opened.audit := by
    rintro _ ⟨⟩
    rfl
  exact ⟨((hUnion rfl READ (by decide) _).mp (by decide +kernel)).2.2,
    hSites hUnsecretive (by decide) none _⟩

end AccessBroker.Nextcloud
