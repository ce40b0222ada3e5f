import AccessBroker.Paths

/-! # The verdict of the checker

The checker names the first grant that admits the request. What stands before it, in
which order and how often, changes nothing.
-/

namespace AccessBroker.Paths
open Py
set_option autoImplicit false

/-- A grant that admits nothing in this mode: expired, malformed or insufficient. -/
def Grant.Idle (g : Grant) (mode : Text) (now : Int) : Prop :=
  (∀ expiry, g.expiresAt = some expiry → expiry ≤ now) ∨
  (∀ root, normalizePath g.path = some root → root = []) ∨ g.mode ∉ modes ∨ ¬ Suffices g.mode mode

theorem Grant.Idle.not_admits {g : Grant} {mode : Text} {now : Int} (h : g.Idle mode now)
    (norm : Text) : ¬ g.Admits norm mode now := by
  intro hAdmits
  rcases h with hExpired | hMalformed | hMode | hInsufficient
  · obtain ⟨expiry, hExpiry, hLive⟩ := hAdmits.live
    exact absurd (hExpired expiry hExpiry) (by omega)
  · obtain ⟨root, hRoot, hNonempty, _⟩ := hAdmits.scope
    exact hNonempty (hMalformed root hRoot)
  · exact hMode hAdmits.valid
  · exact hInsufficient hAdmits.mode

theorem checkGrants_first {norm mode : Text} {now : Int} {g : Grant} {pre post : List Grant}
    (hPre : ∀ g' ∈ pre, ¬ g'.Admits norm mode now) (hAdmits : g.Admits norm mode now) :
    ∀ best, checkGrants norm mode now best (pre ++ g :: post) = ⟨true, some g.id, "ok".toList⟩ := by
  induction pre with
  | nil =>
    intro best
    rcases checkGrants_cons norm mode now best g post with ⟨_, hRun⟩ | ⟨hNot, _⟩
    · exact hRun
    · exact absurd hAdmits hNot
  | cons x pre ih =>
    intro best
    rcases checkGrants_cons norm mode now best x (pre ++ g :: post) with
      ⟨hFirst, _⟩ | ⟨_, best', _, hRun⟩
    · exact absurd hFirst (hPre x List.mem_cons_self)
    · rw [List.cons_append, hRun]
      exact ih (fun g' hg' => hPre g' (List.mem_cons_of_mem _ hg')) best'

theorem checkAccess_first {request mode r : Text} {now : Int} {g : Grant} {pre post : List Grant}
    (hMode : mode ∈ modes) (hNorm : normalizePath request = some r)
    (hPre : ∀ g' ∈ pre, ¬ g'.Admits r mode now) (hAdmits : g.Admits r mode now) :
    checkAccess request mode (pre ++ g :: post) now = ⟨true, some g.id, "ok".toList⟩ := by
  have hValid : ¬ mode ∉ modes := fun hNot => hNot hMode
  rw [checkAccess, if_neg hValid, hNorm]
  exact checkGrants_first hPre hAdmits none

theorem checkAccess_named {request mode : Text} {grants : List Grant} {now : Int}
    (h : (checkAccess request mode grants now).allowed = true) :
    ∃ r pre g post, normalizePath request = some r ∧ grants = pre ++ g :: post ∧
      (∀ g' ∈ pre, ¬ g'.Admits r mode now) ∧ g.Admits r mode now ∧
      checkAccess request mode grants now = ⟨true, some g.id, "ok".toList⟩ := by
  obtain ⟨hMode, r, hNorm, g, hg, hAdmits⟩ := checkAccess_allowed_iff.mp h
  rcases checkGrants_cases r mode now grants none (by simp) with
    ⟨pre, g, post, rfl, hPre, hAdmits, _⟩ | ⟨hNone, _⟩
  · exact ⟨r, pre, g, post, hNorm, rfl, hPre, hAdmits,
      checkAccess_first hMode hNorm hPre hAdmits⟩
  · exact absurd hAdmits (hNone g hg)

theorem checkAccess_allowed_congr {request mode : Text} {grants others : List Grant} {now : Int}
    (h : ∀ g, g ∈ others ↔ g ∈ grants) :
    (checkAccess request mode others now).allowed =
      (checkAccess request mode grants now).allowed := by
  rw [Bool.eq_iff_iff, checkAccess_allowed_iff, checkAccess_allowed_iff]
  simp only [h]

theorem checkAccess_idle_append {request mode : Text} {grants bad : List Grant} {now : Int}
    (hBad : ∀ g ∈ bad, g.Idle mode now)
    (h : (checkAccess request mode grants now).allowed = true) :
    checkAccess request mode (bad ++ grants) now = checkAccess request mode grants now := by
  have hMode : mode ∈ modes := (checkAccess_allowed_iff.mp h).1
  obtain ⟨r, pre, g, post, hNorm, rfl, hPre, hAdmits, hNamed⟩ := checkAccess_named h
  have hBefore : ∀ g' ∈ bad ++ pre, ¬ g'.Admits r mode now := by
    intro g' hg'
    rcases List.mem_append.mp hg' with hg' | hg'
    · exact (hBad g' hg').not_admits r
    · exact hPre g' hg'
  rw [hNamed, ← List.append_assoc]
  exact checkAccess_first hMode hNorm hBefore hAdmits

/-- The request is allowed exactly when some grant admits it, under the first such grant's
number, whatever the order of the grants, their repetitions, and the idle ones before. -/
theorem check_access_exact (request mode : Text) (grants : List Grant) (now : Int) :
    ((checkAccess request mode grants now).allowed = true ↔
      mode ∈ modes ∧ ∃ r, normalizePath request = some r ∧
        ∃ g ∈ grants, g.Admits r mode now) ∧
    ((checkAccess request mode grants now).allowed = true →
      ∃ r pre g post, normalizePath request = some r ∧ grants = pre ++ g :: post ∧
        (∀ g' ∈ pre, ¬ g'.Admits r mode now) ∧ g.Admits r mode now ∧
        (checkAccess request mode grants now).grantId = some g.id) ∧
    (∀ others, (∀ g, g ∈ others ↔ g ∈ grants) →
      (checkAccess request mode others now).allowed =
        (checkAccess request mode grants now).allowed) ∧
    (∀ bad, (∀ g ∈ bad, g.Idle mode now) →
      (checkAccess request mode grants now).allowed = true →
        checkAccess request mode (bad ++ grants) now = checkAccess request mode grants now) := by
  refine ⟨checkAccess_allowed_iff, ?_, fun others h => checkAccess_allowed_congr h,
    fun bad hBad h => checkAccess_idle_append hBad h⟩
  intro h
  obtain ⟨r, pre, g, post, hNorm, hGrants, hPre, hAdmits, hNamed⟩ := checkAccess_named h
  exact ⟨r, pre, g, post, hNorm, hGrants, hPre, hAdmits, by rw [hNamed]⟩

end AccessBroker.Paths
