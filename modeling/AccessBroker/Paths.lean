import AccessBroker.Library.Components
import AccessBroker.Library.Unquote

/-! # The path checker

The single enforcement function for file access: percent-decoding to a cap,
backslash folding, dot segments, and the component-prefix match against the
active grants. Instants are microseconds, as integers.
-/

namespace AccessBroker.Paths
open Py
set_option autoImplicit false

def READ : Text := "read".toList

def WRITE : Text := "write".toList

def modes : List Text := [READ, WRITE]

def maxDecodePasses : Nat := 4

def maxPathLength : Nat := 2048

structure Decision where
  allowed : Bool
  grantId : Option Nat
  reason : Text
  deriving DecidableEq

structure Grant where
  path : Text
  mode : Text
  expiresAt : Option Int
  id : Nat
  deriving DecidableEq

def percentDecodeLoop : Nat → Text → Text
  -- at the cap the source returns the text as it stands, whether it is stable or not
  | 0, current => current
  | passes + 1, current =>
    let decoded := unquote current
    if decoded = current then decoded else percentDecodeLoop passes decoded

def percentDecode (raw : Text) : Text := percentDecodeLoop maxDecodePasses raw

def isControl (c : Char) : Bool := c.toNat < 0x20 || c.toNat == 0x7F

def foldBackslash (c : Char) : Char := if c = '\\' then '/' else c

def components (path : Text) : List Text := path.splitOn '/'

def joinPath (parts : List Text) : Text := ['/'].intercalate parts

/-- The component loop of `normalize_path`; `parts` is the path built so far. -/
def resolveComponents : List Text → List Text → Option (List Text)
  | parts, [] => some parts
  | parts, component :: rest =>
    if component = [] ∨ component = ['.'] then resolveComponents parts rest
    else if component = ['.', '.'] then
      if parts = [] then none else resolveComponents parts.dropLast rest
    else resolveComponents (parts ++ [component]) rest

def normalizePath (raw : Text) : Option Text :=
  if isBlank raw then none
  else if maxPathLength < raw.length then none
  else if raw.any isControl then none
  else (resolveComponents [] (components ((percentDecode raw).map foldBackslash))).map joinPath

def inside (granted requested : Text) : Bool :=
  granted == requested || startsWith requested (granted ++ ['/'])

def expiredReason (g : Grant) : Text :=
  "grant ".toList ++ decimal g.id ++ " expired".toList

def readOnlyReason (g : Grant) : Text :=
  "grant ".toList ++ decimal g.id ++ " is read-only; write not permitted".toList

/-- The loop over the grants; `best` is the refusal kept for the reason text. -/
def checkGrants (norm mode : Text) (now : Int) : Option Decision → List Grant → Decision
  | best, [] => best.getD ⟨false, none, "path not covered by any active grant".toList⟩
  | best, g :: grants =>
    match normalizePath g.path with
    | none => checkGrants norm mode now best grants
    | some grantNorm =>
      if grantNorm = [] then checkGrants norm mode now best grants
      else if g.mode ∉ modes then checkGrants norm mode now best grants
      else if inside grantNorm norm = false then checkGrants norm mode now best grants
      else if g.expiresAt.all (· ≤ now) then
        checkGrants norm mode now (best.or (some ⟨false, none, expiredReason g⟩)) grants
      else if mode = WRITE ∧ g.mode ≠ WRITE then
        checkGrants norm mode now (best.or (some ⟨false, none, readOnlyReason g⟩)) grants
      else ⟨true, some g.id, "ok".toList⟩

def checkAccess (requestedPath mode : Text) (grants : List Grant) (now : Int) : Decision :=
  if mode ∉ modes then ⟨false, none, "unknown mode".toList⟩
  else
    match normalizePath requestedPath with
    | none => ⟨false, none, "malformed or hostile path".toList⟩
    | some norm => checkGrants norm mode now none grants

/-! ## What the checker decides -/

/-- Component-prefix containment of paths. -/
def Within (granted requested : Text) : Prop := components granted <+: components requested

instance (granted requested : Text) : Decidable (Within granted requested) :=
  inferInstanceAs (Decidable (components granted <+: components requested))

theorem inside_iff (granted requested : Text) :
    inside granted requested = true ↔ Within granted requested := by
  rw [Within, components, components, Components.splitOn_prefix_iff]
  simp [inside, startsWith]

/-- A mode that suffices for the requested one. -/
def Suffices (granted requested : Text) : Prop := requested = WRITE → granted = WRITE

instance (granted requested : Text) : Decidable (Suffices granted requested) :=
  inferInstanceAs (Decidable (requested = WRITE → granted = WRITE))

theorem Suffices.refl (mode : Text) : Suffices mode mode := fun h => h

theorem Suffices.trans {a b c : Text} (h : Suffices a b) (h' : Suffices b c) : Suffices a c :=
  fun hc => h (h' hc)

/-- The grant authorizes `mode` on the normalized path `norm`. -/
structure Grant.Admits (g : Grant) (norm mode : Text) (now : Int) : Prop where
  live : ∃ expiry, g.expiresAt = some expiry ∧ now < expiry
  valid : g.mode ∈ modes
  mode : Suffices g.mode mode
  scope : ∃ root, normalizePath g.path = some root ∧ root ≠ [] ∧ Within root norm

/-- One turn of the loop: the grant answers, or it can only fill in a refusal. -/
theorem checkGrants_cons (norm mode : Text) (now : Int) (best : Option Decision) (g : Grant)
    (grants : List Grant) :
    (g.Admits norm mode now ∧
      checkGrants norm mode now best (g :: grants) = ⟨true, some g.id, "ok".toList⟩) ∨
    (¬ g.Admits norm mode now ∧ ∃ best',
      (∀ d, best' = some d → best = some d ∨ d.allowed = false) ∧
      checkGrants norm mode now best (g :: grants) = checkGrants norm mode now best' grants) := by
  have hKept : ∀ reason d, best.or (some ⟨false, none, reason⟩) = some d →
      best = some d ∨ d.allowed = false := by
    intro reason d hd
    cases best with
    | none => cases hd; exact Or.inr rfl
    | some b => exact Or.inl hd
  rw [checkGrants]
  split
  · rename_i hRoot
    refine Or.inr ⟨fun h => ?_, best, fun d hd => Or.inl hd, rfl⟩
    obtain ⟨root, hSome, _⟩ := h.scope
    rw [hRoot] at hSome
    cases hSome
  · rename_i root hRoot
    have hScope : g.Admits norm mode now → root ≠ [] ∧ Within root norm := by
      intro h
      obtain ⟨root', hSome, hNonempty, hWithin⟩ := h.scope
      rw [hRoot] at hSome
      cases hSome
      exact ⟨hNonempty, hWithin⟩
    split
    · rename_i hEmpty
      exact Or.inr ⟨fun h => (hScope h).1 hEmpty, best, fun d hd => Or.inl hd, rfl⟩
    split
    · rename_i hInvalid
      exact Or.inr ⟨fun h => hInvalid h.valid, best, fun d hd => Or.inl hd, rfl⟩
    split
    · rename_i hOutside
      refine Or.inr ⟨fun h => ?_, best, fun d hd => Or.inl hd, rfl⟩
      rw [(inside_iff root norm).mpr (hScope h).2] at hOutside
      cases hOutside
    split
    · rename_i hExpired
      refine Or.inr ⟨fun h => ?_, _, hKept _, rfl⟩
      obtain ⟨expiry, hExpiry, hLive⟩ := h.live
      simp only [hExpiry, Option.all_some, decide_eq_true_eq] at hExpired
      omega
    split
    · rename_i hReadOnly
      exact Or.inr ⟨fun h => hReadOnly.2 (h.mode hReadOnly.1), _, hKept _, rfl⟩
    · rename_i hNonempty hValid hInside hLive hMode
      refine Or.inl ⟨⟨?_, by simpa using hValid, ?_, root, hRoot, hNonempty, ?_⟩, rfl⟩
      · cases hExpiry : g.expiresAt with
        | none => simp [hExpiry] at hLive
        | some expiry => exact ⟨expiry, rfl, by simpa [hExpiry] using hLive⟩
      · intro hWrite
        exact Decidable.byContradiction fun hNot => hMode ⟨hWrite, hNot⟩
      · exact (inside_iff root norm).mp (by simpa using hInside)

/-- The loop answers with the first grant that admits the request, or refuses. -/
theorem checkGrants_cases (norm mode : Text) (now : Int) (grants : List Grant) :
    ∀ best : Option Decision, (∀ d, best = some d → d.allowed = false) →
      (∃ pre g post, grants = pre ++ g :: post ∧ (∀ g' ∈ pre, ¬ g'.Admits norm mode now) ∧
        g.Admits norm mode now ∧
        checkGrants norm mode now best grants = ⟨true, some g.id, "ok".toList⟩) ∨
      ((∀ g ∈ grants, ¬ g.Admits norm mode now) ∧
        (checkGrants norm mode now best grants).allowed = false) := by
  induction grants with
  | nil =>
    intro best hBest
    refine Or.inr ⟨by simp, ?_⟩
    cases best with
    | none => rfl
    | some d => exact hBest d rfl
  | cons g grants ih =>
    intro best hBest
    rcases checkGrants_cons norm mode now best g grants with
      ⟨hAdmits, hRun⟩ | ⟨hNot, best', hKept, hRun⟩
    · exact Or.inl ⟨[], g, grants, rfl, by simp, hAdmits, hRun⟩
    · rw [hRun]
      have hBest' : ∀ d, best' = some d → d.allowed = false := by
        intro d hd
        rcases hKept d hd with h | h
        · exact hBest d h
        · exact h
      rcases ih best' hBest' with ⟨pre, g', post, rfl, hPre, hAdmits, hFound⟩ | ⟨hNone, hRefused⟩
      · refine Or.inl ⟨g :: pre, g', post, rfl, ?_, hAdmits, hFound⟩
        intro x hx
        rcases List.mem_cons.mp hx with rfl | hx
        · exact hNot
        · exact hPre x hx
      · refine Or.inr ⟨?_, hRefused⟩
        intro x hx
        rcases List.mem_cons.mp hx with rfl | hx
        · exact hNot
        · exact hNone x hx

theorem checkGrants_allowed_iff {norm mode : Text} {now : Int} {grants : List Grant} :
    (checkGrants norm mode now none grants).allowed = true ↔
      ∃ g ∈ grants, g.Admits norm mode now := by
  rcases checkGrants_cases norm mode now grants none (by simp) with
    ⟨pre, g, post, rfl, _, hAdmits, hFound⟩ | ⟨hNone, hRefused⟩
  · rw [hFound]
    exact ⟨fun _ => ⟨g, by simp, hAdmits⟩, fun _ => rfl⟩
  · rw [hRefused]
    constructor
    · intro h
      cases h
    · rintro ⟨g, hg, hAdmits⟩
      exact absurd hAdmits (hNone g hg)

theorem checkAccess_allowed_iff {path mode : Text} {grants : List Grant} {now : Int} :
    (checkAccess path mode grants now).allowed = true ↔
      mode ∈ modes ∧ ∃ norm, normalizePath path = some norm ∧ ∃ g ∈ grants, g.Admits norm mode now := by
  rw [checkAccess]
  split
  · rename_i hMode
    exact ⟨fun h => (by cases h), fun h => absurd h.1 hMode⟩
  · rename_i hMode
    have hMode : mode ∈ modes := by simpa using hMode
    split
    · rename_i hNone
      refine ⟨fun h => (by cases h), ?_⟩
      rintro ⟨_, norm, hNorm, _⟩
      rw [hNone] at hNorm
      cases hNorm
    · rename_i norm hNorm
      rw [checkGrants_allowed_iff]
      simp [hMode, hNorm]

end AccessBroker.Paths
