import AccessBroker.Cli.LockTokens
import AccessBroker.Library.Lookup

/-! # Whose token a checkin spends

The manifest a checkin takes the lock token from, told from the staging directory
alone, and from it exactly which checkins release the lock of their own path.
-/

namespace AccessBroker.Cli
open Py
set_option autoImplicit false

/-! ## The manifest picked -/

def ByName (a b : Staged Manifest) : Prop := a.digest ++ ".json".toList ≤ b.digest ++ ".json".toList

instance : DecidableRel ByName := fun a b =>
  inferInstanceAs (Decidable (a.digest ++ ".json".toList ≤ b.digest ++ ".json".toList))

instance : Std.Refl ByName := ⟨fun _ => le_refl (α := Text) _⟩

instance : Std.Total ByName := ⟨fun _ _ => le_total (α := Text) _ _⟩

instance : IsTrans (Staged Manifest) ByName := ⟨fun _ _ _ => le_trans (α := Text)⟩

/-- The manifest of the digest that is given, or else the first by name that is checked out. -/
def Picked (manifests : List (Staged Manifest)) : Option Text → Staged Manifest → Prop
  | some (c :: sha), found => found ∈ manifests ∧ found.digest = c :: sha
  | _, found => found ∈ manifests ∧ found.value.checkedOut = some true ∧
      ∀ other ∈ manifests, other.value.checkedOut = some true → ByName found other

section Picking

variable {manifests : List (Staged Manifest)} (hNames : (manifests.map Staged.digest).Nodup)
include hNames

theorem eq_of_byName :
    ∀ a ∈ manifests, ∀ b ∈ manifests, ByName a b → ByName b a → a = b := by
  intro a hA b hB hAB hBA
  have hSame : a.digest ++ ".json".toList = b.digest ++ ".json".toList := le_antisymm hAB hBA
  exact List.inj_on_of_nodup_map hNames hA hB (List.append_cancel_right hSame)

theorem findManifest_ok_iff {manifestSha : Option Text} {found : Staged Manifest} :
    findManifest manifests manifestSha = .ok found ↔ Picked manifests manifestSha found := by
  unfold findManifest
  split
  · rename_i c sha
    rw [Picked, ← Lookup.find?_key_eq_some_iff hNames (c :: sha)]
    cases manifests.find? fun entry => entry.digest == c :: sha with
    | none => simp
    | some entry => simp
  · rename_i hSha
    have hFind : (manifests.insertionSort fun a b =>
          a.digest ++ ".json".toList ≤ b.digest ++ ".json".toList).find?
        (fun entry => entry.value.checkedOut = some true) = some found ↔ _ :=
      Lookup.find?_insertionSort_eq_some_iff (r := ByName) (eq_of_byName hNames)
    simp only [decide_eq_true_eq] at hFind
    rw [Picked, ← hFind]
    · split
      · rename_i hEntry
        rw [hEntry, Except.ok.injEq, Option.some.injEq]
      · rename_i hNone
        rw [hNone]
        exact iff_of_false nofun nofun
    · exact hSha

end Picking

/-! ## Spending a token -/

/-- The token comes from a manifest of the path that is checked out, and this manifest is the
one marked as checked in, or else the exit code is 1 and the broker is not called. -/
def SpendsOwn (staging : Staging) (path : Text) (manifestSha : Option Text) (outcome : Outcome)
    (w : World) : Prop :=
  (w.calls = [] ∧ outcome.code = EXIT_LOCAL) ∨
  ∃ found data token, Picked staging.manifests manifestSha found ∧
    found.value.Holds path token ∧ w.calls = [.checkin path data token] ∧
    ((outcome.code ≠ EXIT_OK ∧ w.staging = staging) ∨
      outcome.code = EXIT_OK ∧ w.staging = { staging with
        manifests := file ⟨found.digest, w.clock, { found.value with checkedOut := some false }⟩
          staging.manifests })

/-- The manifest is of the path and checked out, and if the broker accepts, it is filed under its
own digest. -/
def IsOwn (inv : Invocation) (path : Text) (found : Staged Manifest) : Prop :=
  found.value.remotePath = path ∧ found.value.checkedOut = some true ∧
    (inv.answer 0 >>= checkinStatus = .ok none → found.value.sha256 = found.digest)

/-- The manifest picked is the path's own, if the checkin gets to calling the broker. -/
def PicksOwn (inv : Invocation) (staging : Staging) (path : Text) (manifestSha : Option Text)
    (fromFile : Option Bytes) : Prop :=
  ∀ found, Picked staging.manifests manifestSha found →
    inv.connects = true → fromFile.isSome = true → inv.lockFree = true →
    truth (found.value.lockToken.getD .null) = true → IsOwn inv path found

theorem lockToken_of_truth {manifest : Manifest}
    (h : truth (manifest.lockToken.getD .null) = true) :
    manifest.lockToken = some (manifest.lockToken.getD .null) := by
  cases hToken : manifest.lockToken with
  | none =>
    rw [hToken] at h
    cases h
  | some token => rfl

section Spending

variable {platform : Platform} {inv : Invocation} {staging : Staging} {clock : Int}
  {path : Text} {manifestSha : Option Text} {fromFile : Option Bytes}
  (hNames : (staging.manifests.map Staged.digest).Nodup)
include hNames

theorem picksOwn_iff : PicksOwn inv staging path manifestSha fromFile ↔
    ∀ data found, Attempts inv staging.manifests manifestSha fromFile data found →
      IsOwn inv path found := by
  constructor
  · intro hOwn data found hAttempts
    exact hOwn found ((findManifest_ok_iff hNames).mp hAttempts.picked) hAttempts.connects
      (by rw [hAttempts.fromFile]; rfl) hAttempts.lockFree hAttempts.token
  · intro hOwn found hPicked hConnects hFile hLock hToken
    obtain ⟨data, hData⟩ := Option.isSome_iff_exists.mp hFile
    exact hOwn data found
      ⟨hConnects, hData, (findManifest_ok_iff hNames).mpr hPicked, hToken, hLock⟩

theorem spendsOwn_of_answered {data : Bytes} {found : Staged Manifest} {outcome : Outcome}
    {w : World} (hAttempts : Attempts inv staging.manifests manifestSha fromFile data found)
    (hCalls : w.calls = [.checkin path data (found.value.lockToken.getD .null)])
    (hAnswered : Answered inv staging found outcome w) :
    SpendsOwn staging path manifestSha outcome w ↔ IsOwn inv path found := by
  have hPicked : Picked staging.manifests manifestSha found :=
    (findManifest_ok_iff hNames).mp hAttempts.picked
  constructor
  · rintro (⟨hNone, _⟩ | ⟨other, data', token, hOther, hHolds, _, hMarked⟩)
    · rw [hNone] at hCalls
      cases hCalls
    have hSame : found = other := by
      have hFind := (findManifest_ok_iff hNames).mpr hOther
      exact Except.ok.inj (hAttempts.picked.symm.trans hFind)
    subst hSame
    refine ⟨hHolds.path, hHolds.checkedOut, fun hStatus => ?_⟩
    rcases hAnswered with ⟨hRefused, _⟩ | ⟨_, hOk, hStaging⟩
    · exact absurd hStatus hRefused
    rcases hMarked with ⟨hFailed, _⟩ | ⟨_, hMarked⟩
    · exact absurd hOk hFailed
    have hFiles := congrArg Staging.manifests (hStaging.symm.trans hMarked)
    exact congrArg Staged.digest (List.cons.inj hFiles).1
  · rintro ⟨hPath, hCheckedOut, hDigest⟩
    refine Or.inr ⟨found, data, _, hPicked,
      ⟨hPath, hCheckedOut, lockToken_of_truth hAttempts.token⟩, hCalls, ?_⟩
    rcases hAnswered with ⟨_, hFailed, hStaging⟩ | ⟨hStatus, hOk, hStaging⟩
    · exact Or.inl ⟨hFailed, hStaging⟩
    · rw [hDigest hStatus] at hStaging
      exact Or.inr ⟨hOk, hStaging⟩

end Spending

/-- A checkin spends the token of its own checkout exactly if the manifest it picks, by digest
or by name, is of that checkout. -/
theorem spendsOwn_iff (platform : Platform) (instanceName : Text) (inv : Invocation)
    (staging : Staging) (clock : Int) (path : Text) (manifestSha : Option Text)
    (fromFile : Option Bytes) (hNames : (staging.manifests.map Staged.digest).Nodup) :
    let run := (main platform instanceName inv (.checkin path manifestSha fromFile)).run
      ⟨staging, clock, []⟩
    SpendsOwn staging path manifestSha (exitOf run.1) run.2 ↔
      PicksOwn inv staging path manifestSha fromFile := by
  obtain ⟨result, hRun, hExit⟩ := main_run platform instanceName inv
    (.checkin path manifestSha fromFile) ⟨staging, clock, []⟩
  dsimp only
  rw [hRun, hExit, picksOwn_iff hNames]
  rcases checkin_run platform inv path manifestSha fromFile staging clock with
    ⟨hNone, hSame, hCode⟩ | ⟨data, found, hAttempts, hCalls, hAnswered⟩
  · refine iff_of_true (Or.inl ⟨?_, hCode⟩) fun data found h => absurd h (hNone data found)
    exact congrArg World.calls hSame
  refine (spendsOwn_of_answered hNames hAttempts hCalls hAnswered).trans ?_
  constructor
  · intro hOwn data' other hOther
    have hFound : found = other := Except.ok.inj (hAttempts.picked.symm.trans hOther.picked)
    rw [← hFound]
    exact hOwn
  · intro hOwn
    exact hOwn data found hAttempts

/-! ## Two checkouts -/

def checkoutOf (path token digest : Text) : Staged Manifest where
  digest
  mtime := 0
  value := {
    sha256 := digest, sizeBytes := 1, instanceName := "nc".toList, remotePath := path,
    lockToken := some (.ofText token), checkedOut := some true }

def twoCheckouts : Staging where
  contents := []
  manifests := [checkoutOf "a".toList "k".toList "x".toList,
    checkoutOf "b".toList "l".toList "y".toList]

theorem own_token_spent :
    let run := (main plainPlatform "nc".toList plainInvocation
      (.checkin "b".toList (some "y".toList) (some []))).run ⟨twoCheckouts, 0, []⟩
    SpendsOwn twoCheckouts "b".toList (some "y".toList) (exitOf run.1) run.2 := by
  refine (spendsOwn_iff plainPlatform "nc".toList plainInvocation twoCheckouts 0 "b".toList
    (some "y".toList) (some []) (by decide)).mpr ?_
  rintro found ⟨hMem, hDigest⟩ _ _ _ _
  rcases List.mem_pair.mp hMem with rfl | rfl
  · exact absurd hDigest (by decide)
  · exact ⟨rfl, rfl, fun _ => rfl⟩

theorem others_token_spent :
    let run := (main plainPlatform "nc".toList plainInvocation
      (.checkin "b".toList none (some []))).run ⟨twoCheckouts, 0, []⟩
    ¬SpendsOwn twoCheckouts "b".toList none (exitOf run.1) run.2 := by
  intro run
  have hCalls : run.2.calls = [.checkin "b".toList [] (.ofText "k".toList)] := by rfl
  rintro (⟨hNone, _⟩ | ⟨found, data, token, hPicked, hHolds, hOwn, _⟩)
  · exact absurd (hCalls.symm.trans hNone) (by simp)
  have hToken : .ofText "k".toList = token := by
    have hSame := hCalls.symm.trans hOwn
    injection hSame with hSame
    injection hSame
  rcases List.mem_pair.mp hPicked.1 with rfl | rfl
  · exact absurd hHolds.path (by decide)
  · have hOther := hHolds.token
    rw [← hToken] at hOther
    cases hOther

end AccessBroker.Cli
