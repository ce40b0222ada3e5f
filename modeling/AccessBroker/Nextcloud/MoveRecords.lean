import AccessBroker.Nextcloud.Outcomes

/-! # What the record of a move says

The record of a move joins its endpoints to one text. A separator that stands in an
endpoint, or is made up by the joint, lets the text be read in another way.
-/

namespace AccessBroker.Nextcloud
open Py Paths Grants Audit
set_option autoImplicit false

/-! ## Joined texts -/

def arrow : Text := [' ', '-', '>', ' ']

/-- The source of the second pair goes on past that of the first: to a whole separator in the
destination of the first, or to one that overlaps the separator between the two. -/
def Continues (src dst src' dst' : Text) : Prop :=
  (∃ middle, src' = src ++ arrow ++ middle ∧ dst = middle ++ arrow ++ dst') ∨
    (src' = src ++ [' ', '-', '>'] ∧ dst = ['-', '>', ' '] ++ dst')

theorem arrow_append_iff {more dst dst' : Text} (hMore : more ≠ []) :
    arrow ++ dst = more ++ (arrow ++ dst') ↔
      (∃ middle, more = arrow ++ middle ∧ dst = middle ++ arrow ++ dst') ∨
        (more = [' ', '-', '>'] ∧ dst = ['-', '>', ' '] ++ dst') := by
  constructor
  · intro h
    rcases List.append_eq_append_iff.mp h with ⟨middle, hHead, hTail⟩ | ⟨middle, hHead, hTail⟩
    · exact Or.inl ⟨middle, hHead, by rw [hTail, List.append_assoc]⟩
    · -- `middle` is what the first separator leaves to the second
      have hLength := congrArg List.length hHead
      rw [List.length_append] at hLength
      rcases middle with _ | ⟨a, _ | ⟨b, _ | ⟨c, _ | ⟨d, rest⟩⟩⟩⟩
      · rw [List.append_nil] at hHead
        exact Or.inl ⟨[], by rw [hHead, List.append_nil], hTail.symm⟩
      · have hSplit : more ++ [a] = [' ', '-', '>'] ++ [' '] := hHead.symm
        obtain ⟨rfl, hRest⟩ := List.append_inj' hSplit rfl
        cases hRest
        exact Or.inr ⟨rfl, (List.cons_inj_right ' ').mp hTail.symm⟩
      · have hSplit : more ++ [a, b] = [' ', '-'] ++ ['>', ' '] := hHead.symm
        obtain ⟨rfl, hRest⟩ := List.append_inj' hSplit rfl
        cases hRest
        cases hTail
      · have hSplit : more ++ [a, b, c] = [' '] ++ ['-', '>', ' '] := hHead.symm
        obtain ⟨rfl, hRest⟩ := List.append_inj' hSplit rfl
        cases hRest
        cases hTail
      · have hShort : arrow.length = 4 := rfl
        have hLong : 0 < more.length := List.length_pos_iff.mpr hMore
        rw [hShort] at hLength
        simp only [List.length_cons] at hLength
        omega
  · rintro (⟨middle, rfl, rfl⟩ | ⟨rfl, rfl⟩)
    · simp only [List.append_assoc]
    · rfl

theorem moveText_eq (src dst : Text) : moveText src dst = src ++ (arrow ++ dst) :=
  List.append_assoc _ _ _

theorem Continues.moveText_eq {src dst src' dst' : Text} (h : Continues src dst src' dst') :
    moveText src dst = moveText src' dst' := by
  rw [Nextcloud.moveText_eq, Nextcloud.moveText_eq]
  rcases h with ⟨middle, rfl, rfl⟩ | ⟨rfl, rfl⟩
  · simp only [List.append_assoc]
  · rw [List.append_assoc]
    rfl

theorem Continues.src_ne {src dst src' dst' : Text} (h : Continues src dst src' dst') :
    src ≠ src' := by
  rintro rfl
  rcases h with ⟨middle, hSrc, _⟩ | ⟨hSrc, _⟩
  · rw [List.append_assoc] at hSrc
    cases List.append_right_eq_self.mp hSrc.symm
  · cases List.append_right_eq_self.mp hSrc.symm

theorem continues_of_append {src more dst dst' : Text}
    (h : arrow ++ dst = more ++ (arrow ++ dst')) :
    (src ++ more = src ∧ dst = dst') ∨ Continues src dst (src ++ more) dst' := by
  by_cases hMore : more = []
  · rw [hMore] at h
    rw [hMore]
    exact Or.inl ⟨List.append_nil src, (List.append_right_inj arrow).mp h⟩
  · rcases (arrow_append_iff hMore).mp h with ⟨middle, rfl, hDst⟩ | ⟨rfl, hDst⟩
    · exact Or.inr (Or.inl ⟨middle, (List.append_assoc _ _ _).symm, hDst⟩)
    · exact Or.inr (Or.inr ⟨rfl, hDst⟩)

theorem moveText_eq_iff {src dst src' dst' : Text} :
    moveText src dst = moveText src' dst' ↔
      (src = src' ∧ dst = dst') ∨ Continues src dst src' dst' ∨ Continues src' dst' src dst := by
  constructor
  · intro h
    rw [moveText_eq, moveText_eq] at h
    rcases List.append_eq_append_iff.mp h with ⟨more, rfl, hMore⟩ | ⟨more, rfl, hMore⟩
    · exact (continues_of_append hMore).imp (fun ⟨hSrc, hDst⟩ => ⟨hSrc.symm, hDst⟩) Or.inl
    · exact (continues_of_append hMore).imp (fun ⟨hSrc, hDst⟩ => ⟨hSrc, hDst.symm⟩) Or.inr
  · rintro (⟨rfl, rfl⟩ | h | h)
    · rfl
    · exact h.moveText_eq
    · exact h.moveText_eq.symm

/-! ## Successful moves -/

structure MoveCall where
  layer : Layer
  db : Database
  env : Environment
  world : World
  src : Text
  dst : Text

def MoveCall.run (platform : Platform) (instanceName : Text) (c : MoveCall) :
    Except LayerError Reply × World :=
  (move platform c.layer c.db c.env instanceName c.src c.dst).run c.world

/-- The call succeeded, its endpoints are normalized to these, and it wrote this record. -/
structure MoveCall.Records (platform : Platform) (instanceName : Text) (c : MoveCall)
    (src dst : Text) (entry : Entry) : Prop where
  succeeds : ∃ reply, (c.run platform instanceName).1 = .ok reply
  src : normalizePath c.src = some src
  dst : normalizePath c.dst = some dst
  written : ∃ events files, (c.run platform instanceName).2.trace = c.world.trace ++ events ∧
    .appended entry files ∈ events

theorem namespaceGuard_eq {platform : Platform} {path norm guarded : Text}
    (hNorm : normalizePath path = some norm) (hGuard : namespaceGuard platform path = some guarded) :
    guarded = norm := by
  rw [namespaceGuard, hNorm] at hGuard
  dsimp only at hGuard
  split at hGuard
  · cases hGuard
  · exact (Option.some.inj hGuard).symm

/-- A successful move writes one record, with its two normalized endpoints. -/
theorem MoveCall.leaves {platform : Platform} {instanceName : Text} {c : MoveCall} {reply : Reply}
    (hRun : (c.run platform instanceName).1 = .ok reply) :
    ∃ src dst, namespaceGuard platform c.src = some src ∧
      namespaceGuard platform c.dst = some dst ∧
      Leaves c.world (c.run platform instanceName).2
        (fun e => e = allowedEntry c.layer instanceName (moveText src dst) "move".toList
          "granted write".toList none ∧ c.world.audit.isSome = true)
        fun name call => name = instanceName ∧ call = .move src dst := by
  rw [MoveCall.run, move] at hRun ⊢
  rcases authorized_decides platform c.layer c.db c.env instanceName c.src WRITE c.world with
    ⟨src, w₁, hSrc, hRun₁, _, hAudit₁, hQuiet₁⟩ | ⟨_, err, w₁, _, _, hRun₁, _⟩
  · rw [Effect.bind_ok hRun₁] at hRun ⊢
    rcases authorized_decides platform c.layer c.db c.env instanceName c.dst WRITE w₁ with
      ⟨dst, w₂, hDst, hRun₂, _, hAudit₂, hQuiet₂⟩ | ⟨_, err, w₂, _, _, hRun₂, _⟩
    · rw [Effect.bind_ok hRun₂] at hRun ⊢
      rcases auditAnd_leaves platform c.layer c.env instanceName w₂ (moveText src dst)
          "move".toList "granted write".toList (.move src dst) none with
        ⟨_, result, w', hRun', _, _, _, _, hLeaves⟩ | ⟨_, err, w', hRun', _⟩
      · rw [hRun']
        rw [hAudit₂, hAudit₁] at hLeaves
        exact ⟨src, dst, hSrc.guard, hDst.guard, (hQuiet₁.after hQuiet₂).after hLeaves⟩
      · rw [hRun'] at hRun
        cases hRun
    · rw [Effect.bind_error hRun₂] at hRun
      cases hRun
  · rw [Effect.bind_error hRun₁] at hRun
    cases hRun

theorem MoveCall.Records.path {platform : Platform} {instanceName : Text} {c : MoveCall}
    {src dst : Text} {entry : Entry} (h : c.Records platform instanceName src dst entry) :
    entry.path = moveText src dst := by
  obtain ⟨reply, hRun⟩ := h.succeeds
  obtain ⟨src', dst', hSrc, hDst, events, hTrace, hWritten, _⟩ := MoveCall.leaves hRun
  obtain ⟨events', files, hTrace', hMem⟩ := h.written
  rw [hTrace] at hTrace'
  rw [← List.append_cancel_left hTrace'] at hMem
  rw [((hWritten entry).mp ⟨files, hMem⟩).1, namespaceGuard_eq h.src hSrc,
    namespaceGuard_eq h.dst hDst]
  rfl

/-- The records of two moves on an instance tell them apart unless one of them has an arrow
where the other has its joint. -/
theorem move_records_determine_iff (platform : Platform) (instanceName : Text) {c c' : MoveCall}
    {src dst src' dst' : Text} {entry entry' : Entry}
    (h : c.Records platform instanceName src dst entry)
    (h' : c'.Records platform instanceName src' dst' entry') :
    (entry.path = entry'.path → src = src' ∧ dst = dst') ↔
      ¬ Continues src dst src' dst' ∧ ¬ Continues src' dst' src dst := by
  rw [h.path, h'.path, moveText_eq_iff]
  constructor
  · intro hSame
    refine ⟨fun hCont => ?_, fun hCont => ?_⟩
    · exact hCont.src_ne (hSame (Or.inr (Or.inl hCont))).1
    · exact hCont.src_ne (hSame (Or.inr (Or.inr hCont))).1.symm
  · rintro ⟨hOnward, hBack⟩ (hSame | hCont | hCont)
    · exact hSame
    · exact absurd hCont hOnward
    · exact absurd hCont hBack

/-! ## Two moves, one record -/

theorem MoveCall.records_of_ok {platform : Platform} {instanceName : Text} {c : MoveCall}
    {src dst : Text} (hRun : ∃ reply, (c.run platform instanceName).1 = .ok reply)
    (hAudit : c.world.audit.isSome = true) (hSrc : normalizePath c.src = some src)
    (hDst : normalizePath c.dst = some dst) :
    c.Records platform instanceName src dst (allowedEntry c.layer instanceName
      (moveText src dst) "move".toList "granted write".toList none) := by
  obtain ⟨reply, hReply⟩ := hRun
  obtain ⟨src', dst', hSrc', hDst', events, hTrace, hWritten, _⟩ := MoveCall.leaves hReply
  rw [namespaceGuard_eq hSrc hSrc', namespaceGuard_eq hDst hDst'] at hWritten
  obtain ⟨files, hMem⟩ := (hWritten _).mpr ⟨rfl, hAudit⟩
  exact ⟨⟨reply, hReply⟩, hSrc, hDst, events, files, hTrace, hMem⟩

def moveInFolder (src dst : Text) : MoveCall :=
  ⟨oneClient, oneGrant ⟨['d'], WRITE⟩, calm, opened, src, dst⟩

def movedInFolder (text : Text) : Entry :=
  allowedEntry oneClient ['p'] text "move".toList "granted write".toList none

theorem moveInFolder_records {src dst : Text}
    (hRun : ((moveInFolder src dst).run plainPlatform ['p']).1.isOk = true)
    (hSrc : normalizePath src = some src) (hDst : normalizePath dst = some dst) :
    (moveInFolder src dst).Records plainPlatform ['p'] src dst (movedInFolder (moveText src dst)) := by
  refine MoveCall.records_of_ok ?_ rfl hSrc hDst
  cases hResult : ((moveInFolder src dst).run plainPlatform ['p']).1 with
  | ok reply => exact ⟨reply, rfl⟩
  | error err =>
    rw [hResult] at hRun
    cases hRun

theorem move_records_determine_iff_apart :
    ((movedInFolder "d/a -> d/b".toList).path = (movedInFolder "d/a -> d/c".toList).path →
        "d/a".toList = "d/a".toList ∧ "d/b".toList = "d/c".toList) ↔
      ¬ Continues "d/a".toList "d/b".toList "d/a".toList "d/c".toList ∧
        ¬ Continues "d/a".toList "d/c".toList "d/a".toList "d/b".toList :=
  have hFirst : (moveInFolder "d/a".toList "d/b".toList).Records plainPlatform ['p']
      "d/a".toList "d/b".toList (movedInFolder "d/a -> d/b".toList) :=
    moveInFolder_records (by decide +kernel) (by decide +kernel) (by decide +kernel)
  have hSecond : (moveInFolder "d/a".toList "d/c".toList).Records plainPlatform ['p']
      "d/a".toList "d/c".toList (movedInFolder "d/a -> d/c".toList) :=
    moveInFolder_records (by decide +kernel) (by decide +kernel) (by decide +kernel)
  move_records_determine_iff plainPlatform ['p'] hFirst hSecond

theorem two_moves_one_record :
    (moveInFolder "d/a -> d/b".toList "d/c".toList).Records plainPlatform ['p']
        "d/a -> d/b".toList "d/c".toList (movedInFolder "d/a -> d/b -> d/c".toList) ∧
      (moveInFolder "d/a".toList "d/b -> d/c".toList).Records plainPlatform ['p']
        "d/a".toList "d/b -> d/c".toList (movedInFolder "d/a -> d/b -> d/c".toList) ∧
      "d/a -> d/b".toList ≠ "d/a".toList :=
  ⟨moveInFolder_records (by decide +kernel) (by decide +kernel) (by decide +kernel),
    moveInFolder_records (by decide +kernel) (by decide +kernel) (by decide +kernel), by decide⟩

end AccessBroker.Nextcloud
