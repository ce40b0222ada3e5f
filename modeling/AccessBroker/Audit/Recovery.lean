import AccessBroker.Audit.Runs

/-! # Reopening a log that does not verify

Opening reads the last line and counts the lines; every later call rewrites the
checkpoint. Damage to the log file stays, whatever is appended. A disagreement with
the checkpoint alone is gone after one call.
-/

namespace AccessBroker.Audit
open Py Json
set_option autoImplicit false

variable {sha256 : Text → Text} {floats : FloatFormat}

def recordAll (sha256 : Text → Text) (s : AuditState) (calls : List Call) : AuditState :=
  Machine.run (fun s call =>
    ((record sha256 call.timestamp call.entry call.append call.checkpoint).run s).2) s calls

/-- The damage is in the log file itself. The last part is about a number of lines that
`json` refuses to print. -/
def DamagedLog (sha256 : Text → Text) (floats : FloatFormat) (files : Files) : Prop :=
  ∃ raw, files.log = some raw ∧
    ((∃ fault, walk sha256 floats (nonblankLines raw) = .error fault) ∨
      (∃ c ∈ lastLine raw, isWs c = false) ∨ tooLong ((nonblankLines raw).length + 1) = true)

/-! ## What calls do to the files -/

/-- Nothing was written, or a line was begun behind the text that was there. -/
inductive Begun (raw : Text) (head : Option Text) : Files → Prop where
  | untouched : Begun raw head ⟨some raw, head⟩
  | line (rest : Text) {head' : Option Text} (hHead : head.isSome = true → head'.isSome = true) :
    Begun raw head ⟨some (raw ++ '{' :: rest), head'⟩

theorem Begun.append {raw text : Text} {head head' : Option Text} {files : Files}
    (h : Begun raw head files) (hText : text = [] ∨ ∃ rest, text = '{' :: rest)
    (hSame : text = [] → head' = files.head)
    (hHead : files.head.isSome = true → head'.isSome = true) :
    Begun raw head ⟨some (files.log.getD [] ++ text), head'⟩ := by
  rcases hText with rfl | ⟨rest, rfl⟩
  · rw [hSame rfl, List.append_nil]
    cases h with
    | untouched => exact .untouched
    | line before hBefore => exact .line before hBefore
  · cases h with
    | untouched => exact .line rest hHead
    | line before hBefore =>
      rw [Option.getD_some, List.append_assoc, List.cons_append]
      exact .line _ fun hSome => hHead (hBefore hSome)

theorem recordLine_eq_cons (sha256 : Text → Text) (prev : Value) (timestamp : Text) (e : Entry) :
    ∃ rest, recordLine sha256 prev timestamp e = '{' :: rest := by
  obtain ⟨rest, hCons⟩ := dumps_obj_eq_cons (lineRecord sha256 prev timestamp e)
  exact ⟨rest ++ ['\n'], by rw [recordLine, hCons, List.cons_append]⟩

theorem Write.replace_isSome (write : Write) (text : Text) {file : Option Text}
    (h : file.isSome = true) : (write.replace text file).isSome = true := by
  cases write with
  | completes => rfl
  | notOpened exc => exact h
  | fails written exc => rfl

theorem Begun.record {raw : Text} {head : Option Text} {s : AuditState}
    (h : Begun raw head s.files) (timestamp : Text) (e : Entry) (append checkpoint : Write) :
    Begun raw head ((record sha256 timestamp e append checkpoint).run s).2.files := by
  obtain ⟨rest, hLine⟩ := recordLine_eq_cons sha256 s.writer.prevSha256 timestamp e
  rcases record_cases sha256 timestamp e append checkpoint s with
    ⟨err, _, hRun⟩ | ⟨err, _, hFails, hRun⟩ | ⟨result, _, _, hRun, _⟩
  · rw [hRun]
    exact h
  · rw [hRun]
    cases append with
    | completes => exact absurd rfl hFails
    | notOpened exc => exact h
    | fails written exc =>
      refine h.append ?_ (fun _ => rfl) id
      rw [hLine]
      cases written with
      | zero => exact Or.inl rfl
      | succ written => exact Or.inr ⟨_, rfl⟩
  · rw [hRun]
    refine h.append (Or.inr ⟨rest, hLine⟩) (fun hNil => ?_) (checkpoint.replace_isSome _)
    rw [hLine] at hNil
    cases hNil

theorem begun_recordAll {raw : Text} {head : Option Text} {s : AuditState}
    (h : Begun raw head s.files) (calls : List Call) :
    Begun raw head (recordAll sha256 s calls).files :=
  Machine.run_invariant (I := fun s : AuditState => Begun raw head s.files)
    (fun _ _ hBegun => hBegun.record _ _ _ _) h calls

/-! ## Damage that stays -/

theorem accepts_of_walk_error {raw : Text} {head : Option Text} {fault : Nat × Stop}
    (h : walk sha256 floats (nonblankLines raw) = .error fault) :
    accepts sha256 floats ⟨some raw, head⟩ = false := by
  obtain ⟨number, stop⟩ := fault
  cases stop with
  | fault fault => simp only [accepts, verifyChain, h]
  | attributeError => simp only [accepts, verifyChain, h]

theorem nonblankLines_begun (raw rest : Text) :
    ∃ tail more, nonblankLines (raw ++ '{' :: rest) =
      nonblankLines (closedLines raw) ++ (lastLine raw ++ '{' :: tail) :: more := by
  have hBegun : ∀ c ∈ lastLine raw ++ ['{'], isLineBreak c = false :=
    List.forall_mem_append.mpr ⟨lastLine_unbroken raw, by simp [isLineBreak]⟩
  have hNonblank : isBlank (lastLine raw ++ ['{']) = false := by
    simp [isBlank, show isSpace '{' = false by decide]
  obtain ⟨tail, more, hLines⟩ := nonblankLines_unbroken_append hBegun hNonblank rest
  refine ⟨tail, more, ?_⟩
  calc nonblankLines (raw ++ '{' :: rest)
      = nonblankLines (closedLines raw ++ (lastLine raw ++ ['{'] ++ rest)) := by
        rw [← List.append_assoc, ← List.append_assoc, closedLines_append_lastLine,
          List.append_assoc, List.singleton_append]
    _ = _ := by
        rw [nonblankLines_closedLines_append, hLines, List.append_assoc, List.singleton_append]

theorem loads_of_open {raw : Text} {writer : Value × Nat}
    (h : loadLastHash floats (some raw) = .ok writer) (last : Text)
    (hLast : (nonblankLines raw).getLast? = some last) : ∃ v, loads floats last = some v := by
  simp only [loadLastHash, hLast] at h
  split at h
  · cases h
  · rename_i hLoads
    exact ⟨_, hLoads⟩
  · rename_i hLoads
    exact ⟨_, hLoads⟩

theorem not_starts_of_isSpace {c : Char} (h : isSpace c = true) : ¬ Starts c := by
  rintro (hMark | hDigit)
  · simp only [List.mem_cons, List.not_mem_nil, or_false] at hMark
    rcases hMark with rfl | rfl | rfl | rfl | rfl | rfl | rfl | rfl | rfl <;> cases h
  · simp only [Char.isDigit, Bool.and_eq_true, decide_eq_true_eq, UInt32.le_iff_toNat_le] at hDigit
    simp only [isSpace, Char.toNat, Bool.or_eq_true, Bool.and_eq_true, decide_eq_true_eq,
      beq_iff_eq] at h
    obtain ⟨hLow, hHigh⟩ := hDigit
    change 48 ≤ c.val.toNat at hLow
    change c.val.toNat ≤ 57 at hHigh
    omega

/-- Nothing is read behind a blank character that JSON does not skip. -/
theorem loads_blank_begun {line : Text} (hBlank : isBlank line = true)
    (hWs : ∃ c ∈ line, isWs c = false) (more : Text) : loads floats (line ++ more) = none := by
  obtain ⟨d, hd, hdWs⟩ := hWs
  cases hFind : line.find? fun c => !isWs c with
  | none =>
    have hAll := List.find?_eq_none.mp hFind d hd
    rw [hdWs] at hAll
    exact absurd rfl hAll
  | some c =>
    obtain ⟨hc, before, after, rfl, hBefore⟩ := List.find?_eq_some_iff_append.mp hFind
    have hSpace : isSpace c = true :=
      List.all_eq_true.mp hBlank c (List.mem_append_right _ List.mem_cons_self)
    rw [List.append_assoc, List.cons_append]
    exact loads_bad_start (fun x hx => by simpa using hBefore x hx) (by simpa using hc)
      (not_starts_of_isSpace hSpace) _

/-- A line begun behind one that is damaged or not closed breaks the chain. -/
theorem walk_begun {raw : Text} {writer : Value × Nat}
    (hOpen : loadLastHash floats (some raw) = .ok writer)
    (hDamaged : (∃ fault, walk sha256 floats (nonblankLines raw) = .error fault) ∨
      ∃ c ∈ lastLine raw, isWs c = false) (rest : Text) :
    ∃ fault, walk sha256 floats (nonblankLines (raw ++ '{' :: rest)) = .error fault := by
  obtain ⟨tail, more, hLines⟩ := nonblankLines_begun raw rest
  rw [hLines, walk]
  cases hClosed : walk sha256 floats (nonblankLines (closedLines raw)) with
  | error fault => exact ⟨fault, Scan.scan_append_error hClosed _⟩
  | ok prev =>
    have hGlued : loads floats (lastLine raw ++ '{' :: tail) = none := by
      cases hBlank : isBlank (lastLine raw) with
      | false =>
        obtain ⟨v, hLoads⟩ := loads_of_open hOpen (lastLine raw) (by
          rw [nonblankLines_eq, hBlank]
          simp)
        exact loads_extra_data hLoads tail
      | true =>
        refine loads_blank_begun hBlank (hDamaged.resolve_left ?_) _
        rintro ⟨fault, hFault⟩
        rw [nonblankLines_eq, hBlank, if_pos rfl, List.append_nil, hClosed] at hFault
        cases hFault
    rw [Scan.scan_append_ok hClosed, Scan.scan, checkLine, hGlued]
    exact ⟨_, rfl⟩

/-! ## A number of lines that is not printed -/

theorem tooLong_iff (n : Int) : tooLong n = true ↔ 10 ^ maxIntDigits ≤ n.natAbs := by
  rw [tooLong, decide_eq_true_iff, ← Nat.not_le,
    Nat.length_toDigits_le_iff (by decide) (by decide), Nat.not_lt]

theorem tooLong_mono {m n : Nat} (hLe : m ≤ n) (h : tooLong m = true) : tooLong n = true := by
  rw [tooLong_iff] at h ⊢
  exact h.trans hLe

/-- No count that is read equals one that is not printed. -/
theorem equalsNat_tooLong {value : Value} (hCanonical : Canonical floats value) {n : Nat}
    (h : tooLong n = true) : equalsNat floats (some value) n = false := by
  have hOther : ∀ k : Int, (Nat.toDigits 10 k.natAbs).length ≤ maxIntDigits → k ≠ n := by
    rintro k hk rfl
    rw [tooLong, decide_eq_true_iff] at h
    exact absurd hk (Nat.not_le.mpr h)
  cases value with
  | int k => simpa [equalsNat] using hOther k hCanonical
  | bool b =>
    have hSmall := hOther (if b then 1 else 0) (by cases b <;> decide)
    cases b <;> simp [equalsNat] at hSmall ⊢ <;> omega
  | float repr =>
    cases hInt : floats.asInt repr with
    | none => simp [equalsNat, hInt]
    | some k => simpa [equalsNat, hInt] using hOther k (floats.small hInt)
  | null => rfl
  | str s => rfl
  | arr items => rfl
  | obj members => rfl

theorem canonical_get? {dict : Dict} (h : Canonical floats (.obj dict)) {key : Text} {value : Value}
    (hGet : Dict.get? dict key = some value) : Canonical floats value := by
  obtain ⟨before, after, rfl, _⟩ := List.lookup_eq_some_iff.mp hGet
  exact (canonicalMembers_iff.mp h.1 _ (List.mem_append_right _ List.mem_cons_self)).2

theorem checkHead_tooLong {prev head : Text} {count : Nat} (h : tooLong count = true)
    {result : ChainResult} (hCheck : checkHead floats prev count (some head) = .ok result) :
    result.ok = false := by
  rw [checkHead] at hCheck
  split at hCheck
  · cases hCheck
    rfl
  · rename_i record hLoads
    split at hCheck
    · cases hCheck
      rfl
    split at hCheck
    · cases hCheck
      rfl
    · rename_i hCount
      cases hGet : Dict.get? record "lines".toList with
      | none =>
        rw [hGet] at hCount
        exact absurd rfl hCount
      | some value =>
        rw [hGet] at hCount
        exact absurd (equalsNat_tooLong (canonical_get? (canonical_of_loads hLoads) hGet) h) hCount
  · cases hCheck

theorem accepts_of_tooLong {raw head : Text}
    (h : tooLong (nonblankLines raw).length = true) :
    accepts sha256 floats ⟨some raw, some head⟩ = false := by
  cases hVerify : verifyChain sha256 floats ⟨some raw, some head⟩ with
  | error e => rw [accepts, hVerify]
  | ok result =>
    rw [accepts, hVerify]
    rw [verifyChain] at hVerify
    dsimp only at hVerify
    split at hVerify
    · cases hVerify
    · cases hVerify
      rfl
    · exact checkHead_tooLong h hVerify

/-! ## The two outcomes -/

/-- A log that does not verify although its chain holds has a checkpoint. -/
theorem head_of_broken {raw prev : Text} {head : Option Text} {result : ChainResult}
    (hWalk : walk sha256 floats (nonblankLines raw) = .ok prev)
    (hVerify : verifyChain sha256 floats ⟨some raw, head⟩ = .ok result)
    (hBroken : result.ok = false) : head.isSome = true := by
  rw [verifyChain] at hVerify
  dsimp only at hVerify
  rw [hWalk] at hVerify
  cases head with
  | some head => rfl
  | none =>
    cases hVerify
    cases hBroken

theorem Begun.not_accepted {raw : Text} {head : Option Text} {files : Files}
    {writer : Value × Nat} {result : ChainResult} (hBegun : Begun raw head files)
    (hOpen : loadLastHash floats (some raw) = .ok writer)
    (hVerify : verifyChain sha256 floats ⟨some raw, head⟩ = .ok result)
    (hBroken : result.ok = false)
    (hDamaged : (∃ fault, walk sha256 floats (nonblankLines raw) = .error fault) ∨
      (∃ c ∈ lastLine raw, isWs c = false) ∨ tooLong ((nonblankLines raw).length + 1) = true) :
    accepts sha256 floats files = false := by
  cases hBegun with
  | untouched =>
    rw [accepts, hVerify]
    exact hBroken
  | line rest hHead =>
    rw [← or_assoc] at hDamaged
    by_cases hFile : (∃ fault, walk sha256 floats (nonblankLines raw) = .error fault) ∨
      ∃ c ∈ lastLine raw, isWs c = false
    · obtain ⟨fault, hFault⟩ := walk_begun hOpen hFile rest
      exact accepts_of_walk_error hFault
    · have hLong := hDamaged.resolve_left hFile
      rw [not_or] at hFile
      have hBlank : isBlank (lastLine raw) = true := isBlank_of_isWs fun c hc => by
        cases hWs : isWs c with
        | true => rfl
        | false => exact absurd ⟨c, hc, hWs⟩ hFile.2
      cases hWalk : walk sha256 floats (nonblankLines raw) with
      | error fault => exact absurd ⟨fault, hWalk⟩ hFile.1
      | ok prev =>
        obtain ⟨head', rfl⟩ := Option.isSome_iff_exists.mp
          (hHead (head_of_broken hWalk hVerify hBroken))
        obtain ⟨tail, more, hLines⟩ := nonblankLines_begun raw rest
        refine accepts_of_tooLong (tooLong_mono (m := (nonblankLines raw).length + 1) ?_ hLong)
        rw [hLines, nonblankLines_eq, hBlank, if_pos rfl, List.append_nil, List.length_append,
          List.length_cons]
        omega

def overwriting : Call := ⟨[], ⟨[], [], [], none, [], [], none, false⟩, .completes, .completes⟩

theorem contains_nil {secret : Text} (h : secret ≠ []) : contains secret [] = false := by
  cases secret with
  | nil => exact absurd rfl h
  | cons c secret => rfl

theorem writes_overwriting (secrets : List Text) (prev : Value) (lines : Nat) :
    Writes ⟨secrets.filter (· ≠ []), prev, lines⟩ overwriting.entry := by
  refine ⟨?_, rfl, rfl⟩
  rw [checkSecrets]
  simp only [overwriting, List.any_cons, List.any_nil, Bool.or_false, Bool.or_self]
  rw [List.any_eq_false]
  intro secret hSecret
  rw [contains_nil (by simpa using (List.mem_filter.mp hSecret).2)]
  decide

theorem accepted_overwriting (secrets : List Text) {files : Files} {prev : Text}
    (hBlank : ∀ c ∈ lastLine (files.log.getD []), isWs c = true)
    (hWalk : walk sha256 floats (nonblankLines (files.log.getD [])) = .ok prev)
    (hShort : tooLong ((nonblankLines (files.log.getD [])).length + 1) = false) :
    ∃ log, AuditLog.open floats secrets files = .ok log ∧
      accepts sha256 floats (recordAll sha256 ⟨log, files⟩ [overwriting]).files = true := by
  obtain ⟨log, hOpen, hSecrets, hSynced⟩ := open_synced secrets files hBlank hWalk
  refine ⟨log, hOpen, ?_⟩
  have hWrites : Writes log overwriting.entry := by
    have h := writes_overwriting secrets log.prevSha256 log.lines
    rw [← hSecrets] at h
    exact h
  rw [← hSynced.count] at hShort
  have hAccepted := Synced.accepted (s := ⟨log, files⟩) hSynced overwriting.timestamp
    hWrites hShort
  rcases record_cases sha256 overwriting.timestamp overwriting.entry
    overwriting.append overwriting.checkpoint ⟨log, files⟩ with
    ⟨_, hRefused, _⟩ | ⟨_, _, hFails, _⟩ | ⟨_, _, _, hRun, _⟩
  · exact absurd hWrites hRefused
  · exact absurd rfl hFails
  · rw [recordAll, Machine.run_cons, Machine.run_nil, hRun]
    exact accepts_of_verify _ _ hAccepted

theorem stays_broken_iff_damaged (sha256 : Text → Text) (floats : FloatFormat)
    (secrets : List Text) (files : Files) (result : ChainResult)
    (hVerify : verifyChain sha256 floats files = .ok result) (hBroken : result.ok = false) :
    (∀ log, AuditLog.open floats secrets files = .ok log → ∀ calls,
        accepts sha256 floats (recordAll sha256 ⟨log, files⟩ calls).files = false) ↔
      DamagedLog sha256 floats files := by
  constructor
  · intro hStays
    by_contra hWhole
    have hRepaired : (∀ c ∈ lastLine (files.log.getD []), isWs c = true) ∧
        (∃ prev, walk sha256 floats (nonblankLines (files.log.getD [])) = .ok prev) ∧
        tooLong ((nonblankLines (files.log.getD [])).length + 1) = false := by
      cases hLog : files.log with
      | none => exact ⟨by simp [lastLine], ⟨GENESIS, rfl⟩, by decide⟩
      | some raw =>
        simp only [DamagedLog, hLog, Option.some.injEq, exists_eq_left', not_or] at hWhole
        refine ⟨fun c hc => ?_, ?_, by simpa using hWhole.2.2⟩
        · cases hWs : isWs c with
          | true => rfl
          | false => exact absurd ⟨c, hc, hWs⟩ hWhole.2.1
        · cases hWalk : walk sha256 floats (nonblankLines raw) with
          | ok prev => exact ⟨prev, hWalk⟩
          | error fault => exact absurd ⟨fault, hWalk⟩ hWhole.1
    obtain ⟨hBlank, ⟨prev, hWalk⟩, hShort⟩ := hRepaired
    obtain ⟨log, hOpen, hAccepted⟩ := accepted_overwriting secrets hBlank hWalk hShort
    rw [hStays log hOpen] at hAccepted
    cases hAccepted
  · rintro ⟨raw, hLog, hDamaged⟩ log hOpen calls
    obtain ⟨_, head⟩ := files
    cases hLog
    rw [AuditLog.open] at hOpen
    cases hLoad : loadLastHash floats (some raw) with
    | error e =>
      rw [hLoad] at hOpen
      cases hOpen
    | ok writer =>
      exact (begun_recordAll (s := ⟨log, ⟨some raw, head⟩⟩) .untouched calls).not_accepted hLoad
        hVerify hBroken hDamaged

/-- A log of one line that belongs to no chain: it opens, and stays broken. -/
def unchainedLog : Text := "\x7b\"sha256\":\"a\"\x7d\n".toList

theorem walk_unchainedLog :
    walk id .verbatim (nonblankLines unchainedLog) = .error (1, .fault .prevMismatch) := by
  decide +kernel

theorem stays_broken_iff_damaged_unchained :
    (AuditLog.open .verbatim [] ⟨some unchainedLog, none⟩).toOption.isSome = true ∧
    ((∀ log, AuditLog.open .verbatim [] ⟨some unchainedLog, none⟩ = .ok log → ∀ calls,
        accepts id .verbatim (recordAll id ⟨log, ⟨some unchainedLog, none⟩⟩ calls).files = false) ↔
      DamagedLog id .verbatim ⟨some unchainedLog, none⟩) :=
  ⟨by decide +kernel, stays_broken_iff_damaged id .verbatim [] ⟨some unchainedLog, none⟩
    ⟨false, some (.line 1 .prevMismatch), 1⟩ (by simp only [verifyChain, walk_unchainedLog]) rfl⟩

/-- The second of two records is cut off, which the checkpoint shows until the next call. -/
theorem truncation_is_extended :
    let first : Act := .record overwriting
    let files : Files := ⟨(Process.after id .verbatim [] [.restart, first]).files.log,
      (Process.after id .verbatim [] [.restart, first, first]).files.head⟩
    (verifyChain id .verbatim files).toOption.map ChainResult.ok = some false ∧
      (AuditLog.open .verbatim [] files).toOption.any (fun log =>
        accepts id .verbatim (recordAll id ⟨log, files⟩ [overwriting]).files) = true := by
  decide +kernel

end AccessBroker.Audit
