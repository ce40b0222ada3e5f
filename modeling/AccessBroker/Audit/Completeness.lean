import AccessBroker.Audit.Tampering

/-! # Complete logs

What the verifier is for: a log whose records chain and whose sidecar names the last
of them and their number. The verifier compares a sidecar only if there is one, and
compares it even if there is no record.
-/

namespace AccessBroker.Audit
open Py Json
set_option autoImplicit false

variable {sha256 : Text → Text} {floats : FloatFormat}

/-- The sidecar is a dict with this digest and this number of lines. -/
def Checkpoint (floats : FloatFormat) (head sha : Text) (lines : Nat) : Prop :=
  ∃ record, loads floats (strip head) = some (.obj record) ∧
    Dict.get? record "sha256".toList = some (.ofText sha) ∧
    equalsNat floats (Dict.get? record "lines".toList) lines = true

/-- The non-blank lines are records, each naming the one before it. -/
def Chained (sha256 : Text → Text) (floats : FloatFormat) (raw : Text) (records : List Dict) :
    Prop :=
  recordsOf floats raw = some records ∧ Linked sha256 GENESIS records

/-- The records chain, and unless there are none the sidecar names the last and their number. -/
def Complete (sha256 : Text → Text) (floats : FloatFormat) (raw : Text) (head : Option Text) :
    Prop :=
  ∃ records, Chained sha256 floats raw records ∧
    (records ≠ [] → ∃ text, head = some text ∧
      Checkpoint floats text (lastDigest sha256 records) records.length)

/-- There is a sidecar exactly if there is a record, or else it names the empty log. -/
def Accompanied (floats : FloatFormat) (records : List Dict) (head : Option Text) : Prop :=
  (records ≠ [] → head ≠ none) ∧
    (records = [] → ∀ text, head = some text → Checkpoint floats text GENESIS 0)

theorem headNames_iff {head sha : Text} {lines : Nat} :
    HeadNames floats head sha lines ↔ Checkpoint floats head sha lines := by
  rw [HeadNames, checkHead]
  constructor
  · intro h
    split at h
    · cases h
    · rename_i record hLoads
      split at h
      · cases h
      split at h
      · cases h
      · rename_i hSha hLines
        rw [Bool.not_eq_false] at hSha hLines
        exact ⟨record, hLoads, isText_eq_true.mp hSha, hLines⟩
    · cases h
  · rintro ⟨record, hLoads, hSha, hLines⟩
    rw [hLoads]
    dsimp only
    rw [if_neg (by rw [isText_eq_true.mpr hSha]; simp), if_neg (by rw [hLines]; simp)]

theorem equalsNat_unique {value : Option Value} {m n : Nat} (hm : equalsNat floats value m = true)
    (hn : equalsNat floats value n = true) : m = n := by
  unfold equalsNat at hm hn
  split at hm
  · simp only [beq_iff_eq] at hm hn
    omega
  · simp only [beq_iff_eq] at hm hn
    rw [hm, hn]
  · simp only [beq_iff_eq] at hm hn
    rw [hm] at hn
    exact Int.ofNat.inj (Option.some.inj hn)
  · cases hm

theorem Checkpoint.lines_unique {head sha sha' : Text} {lines lines' : Nat}
    (h : Checkpoint floats head sha lines) (h' : Checkpoint floats head sha' lines') :
    lines = lines' := by
  obtain ⟨record, hLoads, _, hLines⟩ := h
  obtain ⟨record', hLoads', _, hLines'⟩ := h'
  rw [hLoads] at hLoads'
  cases hLoads'
  exact equalsNat_unique hLines hLines'

theorem recordsOf_of_walk {lines : List Text} {prev last : Text} {index : Nat}
    (h : Scan.scan (checkLine sha256 floats) prev index lines = .ok last) :
    ∃ records, lines.mapM (recordOf floats) = some records := by
  induction lines generalizing prev index with
  | nil => exact ⟨[], rfl⟩
  | cons line more ih =>
    rw [Scan.scan] at h
    split at h
    · cases h
    rename_i next hCheck
    obtain ⟨rest, hRest⟩ := ih h
    obtain ⟨record, hLoads, _⟩ := checkLine_ok hCheck
    have hRecord : recordOf floats line = some record := by
      rw [recordOf, hLoads]
    exact ⟨record :: rest, records_cons.mpr ⟨record, rest, hRecord, hRest, rfl⟩⟩

/-- Without a sidecar the verifier asks for nothing but the chain. -/
theorem accepts_without_head {raw : Text} :
    accepts sha256 floats ⟨some raw, none⟩ = true ↔ ∃ records, Chained sha256 floats raw records := by
  rw [accepts, verifyChain]
  dsimp only
  cases hScan : walk sha256 floats (nonblankLines raw) with
  | error fault =>
    have hNot : ¬ ∃ records, Chained sha256 floats raw records := by
      rintro ⟨records, hRecords, hLinked⟩
      have hWalk : walk sha256 floats (nonblankLines raw) = .ok (lastDigest sha256 records) :=
        (scan_records sha256 hRecords).mpr ⟨hLinked, rfl⟩
      rw [hWalk] at hScan
      cases hScan
    obtain ⟨number, stop⟩ := fault
    cases stop with
    | fault fault => simp [hNot]
    | attributeError => simp [hNot]
  | ok last =>
    obtain ⟨records, hRecords⟩ := recordsOf_of_walk hScan
    refine iff_of_true rfl ⟨records, hRecords, ?_⟩
    exact ((scan_records sha256 hRecords).mp hScan).1

theorem accepts_with_head {raw head : Text} :
    accepts sha256 floats ⟨some raw, some head⟩ = true ↔ ∃ records,
      Chained sha256 floats raw records ∧
        Checkpoint floats head (lastDigest sha256 records) records.length := by
  constructor
  · intro hAccepted
    have hChain : ∃ last, walk sha256 floats (nonblankLines raw) = .ok last := by
      rw [accepts, verifyChain] at hAccepted
      dsimp only at hAccepted
      cases hScan : walk sha256 floats (nonblankLines raw) with
      | error fault =>
        obtain ⟨number, stop⟩ := fault
        cases stop <;> simp [hScan] at hAccepted
      | ok last => exact ⟨last, rfl⟩
    obtain ⟨last, hScan⟩ := hChain
    obtain ⟨records, hRecords⟩ := recordsOf_of_walk hScan
    obtain ⟨hLinked, hHead⟩ := (accepts_records hRecords).mp hAccepted
    exact ⟨records, ⟨hRecords, hLinked⟩, headNames_iff.mp hHead⟩
  · rintro ⟨records, ⟨hRecords, hLinked⟩, hHead⟩
    exact (accepts_records hRecords).mpr ⟨hLinked, headNames_iff.mpr hHead⟩

theorem Chained.unique {raw : Text} {records records' : List Dict}
    (h : Chained sha256 floats raw records) (h' : Chained sha256 floats raw records') :
    records = records' :=
  Option.some.inj (h.1.symm.trans h'.1)

/-- The verifier accepts exactly the complete logs among those that are accompanied. -/
theorem accepts_iff_complete {raw : Text} {head : Option Text} :
    (accepts sha256 floats ⟨some raw, head⟩ = true ↔ Complete sha256 floats raw head) ↔
      ∀ records, Chained sha256 floats raw records → Accompanied floats records head := by
  by_cases hChain : ∃ records, Chained sha256 floats raw records
  · obtain ⟨records, hChained⟩ := hChain
    have hOnly : (∀ others, Chained sha256 floats raw others → Accompanied floats others head) ↔
        Accompanied floats records head :=
      ⟨fun h => h records hChained, fun h others hOthers => hChained.unique hOthers ▸ h⟩
    have hComplete : Complete sha256 floats raw head ↔ (records ≠ [] → ∃ text, head = some text ∧
        Checkpoint floats text (lastDigest sha256 records) records.length) :=
      ⟨fun ⟨others, hOthers, h⟩ => hChained.unique hOthers ▸ h, fun h => ⟨records, hChained, h⟩⟩
    rw [hOnly, hComplete, Accompanied]
    cases head with
    | none =>
      rw [accepts_without_head]
      simp [show ∃ records, Chained sha256 floats raw records from ⟨records, hChained⟩]
    | some text =>
      have hAccepts : accepts sha256 floats ⟨some raw, some text⟩ = true ↔
          Checkpoint floats text (lastDigest sha256 records) records.length :=
        accepts_with_head.trans
          ⟨fun ⟨others, hOthers, h⟩ => hChained.unique hOthers ▸ h,
            fun h => ⟨records, hChained, h⟩⟩
      rw [hAccepts]
      cases records with
      | nil => simp [lastDigest]
      | cons record rest => simp
  · refine iff_of_true (iff_of_false ?_ ?_) fun records hChained => absurd ⟨records, hChained⟩ hChain
    · intro hAccepted
      cases head with
      | none => exact hChain (accepts_without_head.mp hAccepted)
      | some text =>
        obtain ⟨records, hChained, _⟩ := accepts_with_head.mp hAccepted
        exact hChain ⟨records, hChained⟩
    · rintro ⟨records, hChained, _⟩
      exact hChain ⟨records, hChained⟩

/-! ## Truncations -/

theorem Chained.initial {raw raw' : Text} {records : List Dict}
    (h : Chained sha256 floats raw records)
    (hPrefix : nonblankLines raw' <+: nonblankLines raw) :
    ∃ records', Chained sha256 floats raw' records' := by
  obtain ⟨rest, hRest⟩ := hPrefix
  have hScan : walk sha256 floats (nonblankLines raw) = .ok (lastDigest sha256 records) :=
    (scan_records sha256 h.1).mpr ⟨h.2, rfl⟩
  rw [walk, ← hRest] at hScan
  cases hHead : Scan.scan (checkLine sha256 floats) GENESIS 1 (nonblankLines raw') with
  | error fault =>
    rw [Scan.scan_append_error hHead] at hScan
    cases hScan
  | ok last =>
    obtain ⟨records', hRecords'⟩ := recordsOf_of_walk hHead
    exact ⟨records', hRecords', ((scan_records sha256 hRecords').mp hHead).1⟩

/-- A log that lost its last records is rejected as long as its sidecar is kept. -/
theorem truncation_rejected {raw raw' head : Text}
    (hAccepted : accepts sha256 floats ⟨some raw, some head⟩ = true)
    (hPrefix : nonblankLines raw' <+: nonblankLines raw)
    (hProper : nonblankLines raw' ≠ nonblankLines raw) :
    accepts sha256 floats ⟨some raw', some head⟩ = false ∧
      accepts sha256 floats ⟨some raw', none⟩ = true := by
  obtain ⟨records, hChained, hHead⟩ := accepts_with_head.mp hAccepted
  refine ⟨?_, accepts_without_head.mpr (hChained.initial hPrefix)⟩
  rw [← Bool.not_eq_true]
  intro hAccepted'
  obtain ⟨records', hChained', hHead'⟩ := accepts_with_head.mp hAccepted'
  apply hProper
  apply hPrefix.eq_of_length
  rw [← length_records hChained.1, ← length_records hChained'.1]
  exact hHead'.lines_unique hHead

/-- The verifier accepts exactly the complete logs where a log with records has a sidecar and
an empty one has none that says otherwise; and a truncation of an accepted log is rejected
with its sidecar and accepted without. -/
theorem verify_chain_complete_iff (sha256 : Text → Text) (floats : FloatFormat) (raw : Text)
    (head : Option Text) :
    ((accepts sha256 floats ⟨some raw, head⟩ = true ↔ Complete sha256 floats raw head) ↔
      ∀ records, Chained sha256 floats raw records → Accompanied floats records head) ∧
    ∀ raw' text, accepts sha256 floats ⟨some raw, some text⟩ = true →
      nonblankLines raw' <+: nonblankLines raw → nonblankLines raw' ≠ nonblankLines raw →
      accepts sha256 floats ⟨some raw', some text⟩ = false ∧
        accepts sha256 floats ⟨some raw', none⟩ = true :=
  ⟨accepts_iff_complete, fun _ _ => truncation_rejected⟩

def twoOfThree : Text := (nonblankLines (threeLines ['x'])).take 2 |>.flatMap (· ++ ['\n'])

/-- The truncated log is rejected with its sidecar and accepted without. -/
theorem unaccompanied_log_accepted :
    accepts id .verbatim ⟨some (threeLines ['x']), some threeHead⟩ = true ∧
      accepts id .verbatim ⟨some twoOfThree, some threeHead⟩ = false ∧
      accepts id .verbatim ⟨some twoOfThree, none⟩ = true ∧
      ¬ Complete id .verbatim twoOfThree none := by
  refine ⟨by decide +kernel, by decide +kernel, by decide +kernel, ?_⟩
  rintro ⟨records, hChained, hHead⟩
  have hLines : (nonblankLines twoOfThree).length = 2 := by decide +kernel
  have hLength := length_records hChained.1
  rw [hLines] at hLength
  obtain ⟨text, hText, _⟩ := hHead (by rintro rfl; cases hLength)
  cases hText

end AccessBroker.Audit
