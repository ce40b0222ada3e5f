import Mathlib.Data.Fintype.Basic
import AccessBroker.Cli
import AccessBroker.Library.Machine

/-! # The push lock

Processes that take and release the lock of one remote path, by single steps on the
file system in any order. A lock file is told from another of the same name by its
inode.
-/

namespace AccessBroker.Cli.PushLock
set_option autoImplicit false

def LOCK_STALE_SECONDS : Int := 120

structure LockFile where
  inode : Nat
  mtime : Int
  deriving DecidableEq

inductive Stage where
  /-- `os.open` with `O_EXCL`, the first time. -/
  | idle
  /-- The file exists: `time.time()`. -/
  | taken
  /-- `p.stat()`. -/
  | timed (now : Int)
  /-- The file it has seen is stale: `p.unlink`. -/
  | stale (inode : Nat)
  /-- `os.open` with `O_EXCL`, the second time. -/
  | cleared
  /-- It has created the file, then: `os.write`. -/
  | created (inode : Nat) (since : Int)
  /-- `acquire_lock` has returned, then: `release_lock`. -/
  | holding (inode : Nat) (since : Int)
  deriving DecidableEq

structure State (ι : Type) where
  lock : Option LockFile
  fresh : Nat
  clock : Int
  procs : ι → Stage

inductive Act (ι : Type) where
  | wait (elapsed : Nat)
  | turn (p : ι)
  deriving DecidableEq

section Steps

variable {ι : Type} [DecidableEq ι]

def State.goTo (s : State ι) (p : ι) (stage : Stage) : State ι :=
  { s with procs := Function.update s.procs p stage }

/-- The exclusive creation, with what follows a `FileExistsError`. -/
def State.create (s : State ι) (p : ι) (refused : Stage) : State ι :=
  match s.lock with
  | some _ => s.goTo p refused
  | none => { s with lock := some ⟨s.fresh, s.clock⟩, fresh := s.fresh + 1 }.goTo p
      (.created s.fresh s.clock)

/-- A file that is gone counts as new. -/
def State.judge (s : State ι) (now : Int) : Stage :=
  match s.lock with
  | none => .idle
  | some file =>
    if now - file.mtime > LOCK_STALE_SECONDS * second then .stale file.inode else .idle

/-- Writing to a file that was unlinked changes nothing that can be seen. -/
def State.write (s : State ι) (inode : Nat) : State ι :=
  { s with lock := s.lock.map fun file =>
      if file.inode = inode then { file with mtime := s.clock } else file }

def State.unlink (s : State ι) : State ι := { s with lock := none }

def State.turn (s : State ι) (p : ι) : State ι :=
  match s.procs p with
  | .idle => s.create p .taken
  | .taken => s.goTo p (.timed s.clock)
  | .timed now => s.goTo p (s.judge now)
  | .stale _ => s.unlink.goTo p .cleared
  | .cleared => s.create p .idle
  | .created inode _ => (s.write inode).goTo p (.holding inode s.clock)
  | .holding _ _ => s.unlink.goTo p .idle

def State.step (s : State ι) : Act ι → State ι
  | .wait elapsed => { s with clock := s.clock + elapsed }
  | .turn p => s.turn p

/-- Any lock file may be left over from before. -/
def State.start (leftover : Option Int) (clock : Int) : State ι where
  lock := leftover.map fun mtime => ⟨0, mtime⟩
  fresh := 1
  clock
  procs := fun _ => .idle

/-! ## What is claimed of a run -/

def Stage.holds : Stage → Bool
  | .holding _ _ => true
  | _ => false

/-- No two processes are between a successful `acquire_lock` and its `release_lock`. -/
def State.Exclusive (s : State ι) : Prop :=
  ∀ p q, (s.procs p).holds = true → (s.procs q).holds = true → p = q

def Stage.overdue (clock : Int) : Stage → Bool
  | .holding _ since => since + LOCK_STALE_SECONDS * second < clock
  | _ => false

/-- Every holder has acquired its lock at most `LOCK_STALE_SECONDS` ago. -/
def State.Timely (s : State ι) : Prop := ∀ p, (s.procs p).overdue s.clock = false

/-- A process that breaks a stale lock finds the file that it has judged, or none; and
between creating a lock and returning with it, a process lets less time pass than makes the
lock stale. -/
def State.careful (s : State ι) : Act ι → Bool
  | .wait _ => true
  | .turn p =>
    match s.procs p with
    | .stale inode => s.lock.all fun file => file.inode = inode
    | .created _ since => decide (s.clock ≤ since + LOCK_STALE_SECONDS * second)
    | _ => true

/-! ## The files of the processes -/

/-- The lock file that a process has created and not yet released, with the time at which it
created it or, once it holds the lock, acquired it. -/
def Stage.owned : Stage → Option (Nat × Int)
  | .created inode since | .holding inode since => some (inode, since)
  | _ => none

def State.Owns (s : State ι) (p : ι) (inode : Nat) (since : Int) : Prop :=
  (s.procs p).owned = some (inode, since)

def State.Expired (s : State ι) (since : Int) : Prop :=
  since + LOCK_STALE_SECONDS * second < s.clock

structure Inv (s : State ι) : Prop where
  known : ∀ file ∈ s.lock, file.inode < s.fresh
  owned : ∀ p inode since, s.Owns p inode since → inode < s.fresh
  past : ∀ p inode since, s.Owns p inode since → since ≤ s.clock
  distinct : ∀ p q inode since since', s.Owns p inode since → s.Owns q inode since' → p = q
  present : ∀ p inode since, s.Owns p inode since →
    (∃ file ∈ s.lock, file.inode = inode) ∨ s.Expired since
  dated : ∀ file ∈ s.lock, ∀ p since, s.Owns p file.inode since → since ≤ file.mtime
  timed : ∀ p now, s.procs p = .timed now → now ≤ s.clock
  judged : ∀ p inode, s.procs p = .stale inode → inode < s.fresh ∧
    ∀ q since, s.Owns q inode since → s.Expired since

omit [DecidableEq ι] in
theorem inv_start (leftover : Option Int) (clock : Int) :
    Inv (State.start leftover clock : State ι) := by
  have hNobody {p : ι} {inode : Nat} {since : Int} :
      ¬(State.start leftover clock : State ι).Owns p inode since := nofun
  constructor
  · intro file hFile
    obtain ⟨mtime, _, rfl⟩ := Option.map_eq_some_iff.mp hFile
    exact Nat.zero_lt_one
  · exact fun _ _ _ h => (hNobody h).elim
  · exact fun _ _ _ h => (hNobody h).elim
  · exact fun _ _ _ _ _ h => (hNobody h).elim
  · exact fun _ _ _ h => (hNobody h).elim
  · exact fun _ _ _ _ h => (hNobody h).elim
  · nofun
  · nofun

variable {s : State ι} {p : ι}

theorem procs_goTo {stage next : Stage} {q : ι} (h : (s.goTo p stage).procs q = next) :
    q = p ∧ stage = next ∨ q ≠ p ∧ s.procs q = next := by
  by_cases hq : q = p
  · subst hq
    exact Or.inl ⟨rfl, (Function.update_self ..).symm.trans h⟩
  · exact Or.inr ⟨hq, (Function.update_of_ne hq ..).symm.trans h⟩

theorem owns_goTo {stage : Stage} {q : ι} {inode : Nat} {since : Int}
    (h : (s.goTo p stage).Owns q inode since) :
    q = p ∧ stage.owned = some (inode, since) ∨ q ≠ p ∧ s.Owns q inode since := by
  rcases procs_goTo (rfl : (s.goTo p stage).procs q = _) with ⟨hSelf, hStage⟩ | ⟨hOther, hStage⟩
  · exact Or.inl ⟨hSelf, (congrArg Stage.owned hStage).trans h⟩
  · exact Or.inr ⟨hOther, (congrArg Stage.owned hStage).trans h⟩

theorem Inv.goTo (h : Inv s) {stage : Stage}
    (hOwned : ∀ inode since, stage.owned = some (inode, since) → s.Owns p inode since)
    (hTimed : ∀ now, stage = .timed now → now ≤ s.clock)
    (hJudged : ∀ inode, stage = .stale inode → inode < s.fresh ∧
      ∀ q since, s.Owns q inode since → s.Expired since) : Inv (s.goTo p stage) := by
  have hOwns {q : ι} {inode : Nat} {since : Int} (hq : (s.goTo p stage).Owns q inode since) :
      s.Owns q inode since := by
    rcases owns_goTo hq with ⟨rfl, hSome⟩ | ⟨_, hBefore⟩
    · exact hOwned inode since hSome
    · exact hBefore
  constructor
  · exact h.known
  · exact fun q inode since hq => h.owned q inode since (hOwns hq)
  · exact fun q inode since hq => h.past q inode since (hOwns hq)
  · exact fun q q' inode since since' hq hq' => h.distinct q q' inode since since' (hOwns hq) (hOwns hq')
  · exact fun q inode since hq => h.present q inode since (hOwns hq)
  · exact fun file hFile q since hq => h.dated file hFile q since (hOwns hq)
  · intro q now hq
    rcases procs_goTo hq with ⟨_, hStage⟩ | ⟨_, hStage⟩
    · exact hTimed now hStage
    · exact h.timed q now hStage
  · intro q inode hq
    have hBefore : inode < s.fresh ∧ ∀ q since, s.Owns q inode since → s.Expired since := by
      rcases procs_goTo hq with ⟨_, hStage⟩ | ⟨_, hStage⟩
      · exact hJudged inode hStage
      · exact h.judged q inode hStage
    exact ⟨hBefore.1, fun q' since hq' => hBefore.2 q' since (hOwns hq')⟩

omit [DecidableEq ι] in
/-- A file can go when whoever owns it has had it for too long. -/
theorem Inv.unlink (h : Inv s)
    (hNobody : ∀ file ∈ s.lock, ∀ q since, s.Owns q file.inode since → s.Expired since) :
    Inv s.unlink := by
  constructor
  · nofun
  · exact h.owned
  · exact h.past
  · exact h.distinct
  · intro q inode since hq
    rcases h.present q inode since hq with ⟨file, hFile, rfl⟩ | hExpired
    · exact Or.inr (hNobody file hFile q since hq)
    · exact Or.inr hExpired
  · nofun
  · exact h.timed
  · exact h.judged

/-- A process that comes to own the file at the path, as of now. -/
theorem Inv.own (h : Inv s) {file : LockFile} {fresh : Nat} {stage : Stage}
    (hStage : stage.owned = some (file.inode, s.clock)) (hDate : file.mtime = s.clock)
    (hFresh : s.fresh ≤ fresh) (hInode : file.inode < fresh)
    (hLock : ∀ before ∈ s.lock, before.inode = file.inode)
    (hOwner : ∀ q since, s.Owns q file.inode since → q = p)
    (hJudged : ∀ q, s.procs q ≠ .stale file.inode) :
    Inv ({ s with lock := some file, fresh := fresh }.goTo p stage) := by
  have hOwns {q : ι} {inode : Nat} {since : Int}
      (hq : ({ s with lock := some file, fresh := fresh }.goTo p stage).Owns q inode since) :
      q = p ∧ inode = file.inode ∧ since = s.clock ∨ q ≠ p ∧ s.Owns q inode since := by
    rcases owns_goTo hq with ⟨hSelf, hSome⟩ | hOther
    · cases hStage.symm.trans hSome
      exact Or.inl ⟨hSelf, rfl, rfl⟩
    · exact Or.inr hOther
  constructor
  · rintro _ ⟨⟩
    exact hInode
  · intro q inode since hq
    rcases hOwns hq with ⟨_, rfl, _⟩ | ⟨_, hq⟩
    · exact hInode
    · exact lt_of_lt_of_le (h.owned q inode since hq) hFresh
  · intro q inode since hq
    rcases hOwns hq with ⟨_, _, rfl⟩ | ⟨_, hq⟩
    · exact le_refl _
    · exact h.past q inode since hq
  · intro q q' inode since since' hq hq'
    rcases hOwns hq with ⟨hSelf, rfl, _⟩ | ⟨hOther, hq⟩
    · rcases hOwns hq' with ⟨hSelf', _⟩ | ⟨hOther', hq'⟩
      · rw [hSelf, hSelf']
      · exact absurd (hOwner q' since' hq') hOther'
    · rcases hOwns hq' with ⟨_, rfl, _⟩ | ⟨_, hq'⟩
      · exact absurd (hOwner q since hq) hOther
      · exact h.distinct q q' inode since since' hq hq'
  · intro q inode since hq
    rcases hOwns hq with ⟨_, rfl, _⟩ | ⟨hOther, hq⟩
    · exact Or.inl ⟨file, rfl, rfl⟩
    · rcases h.present q inode since hq with ⟨before, hBefore, rfl⟩ | hExpired
      · rw [hLock before hBefore] at hq
        exact absurd (hOwner q since hq) hOther
      · exact Or.inr hExpired
  · rintro _ ⟨⟩ q since hq
    rcases hOwns hq with ⟨_, _, rfl⟩ | ⟨hOther, hq⟩
    · exact hDate.ge
    · exact absurd (hOwner q since hq) hOther
  · intro q now hq
    rcases procs_goTo hq with ⟨_, rfl⟩ | ⟨_, hBefore⟩
    · cases hStage
    · exact h.timed q now hBefore
  · intro q inode hq
    rcases procs_goTo hq with ⟨_, rfl⟩ | ⟨_, hBefore⟩
    · cases hStage
    · obtain ⟨hKnown, hExpired⟩ := h.judged q inode hBefore
      refine ⟨lt_of_lt_of_le hKnown hFresh, fun q' since hq' => ?_⟩
      rcases hOwns hq' with ⟨_, rfl, _⟩ | ⟨_, hq'⟩
      · exact absurd hBefore (hJudged q)
      · exact hExpired q' since hq'

theorem Inv.create (h : Inv s) (hNone : s.lock = none) :
    Inv ({ s with lock := some ⟨s.fresh, s.clock⟩, fresh := s.fresh + 1 }.goTo p
      (.created s.fresh s.clock)) := by
  apply h.own rfl rfl (Nat.le_succ _) (Nat.lt_succ_self _)
  · intro before hBefore
    rw [hNone] at hBefore
    cases hBefore
  · exact fun q since hq => absurd (h.owned q s.fresh since hq) (Nat.lt_irrefl _)
  · exact fun q hq => absurd (h.judged q s.fresh hq).1 (Nat.lt_irrefl _)

/-- A process that returns in time with the lock that it has created: the file is still there. -/
theorem Inv.hold (h : Inv s) {inode : Nat} {since : Int} (hCreated : s.Owns p inode since)
    (hTime : ¬s.Expired since) : Inv ((s.write inode).goTo p (.holding inode s.clock)) := by
  obtain ⟨file, hFile, rfl⟩ := (h.present p inode since hCreated).resolve_right hTime
  have hWrite : s.write file.inode = { s with lock := some ⟨file.inode, s.clock⟩ } := by
    rw [State.write, Option.mem_def.mp hFile, Option.map_some, if_pos rfl]
  have hKnown : LockFile.inode ⟨file.inode, s.clock⟩ < s.fresh := h.known file hFile
  rw [hWrite]
  apply h.own rfl rfl (le_refl _) hKnown
  · intro before hBefore
    cases hFile.symm.trans hBefore
    rfl
  · exact fun q since' hq => h.distinct q p file.inode since' since hq hCreated
  · exact fun q hq => absurd ((h.judged q file.inode hq).2 p since hCreated) hTime

theorem Inv.wait (h : Inv s) (elapsed : Nat) : Inv (s.step (.wait elapsed)) := by
  have hLater {since : Int} (hExpired : s.Expired since) : (s.step (.wait elapsed)).Expired since := by
    have hBefore : since + LOCK_STALE_SECONDS * second < s.clock := hExpired
    change since + LOCK_STALE_SECONDS * second < s.clock + elapsed
    omega
  constructor
  · exact h.known
  · exact h.owned
  · intro q inode since hq
    have hPast := h.past q inode since hq
    change since ≤ s.clock + elapsed
    omega
  · exact h.distinct
  · exact fun q inode since hq => (h.present q inode since hq).imp_right hLater
  · exact h.dated
  · intro q now hq
    have hPast := h.timed q now hq
    change now ≤ s.clock + elapsed
    omega
  · exact fun q inode hq => (h.judged q inode hq).imp_right
      fun hExpired q' since hq' => hLater (hExpired q' since hq')

theorem Inv.judge (h : Inv s) {now : Int} (hNow : now ≤ s.clock) : Inv (s.goTo p (s.judge now)) := by
  unfold State.judge
  split
  · exact h.goTo nofun nofun nofun
  · rename_i file hLock
    split
    · rename_i hStale
      refine h.goTo nofun nofun ?_
      rintro _ ⟨⟩
      refine ⟨h.known file hLock, fun q since hq => ?_⟩
      have hDated := h.dated file hLock q since hq
      change since + LOCK_STALE_SECONDS * second < s.clock
      omega
    · exact h.goTo nofun nofun nofun

theorem Inv.tryCreate (h : Inv s) {refused : Stage} (hOwned : refused.owned = none)
    (hTimed : ∀ now, refused ≠ .timed now) (hStale : ∀ inode, refused ≠ .stale inode) :
    Inv (s.create p refused) := by
  unfold State.create
  split
  · refine h.goTo ?_ (fun now hNow => absurd hNow (hTimed now))
      (fun inode hInode => absurd hInode (hStale inode))
    intro inode since hSome
    rw [hOwned] at hSome
    cases hSome
  · exact h.create ‹_›

omit [DecidableEq ι] in
/-- A holder that is not overdue finds its own lock file when it releases. -/
theorem Inv.holder (h : Inv s) (hTimely : s.Timely) {inode : Nat} {since : Int}
    (hHolds : s.procs p = .holding inode since) : ∃ file ∈ s.lock, file.inode = inode := by
  refine (h.present p inode since (by rw [State.Owns, hHolds]; rfl)).resolve_right fun hExpired => ?_
  have hDue := hTimely p
  rw [hHolds] at hDue
  exact of_decide_eq_false hDue hExpired

theorem Inv.turn (h : Inv s) (hTimely : s.Timely) (hCareful : s.careful (.turn p) = true) :
    Inv (s.turn p) := by
  unfold State.turn
  cases hStage : s.procs p with
  | idle => exact h.tryCreate rfl nofun nofun
  | taken => exact h.goTo nofun (by rintro _ ⟨⟩; exact le_refl _) nofun
  | timed now => exact h.judge (h.timed p now hStage)
  | stale inode =>
    -- the file at the path is the judged one, whose owner has had it for too long
    refine (h.unlink fun file hFile q since hq => ?_).goTo nofun nofun nofun
    have hSame : file.inode = inode := by
      have hAll : s.lock.all (fun file => file.inode = inode) = true := by
        simpa only [State.careful, hStage] using hCareful
      rw [Option.mem_def.mp hFile] at hAll
      exact of_decide_eq_true hAll
    rw [hSame] at hq
    exact (h.judged p inode hStage).2 q since hq
  | cleared => exact h.tryCreate rfl nofun nofun
  | created inode since =>
    have hTime : s.clock ≤ since + LOCK_STALE_SECONDS * second := by
      simpa only [State.careful, hStage, decide_eq_true_eq] using hCareful
    exact h.hold (congrArg Stage.owned hStage) (not_lt.mpr hTime)
  | holding inode since =>
    -- the file at the path is the holder's own
    obtain ⟨mine, hMine, rfl⟩ := h.holder hTimely hStage
    refine Inv.unlink (s := s.goTo p .idle) (h.goTo nofun nofun nofun) fun file hFile q since' hq => ?_
    rcases owns_goTo hq with ⟨_, hSome⟩ | ⟨hOther, hq⟩
    · cases hSome
    · cases hMine.symm.trans hFile
      exact absurd (h.distinct q p _ _ _ hq (congrArg Stage.owned hStage)) hOther

omit [DecidableEq ι] in
theorem Inv.exclusive (h : Inv s) (hTimely : s.Timely) : s.Exclusive := by
  intro p q hp hq
  cases hStage : s.procs p with
  | holding inode since =>
    cases hStage' : s.procs q with
    | holding inode' since' =>
      obtain ⟨file, hFile, rfl⟩ := h.holder hTimely hStage
      obtain ⟨file', hFile', rfl⟩ := h.holder hTimely hStage'
      cases hFile.symm.trans hFile'
      exact h.distinct p q _ _ _ (congrArg Stage.owned hStage) (congrArg Stage.owned hStage')
    | _ =>
      rw [hStage'] at hq
      cases hq
  | _ =>
    rw [hStage] at hp
    cases hp

/-- However the processes take turns, and whatever lock file was left over: as long as every
holder releases in time, nobody breaks a lock that it has not judged, and nobody dawdles over
the lock that it has created, the lock excludes. -/
theorem exclusive_of_careful (leftover : Option Int) (clock : Int) (acts : List (Act ι))
    (hTimely : Machine.EveryState State.step State.Timely (State.start leftover clock) acts)
    (hCareful : Machine.EveryStep State.step (fun s act => s.careful act = true)
      (State.start leftover clock) acts) :
    Machine.EveryState State.step State.Exclusive (State.start leftover clock) acts := by
  have hInv : Machine.EveryState State.step Inv (State.start leftover clock) acts := by
    refine Machine.everyState_of_everyStep (C := fun s act => s.Timely ∧ s.careful act = true)
      ?_ (inv_start leftover clock) ?_
    · rintro s act h ⟨hTimely, hCareful⟩
      cases act with
      | wait elapsed => exact h.wait elapsed
      | turn p => exact h.turn hTimely hCareful
    · intro pre act post hActs
      exact ⟨hTimely pre (act :: post) hActs, hCareful pre act post hActs⟩
  intro pre post hActs
  exact (hInv pre post hActs).exclusive (hTimely pre post hActs)

end Steps

instance {ι : Type} [Fintype ι] (s : State ι) : Decidable s.Timely :=
  inferInstanceAs (Decidable (∀ p, (s.procs p).overdue s.clock = false))

/-- A lock left over from a process that has died is broken, while another process tries. -/
def brokenOnce : List (Act (Fin 2)) :=
  List.replicate 6 (.turn 0) ++ List.replicate 4 (.turn 1) ++ [.turn 0]

theorem exclusive_of_careful_broken :
    Machine.EveryState State.step State.Exclusive (State.start (some (-200 * second)) 0)
      brokenOnce :=
  exclusive_of_careful (some (-200 * second)) 0 brokenOnce (by decide +kernel) (by decide +kernel)

/-- Both processes judge the lock left over, and break what they find one after the other. -/
def brokenTwice : List (Act (Fin 2)) :=
  List.replicate 3 (.turn 0) ++ List.replicate 3 (.turn 1) ++ List.replicate 3 (.turn 0) ++
    List.replicate 3 (.turn 1)

theorem two_holders :
    Machine.EveryState State.step State.Timely (State.start (some (-200 * second)) 0)
      brokenTwice ∧
    ¬(Machine.run State.step (State.start (some (-200 * second)) 0) brokenTwice).Exclusive := by
  refine ⟨by decide +kernel, fun hExclusive => ?_⟩
  exact absurd (hExclusive 0 1 (by decide +kernel) (by decide +kernel)) (by decide)

end AccessBroker.Cli.PushLock
