import AccessBroker.System.Sweeping

/-! # Expiry notices

In the run of one process a request is announced at most once, in the first sweep that finds it
timed out, and is decided neither before nor after that.
-/

namespace AccessBroker.System
open Py Grants MatrixBot Server
set_option autoImplicit false

section Definitions

variable (w : Wiring) (env : Nextcloud.Environment)

def Posts (s : Broker) (rid : Nat) (act : Act) : Prop :=
  ∃ rest, (s.step w env act).tasks = s.waiting act ++ [.noticing rid rest]

def FindsExpired (s : Broker) (rid : Nat) : Prop :=
  ∃ row, s.desk.db.grants.get? rid = some row ∧
    row.TimedOut w.layer.store (env.clock s.desk.asked)

/-- From now on no approval, rejection or revocation of the number succeeds. -/
def Final (s : Broker) (rid : Nat) : Prop :=
  ∀ k, s.desk.asked ≤ k →
    (∀ expiry itemNumbers, ∃ e, (approve w.layer.store (env.clock k) rid expiry itemNumbers).run
      s.desk.db = (.error e, s.desk.db)) ∧
    (∃ e, (reject w.layer.store (env.clock k) rid).run s.desk.db = (.error e, s.desk.db)) ∧
    ∃ e, (revoke w.layer.store (env.clock k) rid).run s.desk.db = (.error e, s.desk.db)

/-- The process goes on, the send that has ended succeeded, and a sweep begins only after the one
before it is over. -/
def Broker.Undisturbed (s : Broker) (act : Act) : Prop :=
  act ≠ .restart ∧ (∀ index outcome, act = .resume index outcome → ∃ eventId, outcome = .ok eventId) ∧
    (act = .sweep → s.notices = [])

/-- The notices of a run tell the truth, each once. -/
structure NoticesTrue (s : Broker) (acts : List Act) : Prop where
  once : ∀ before act between later after rid, acts = before ++ act :: (between ++ later :: after) →
    Posts w env (Machine.run (Broker.step w env) s before) rid act →
    ¬ Posts w env (Machine.run (Broker.step w env) s (before ++ act :: between)) rid later
  first : ∀ before mid after rid, acts = before ++ .sweep :: (mid ++ after) → .sweep ∉ mid →
    (Machine.run (Broker.step w env) s (before ++ .sweep :: mid)).notices = [] →
    FindsExpired w env (Machine.run (Broker.step w env) s before) rid →
    (∀ pre post, before = pre ++ .sweep :: post →
      ¬ FindsExpired w env (Machine.run (Broker.step w env) s pre) rid) →
    ∃ pre act post, .sweep :: mid = pre ++ act :: post ∧
      Posts w env (Machine.run (Broker.step w env) s (before ++ pre)) rid act
  undecided : ∀ before act after rid, acts = before ++ act :: after →
    Posts w env (Machine.run (Broker.step w env) s before) rid act →
    FindsExpired w env (Machine.run (Broker.step w env) s (before ++ [act])) rid ∧
      ∀ pre post row, before ++ [act] = pre ++ post →
        (Machine.run (Broker.step w env) s pre).desk.db.grants.get? rid = some row →
          row.state = .pending
  final : ∀ before act between after rid, acts = before ++ act :: (between ++ after) →
    Posts w env (Machine.run (Broker.step w env) s before) rid act →
    Final w env (Machine.run (Broker.step w env) s (before ++ act :: between)) rid

/-! ## What a sweep goes by -/

def Broker.Lapsed (s : Broker) (rid : Nat) : Prop :=
  ∃ row, s.desk.Lapsed w.layer.store env.clock rid row

structure Broker.Announces (s : Broker) (rid : Nat) (rest : List GrantRecord) : Prop where
  notices : s.notices = [.noticing rid rest]
  fresh : rid ∉ s.desk.swept
  distinct : (rid :: rest.map GrantRecord.id).Nodup
  lapsed : s.Lapsed w env rid
  rest : ∀ record ∈ rest, record.state = .expired → s.Lapsed w env record.id

/-- What is remembered has timed out, and so has what is being announced. -/
structure Broker.Sound (s : Broker) : Prop where
  running : s.writer.isSome = true
  swept : ∀ rid ∈ s.desk.swept, s.Lapsed w env rid
  sweep : s.notices = [] ∨ ∃ rid rest, s.Announces w env rid rest

def Broker.Noticed (s : Broker) (rid : Nat) : Prop :=
  rid ∈ s.desk.swept ∨ ∃ rest, s.notices = [.noticing rid rest]

def Broker.Due (s : Broker) (rid : Nat) : Prop :=
  s.Noticed rid ∨ ∃ first rest, s.notices = [.noticing first rest] ∧
    ∃ record ∈ rest, record.id = rid ∧ record.state = .expired

end Definitions

variable {w : Wiring} {env : Nextcloud.Environment} {s s' : Broker} {act : Act}

theorem lapsed_of_desk (hRows : s'.desk.db = s.desk.db) (hAsked : s.desk.asked ≤ s'.desk.asked)
    {rid : Nat} (h : s.Lapsed w env rid) : s'.Lapsed w env rid := by
  obtain ⟨row, hRow, hOut⟩ := h
  exact ⟨row, by rw [hRows]; exact hRow, fun k hk => hOut k (hAsked.trans hk)⟩

theorem filter_announcement (swept : List Nat) (pending : List GrantRecord) :
    (announcement swept pending).filter announces = announcement swept pending := by
  rcases announcement_cases swept pending with ⟨hNone, _⟩ | ⟨_, _, _, _, _, _, hSome⟩
  · rw [hNone]
    rfl
  · rw [hSome]
    rfl

/-- What a sweep announces next of requests that it has read. -/
theorem sound_of_announcement {pending : List GrantRecord} (hRunning : s.writer.isSome = true)
    (hSwept : ∀ rid ∈ s.desk.swept, s.Lapsed w env rid)
    (hNotices : s.notices = announcement s.desk.swept pending)
    (hDistinct : (pending.map GrantRecord.id).Nodup)
    (hLapsed : ∀ record ∈ pending, record.state = .expired → s.Lapsed w env record.id) :
    s.Sound w env := by
  refine ⟨hRunning, hSwept, ?_⟩
  rcases announcement_cases s.desk.swept pending with
    ⟨hNone, _⟩ | ⟨skipped, record, rest, rfl, hDue, _, hSome⟩
  · exact Or.inl (hNotices.trans hNone)
  · obtain ⟨hExpired, hFresh⟩ := of_decide_eq_true hDue
    refine Or.inr ⟨record.id, rest, hNotices.trans hSome, hFresh, ?_, ?_, fun other hMem => ?_⟩
    · rw [List.map_append] at hDistinct
      exact (List.nodup_append.mp hDistinct).2.1
    · exact hLapsed record (by simp) hExpired
    · exact hLapsed other (by simp [hMem])

/-- The task that is resumed is the notice that the sweep waits for. -/
theorem Broker.Sound.resumed (h : s.Sound w env) {index : Nat} {rid : Nat} {rest : List GrantRecord}
    (hTask : s.tasks[index]? = some (.noticing rid rest)) :
    s.Announces w env rid rest ∧ (s.tasks.eraseIdx index).filter announces = [] := by
  have hErased : s.notices.Perm (.noticing rid rest :: (s.tasks.eraseIdx index).filter announces) :=
    erased_filter announces hTask
  rcases h.sweep with hNone | ⟨other, more, hAnnounces⟩
  · rw [hNone] at hErased
    cases hErased.symm.eq_nil
  · rw [hAnnounces.notices] at hErased
    obtain ⟨hHead, hTail⟩ := List.cons.inj (List.singleton_perm.mp hErased)
    cases hHead
    exact ⟨hAnnounces, hTail.symm⟩

/-- A step of an undisturbed process leaves the sweep alone, begins one, or takes the one under way
a notice further. -/
theorem Broker.Sound.cases (h : s.Sound w env) (hAct : s.Undisturbed act) :
    (s.desk.Minds w.layer.store env.clock (s.step w env act).desk ∧
      (s.step w env act).notices = s.notices ∧ act ≠ .sweep ∧ ∀ rid, ¬ Posts w env s rid act) ∨
    (∃ pending, (s.step w env act).notices = announcement (s.step w env act).desk.swept pending ∧
      (∀ rid, Posts w env s rid act ↔ ∃ rest, (s.step w env act).notices = [.noticing rid rest]) ∧
      ((act = .sweep ∧ s.notices = [] ∧
          pending = pendingRecords w.layer.store (env.clock s.desk.asked) s.desk.db ∧
          (s.step w env act).desk = { s.desk with asked := s.desk.asked + 1 }) ∨
        (act ≠ .sweep ∧ ∃ rid, s.Announces w env rid pending ∧
          (s.step w env act).desk = { s.desk with swept := rid :: s.desk.swept }))) := by
  obtain ⟨writer, hWriter⟩ := Option.isSome_iff_exists.mp h.running
  have hPosts {more : List Pause} (hTasks : (s.step w env act).tasks = s.waiting act ++ more)
      (rid : Nat) : Posts w env s rid act ↔ ∃ rest, more = [.noticing rid rest] := by
    rw [Posts, hTasks]
    exact exists_congr fun rest => List.append_right_inj _
  cases s.step_sweeps hWriter w env act hAct.1 hAct.2.1 with
  | ordinary desk tasks silent waiting ordinary =>
    refine Or.inl ⟨desk, ?_, ?_, fun rid hPost => ?_⟩
    · have hPerm : (s.step w env act).notices.Perm s.notices := by
        rw [Broker.notices, tasks, List.filter_append, silent, List.append_nil]
        exact waiting
      rcases h.sweep with hNone | ⟨rid, rest, hAnnounces⟩
      · rw [hNone] at hPerm ⊢
        exact hPerm.eq_nil
      · rw [hAnnounces.notices] at hPerm ⊢
        exact List.perm_singleton.mp hPerm
    · rintro rfl
      exact ordinary
    · obtain ⟨rest, hMore⟩ := (hPosts tasks rid).mp hPost
      rw [hMore] at silent
      cases silent
  | begins desk tasks =>
    have hNone : s.notices = [] := hAct.2.2 rfl
    have hNotices : (s.step w env .sweep).notices = announcement s.desk.swept
        (pendingRecords w.layer.store (env.clock s.desk.asked) s.desk.db) := by
      rw [Broker.notices, tasks, List.filter_append, filter_announcement]
      exact congrArg (· ++ _) hNone
    refine Or.inr ⟨_, ?_, fun rid => ?_, Or.inl ⟨rfl, hNone, rfl, desk⟩⟩
    · rw [hNotices, desk]
    · rw [hPosts tasks, hNotices]
  | continues task desk tasks =>
    obtain ⟨hAnnounces, hErased⟩ := h.resumed task
    have hNotices := congrArg (List.filter announces) tasks
    rw [List.filter_append, hErased, filter_announcement, List.nil_append] at hNotices
    refine Or.inr ⟨_, ?_, fun rid => ?_, Or.inr ⟨nofun, _, hAnnounces, desk⟩⟩
    · rw [desk]
      exact hNotices
    · rw [hPosts tasks, ← hNotices]
      rfl

theorem Broker.Sound.step (hClock : Monotone env.clock) (h : s.Sound w env)
    (hAct : s.Undisturbed act) : (s.step w env act).Sound w env := by
  have hRunning : (s.step w env act).writer.isSome = true :=
    Broker.step_running_kept h.running hAct.1
  rcases h.cases hAct with ⟨hMinds, hNotices, _⟩ | ⟨pending, hNotices, _, hSweep⟩
  · have hLapsed {rid : Nat} (hOld : s.Lapsed w env rid) : (s.step w env act).Lapsed w env rid := by
      obtain ⟨row, hRow⟩ := hOld
      exact ⟨row, hMinds.lapsed rid row hRow⟩
    refine ⟨hRunning, fun rid hMem => ?_, ?_⟩
    · rw [hMinds.swept] at hMem
      exact hLapsed (h.swept rid hMem)
    · rw [hNotices]
      refine h.sweep.imp id fun ⟨rid, rest, hAnnounces⟩ => ⟨rid, rest, ?_⟩
      refine ⟨hNotices.trans hAnnounces.notices, ?_, hAnnounces.distinct, hLapsed hAnnounces.lapsed,
        fun record hMem hExpired => hLapsed (hAnnounces.rest record hMem hExpired)⟩
      rw [hMinds.swept]
      exact hAnnounces.fresh
  · rcases hSweep with ⟨_, _, rfl, hDesk⟩ | ⟨_, rid, hAnnounces, hDesk⟩
    · have hLapsed {rid : Nat} : s.Lapsed w env rid → (s.step w env act).Lapsed w env rid :=
        lapsed_of_desk (by rw [hDesk]) (by rw [hDesk]; exact Nat.le_succ _)
      refine sound_of_announcement hRunning (fun rid hMem => ?_) hNotices (pendingRecords_nodup _) ?_
      · rw [hDesk] at hMem
        exact hLapsed (h.swept rid hMem)
      · intro record hMem hExpired
        obtain ⟨row, hRow, hPending, hRecord⟩ := mem_pendingRecords.mp hMem
        rw [hRecord] at hExpired
        have hOut := (timedOut_iff_expired hPending).mpr hExpired
        exact hLapsed ⟨row, hRow, fun k hk => hOut.later (hClock hk)⟩
    · have hLapsed {rid : Nat} : s.Lapsed w env rid → (s.step w env act).Lapsed w env rid :=
        lapsed_of_desk (by rw [hDesk]) (by rw [hDesk])
      refine sound_of_announcement hRunning (fun other hMem => ?_) hNotices
        (List.nodup_cons.mp hAnnounces.distinct).2 ?_
      · rw [hDesk] at hMem
        rcases List.mem_cons.mp hMem with rfl | hMem
        · exact hLapsed hAnnounces.lapsed
        · exact hLapsed (h.swept other hMem)
      · exact fun record hMem hExpired => hLapsed (hAnnounces.rest record hMem hExpired)

/-! ## What has been announced -/

/-- A sweep that is under way gets to what is still due of the requests it has read. -/
theorem due_announcement {pending : List GrantRecord}
    (hNotices : s.notices = announcement s.desk.swept pending) (rid : Nat) :
    s.Due rid ↔ rid ∈ s.desk.swept ∨
      ∃ record ∈ pending, record.id = rid ∧ record.state = .expired := by
  have hPassed {other : GrantRecord} (hDue : due s.desk.swept other = false)
      (hExpired : other.state = .expired) : other.id ∈ s.desk.swept := by
    by_contra hFresh
    exact of_decide_eq_false hDue ⟨hExpired, hFresh⟩
  rcases announcement_cases s.desk.swept pending with
    ⟨hNone, hAll⟩ | ⟨skipped, record, rest, rfl, hDue, hSkipped, hSome⟩
  · rw [hNone] at hNotices
    constructor
    · rintro ((hSwept | ⟨_, hOne⟩) | ⟨_, _, hOne, _⟩)
      · exact Or.inl hSwept
      · rw [hNotices] at hOne
        cases hOne
      · rw [hNotices] at hOne
        cases hOne
    · rintro (hSwept | ⟨other, hMem, rfl, hExpired⟩)
      · exact Or.inl (Or.inl hSwept)
      · exact Or.inl (Or.inl (hPassed (hAll other hMem) hExpired))
  · rw [hSome] at hNotices
    constructor
    · rintro ((hSwept | ⟨_, hOne⟩) | ⟨_, _, hOne, other, hMem, rfl, hExpired⟩)
      · exact Or.inl hSwept
      · rw [hNotices] at hOne
        cases hOne
        exact Or.inr ⟨record, by simp, rfl, (of_decide_eq_true hDue).1⟩
      · rw [hNotices] at hOne
        cases hOne
        exact Or.inr ⟨other, by simp [hMem], rfl, hExpired⟩
    · rintro (hSwept | ⟨other, hMem, rfl, hExpired⟩)
      · exact Or.inl (Or.inl hSwept)
      · rcases List.mem_append.mp hMem with hOld | hMem
        · exact Or.inl (Or.inl (hPassed (hSkipped other hOld) hExpired))
        rcases List.mem_cons.mp hMem with rfl | hMem
        · exact Or.inl (Or.inr ⟨rest, hNotices⟩)
        · exact Or.inr ⟨record.id, rest, hNotices, other, hMem, rfl, hExpired⟩

theorem findsExpired_iff {rid : Nat} : FindsExpired w env s rid ↔
    ∃ record ∈ pendingRecords w.layer.store (env.clock s.desk.asked) s.desk.db,
      record.id = rid ∧ record.state = .expired := by
  constructor
  · rintro ⟨row, hRow, hOut⟩
    refine ⟨toRecord w.layer.store (env.clock s.desk.asked) rid row, ?_, rfl, ?_⟩
    · exact mem_pendingRecords.mpr ⟨row, hRow, hOut.1, rfl⟩
    · exact (timedOut_iff_expired hOut.1).mp hOut
  · rintro ⟨record, hMem, rfl, hExpired⟩
    obtain ⟨row, hRow, hPending, hRecord⟩ := mem_pendingRecords.mp hMem
    rw [hRecord] at hExpired
    exact ⟨row, hRow, (timedOut_iff_expired hPending).mpr hExpired⟩

theorem noticed_of_idle (hNone : s.notices = []) (rid : Nat) : s.Noticed rid ↔ rid ∈ s.desk.swept := by
  refine ⟨?_, Or.inl⟩
  rintro (hSwept | ⟨_, hOne⟩)
  · exact hSwept
  · rw [hNone] at hOne
    cases hOne

theorem Broker.Announces.noticed_iff {first : Nat} {rest : List GrantRecord}
    (h : s.Announces w env first rest) (rid : Nat) :
    s.Noticed rid ↔ rid ∈ first :: s.desk.swept := by
  rw [Broker.Noticed, h.notices, List.mem_cons]
  constructor
  · rintro (hSwept | ⟨_, hOne⟩)
    · exact Or.inr hSwept
    · cases hOne
      exact Or.inl rfl
  · rintro (rfl | hSwept)
    · exact Or.inr ⟨rest, rfl⟩
    · exact Or.inl hSwept

/-- A notice begins for a number that has none, and nothing else makes one noticed. -/
theorem Broker.Sound.noticed_step (h : s.Sound w env) (hAct : s.Undisturbed act) (rid : Nat) :
    ((s.step w env act).Noticed rid ↔ s.Noticed rid ∨ Posts w env s rid act) ∧
      (Posts w env s rid act → ¬ s.Noticed rid) := by
  rcases h.cases hAct with ⟨hMinds, hNotices, _, hSilent⟩ | ⟨pending, hNotices, hPosts, hSweep⟩
  · have hSame : (s.step w env act).Noticed rid ↔ s.Noticed rid := by
      rw [Broker.Noticed, Broker.Noticed, hMinds.swept, hNotices]
    exact ⟨hSame.trans (or_iff_left (hSilent rid)).symm, fun hPost => absurd hPost (hSilent rid)⟩
  · have hBefore : s.Noticed rid ↔ rid ∈ (s.step w env act).desk.swept := by
      rcases hSweep with ⟨_, hNone, _, hDesk⟩ | ⟨_, first, hAnnounces, hDesk⟩
      · rw [noticed_of_idle hNone, hDesk]
      · rw [hAnnounces.noticed_iff, hDesk]
    refine ⟨by rw [hBefore, hPosts, Broker.Noticed], fun hPost hOld => ?_⟩
    obtain ⟨_, hOne⟩ := (hPosts rid).mp hPost
    rcases announcement_cases (s.step w env act).desk.swept pending with
      ⟨hNone, _⟩ | ⟨_, record, _, _, hDue, _, hSome⟩
    · rw [hNotices, hNone] at hOne
      cases hOne
    · rw [hNotices, hSome] at hOne
      cases hOne
      exact (of_decide_eq_true hDue).2 (hBefore.mp hOld)

theorem Broker.Sound.due_step (h : s.Sound w env) (hAct : s.Undisturbed act) (rid : Nat) :
    (s.step w env act).Due rid ↔ s.Due rid ∨ (act = .sweep ∧ FindsExpired w env s rid) := by
  rcases h.cases hAct with ⟨hMinds, hNotices, hOther, _⟩ | ⟨pending, hNotices, _, hSweep⟩
  · rw [Broker.Due, Broker.Due, Broker.Noticed, Broker.Noticed, hMinds.swept, hNotices]
    exact (or_iff_left fun hSwept => hOther hSwept.1).symm
  · rw [due_announcement hNotices]
    rcases hSweep with ⟨hAct, hNone, rfl, hDesk⟩ | ⟨hOther, first, hAnnounces, hDesk⟩
    · rw [hDesk, and_iff_right hAct, findsExpired_iff, Broker.Due, noticed_of_idle hNone, hNone]
      exact or_congr_left (or_iff_left nofun).symm
    · have hNone : ¬ (act = .sweep ∧ FindsExpired w env s rid) := fun hBegun => hOther hBegun.1
      rw [or_iff_left hNone, hDesk, Broker.Due, hAnnounces.noticed_iff, hAnnounces.notices]
      refine or_congr_right ⟨fun hRest => ⟨first, pending, rfl, hRest⟩, ?_⟩
      rintro ⟨_, _, hOne, hRest⟩
      cases hOne
      exact hRest

theorem Broker.Noticed.due {rid : Nat} (h : s.Noticed rid) : s.Due rid := Or.inl h

theorem Broker.Due.noticed {rid : Nat} (h : s.Due rid) (hNone : s.notices = []) : s.Noticed rid := by
  rcases h with hNoticed | ⟨_, _, hOne, _⟩
  · exact hNoticed
  · rw [hNone] at hOne
    cases hOne

/-! ## What an announcement says -/

theorem Broker.Sound.lapsed (h : s.Sound w env) {rid : Nat} (hNoticed : s.Noticed rid) :
    s.Lapsed w env rid := by
  rcases hNoticed with hSwept | ⟨rest, hOne⟩
  · exact h.swept rid hSwept
  · rcases h.sweep with hNone | ⟨_, _, hAnnounces⟩
    · rw [hNone] at hOne
      cases hOne
    · rw [hAnnounces.notices] at hOne
      cases hOne
      exact hAnnounces.lapsed

theorem Broker.Lapsed.findsExpired {rid : Nat} (h : s.Lapsed w env rid) :
    FindsExpired w env s rid := by
  obtain ⟨row, hRow, hOut⟩ := h
  exact ⟨row, hRow, hOut s.desk.asked (le_refl _)⟩

theorem Broker.Lapsed.final {rid : Nat} (h : s.Lapsed w env rid) : Final w env s rid := by
  obtain ⟨row, hRow, hOut⟩ := h
  exact fun k hk => timedOut_final hRow (hOut k hk)

/-! ## Runs -/

section Runs

variable {acts : List Act}

/-- The states of a run of one process. -/
theorem Broker.Sound.run (hClock : Monotone env.clock) (h : s.Sound w env)
    (hActs : Machine.EveryStep (Broker.step w env) Broker.Undisturbed s acts) :
    Machine.EveryState (Broker.step w env) (Broker.Sound w env) s acts :=
  Machine.everyState_of_everyStep (fun _ _ => Broker.Sound.step hClock) h hActs

theorem noticed_run_iff (hClock : Monotone env.clock) (h : s.Sound w env)
    (hActs : Machine.EveryStep (Broker.step w env) Broker.Undisturbed s acts) (rid : Nat) :
    (Machine.run (Broker.step w env) s acts).Noticed rid ↔ s.Noticed rid ∨
      ∃ pre act post, acts = pre ++ act :: post ∧
        Posts w env (Machine.run (Broker.step w env) s pre) rid act := by
  refine Machine.run_iff_exists_step (P := fun s : Broker => s.Noticed rid)
    (Q := fun s act => Posts w env s rid act) fun pre act post hSplit => ?_
  exact ((h.run hClock hActs pre (act :: post) hSplit).noticed_step
    (hActs pre act post hSplit) rid).1

theorem due_run_iff (hClock : Monotone env.clock) (h : s.Sound w env)
    (hActs : Machine.EveryStep (Broker.step w env) Broker.Undisturbed s acts) (rid : Nat) :
    (Machine.run (Broker.step w env) s acts).Due rid ↔ s.Due rid ∨
      ∃ pre act post, acts = pre ++ act :: post ∧
        act = .sweep ∧ FindsExpired w env (Machine.run (Broker.step w env) s pre) rid := by
  refine Machine.run_iff_exists_step (P := fun s : Broker => s.Due rid)
    (Q := fun s act => act = Act.sweep ∧ FindsExpired w env s rid) fun pre act post hSplit => ?_
  exact (h.run hClock hActs pre (act :: post) hSplit).due_step (hActs pre act post hSplit) rid

/-- A run that begins with nothing announced and nothing due. -/
theorem noticesTrue_of_idle (hClock : Monotone env.clock) (hRunning : s.writer.isSome = true)
    (hSwept : s.desk.swept = []) (hNone : s.notices = [])
    (hActs : Machine.EveryStep (Broker.step w env) Broker.Undisturbed s acts) :
    NoticesTrue w env s acts := by
  have hSound : s.Sound w env := ⟨hRunning, by rw [hSwept]; exact nofun, Or.inl hNone⟩
  have hStates := hSound.run hClock hActs
  have hSplit {pre post : List Act} (hPost : acts = pre ++ post) :
      Machine.EveryStep (Broker.step w env) Broker.Undisturbed
        (Machine.run (Broker.step w env) s pre) post := by
    rw [hPost] at hActs
    exact hActs.drop
  -- From the act that begins a notice on, its number is noticed.
  have hPosted {before between after : List Act} {act : Act} {rid : Nat}
      (hRun : acts = before ++ act :: (between ++ after))
      (hPost : Posts w env (Machine.run (Broker.step w env) s before) rid act) :
      (Machine.run (Broker.step w env) s (before ++ act :: between)).Noticed rid := by
    rw [Machine.run_append]
    refine (noticed_run_iff hClock (hStates _ _ hRun) ?_ rid).mpr
      (Or.inr ⟨[], act, between, rfl, hPost⟩)
    intro pre other post hActs'
    refine hSplit hRun pre other (post ++ after) ?_
    rw [← List.cons_append, hActs']
    simp
  refine ⟨?_, ?_, ?_, ?_⟩
  · intro before act between later after rid hRun hPost hAgain
    have hRun' : acts = (before ++ act :: between) ++ later :: after := by rw [hRun]; simp
    exact ((hStates _ _ hRun').noticed_step (hActs _ _ _ hRun') rid).2 hAgain (hPosted hRun hPost)
  · intro before mid after rid hRun hSweeps hOver hFound hFirst
    have hRun' : acts = (before ++ .sweep :: mid) ++ after := by rw [hRun]; simp
    have hMid : Machine.EveryStep (Broker.step w env) Broker.Undisturbed
        (Machine.run (Broker.step w env) s before) (.sweep :: mid) := by
      intro pre other post hActs'
      refine hSplit hRun pre other (post ++ after) ?_
      rw [← List.cons_append, hActs']
      simp
    have hBefore : Machine.EveryStep (Broker.step w env) Broker.Undisturbed s before := by
      intro pre other post hActs'
      exact hActs pre other (post ++ .sweep :: (mid ++ after)) (by rw [hRun, hActs']; simp)
    have hNotDue : ¬ (Machine.run (Broker.step w env) s before).Due rid := by
      rw [due_run_iff hClock hSound hBefore rid]
      rintro ((hNoticed | ⟨_, _, hOne, _⟩) | ⟨pre, _, post, hActs', rfl, hEarlier⟩)
      · rw [noticed_of_idle hNone, hSwept] at hNoticed
        cases hNoticed
      · rw [hNone] at hOne
        cases hOne
      · exact hFirst pre post hActs' hEarlier
    have hDue := (due_run_iff hClock (hStates _ _ hRun) hMid rid).mpr
      (Or.inr ⟨[], .sweep, mid, rfl, rfl, hFound⟩)
    rw [← Machine.run_append] at hDue
    have hNoticed := hDue.noticed hOver
    rw [Machine.run_append, noticed_run_iff hClock (hStates _ _ hRun) hMid rid] at hNoticed
    rcases hNoticed with hOld | ⟨pre, act, post, hActs', hPost⟩
    · exact absurd hOld.due hNotDue
    · exact ⟨pre, act, post, hActs', by rw [Machine.run_append]; exact hPost⟩
  · intro before act after rid hRun hPost
    have hLapsed := (hStates (before ++ [act]) after (by rw [hRun]; simp)).lapsed
      (@hPosted before [] after act rid hRun hPost)
    refine ⟨hLapsed.findsExpired, fun pre post row hActs' hRow => ?_⟩
    obtain ⟨later, hLater, hOut⟩ := hLapsed
    by_contra hState
    obtain ⟨row', hRow', hState'⟩ := run_settled w env
      (Machine.run (Broker.step w env) s pre) post rid row hRow hState
    rw [← Machine.run_append, ← hActs', hLater] at hRow'
    cases hRow'
    exact hState' (hOut _ (le_refl _)).1
  · intro before act between after rid hRun hPost
    exact ((hStates _ after (by rw [hRun]; simp)).lapsed (hPosted hRun hPost)).final

end Runs

theorem restarted_idle (hRunning : (s.restart w).writer.isSome = true) :
    (s.restart w).desk.swept = [] ∧ (s.restart w).notices = [] := by
  unfold Broker.restart at hRunning ⊢
  split at hRunning
  · cases hRunning
  · exact ⟨rfl, rfl⟩

/-- Expiry notices are true, and each is posted once in the life of a process. -/
theorem notices_true (w : Wiring) (env : Nextcloud.Environment) (hClock : Monotone env.clock)
    (earlier acts : List Act)
    (hRunning : (reached w env (earlier ++ [.restart])).writer.isSome = true)
    (hActs : Machine.EveryStep (Broker.step w env) Broker.Undisturbed
      (reached w env (earlier ++ [.restart])) acts) :
    NoticesTrue w env (reached w env (earlier ++ [.restart])) acts := by
  have hRestarted : reached w env (earlier ++ [.restart]) = (reached w env earlier).restart w := by
    rw [reached, Machine.run_append, Machine.run_cons, Machine.run_nil, Broker.step]
    split <;> rfl
  rw [hRestarted] at hRunning hActs ⊢
  obtain ⟨hSwept, hNone⟩ := restarted_idle hRunning
  exact noticesTrue_of_idle hClock hRunning hSwept hNone hActs

instance (s : Broker) : (act : Act) → Decidable (s.Undisturbed act)
  | .wait | .call _ _ | .event _ => .isTrue ⟨nofun, nofun, nofun⟩
  | .resume _ (.ok eventId) =>
    .isTrue ⟨nofun, fun _ _ h => ⟨eventId, (Act.resume.inj h).2 ▸ rfl⟩, nofun⟩
  | .resume _ (.error _) => .isFalse fun h => by
    obtain ⟨_, hSent⟩ := h.2.1 _ _ rfl
    cases hSent
  | .sweep => decidable_of_iff (s.notices = [])
    ⟨fun h => ⟨nofun, nofun, fun _ => h⟩, fun h => h.2.2 rfl⟩
  | .restart => .isFalse fun h => h.1 rfl

def hourlyEnvironment : Nextcloud.Environment :=
  { smallEnvironment with clock := fun n => n * (3600 * second) }

def unansweredRequest : List Act := postedRequest.tail ++ List.replicate 12 .wait

theorem notices_true_unanswered :
    let s := reached smallWiring hourlyEnvironment ([] ++ [.restart])
    let acts := unansweredRequest ++ [.sweep, .resume 0 (.ok "$e".toList), .sweep]
    NoticesTrue smallWiring hourlyEnvironment s acts ∧
      Posts smallWiring hourlyEnvironment
        (Machine.run (Broker.step smallWiring hourlyEnvironment) s unansweredRequest) 1 .sweep :=
  ⟨notices_true smallWiring hourlyEnvironment
      (fun _ _ h => Int.mul_le_mul_of_nonneg_right (Int.ofNat_le.mpr h) (by decide)) [] _
      (by decide +kernel) (by decide +kernel),
    [], by decide +kernel⟩

end AccessBroker.System
