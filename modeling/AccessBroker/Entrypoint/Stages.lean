import AccessBroker.Entrypoint.Lifespan

/-! # The stages of the lifespan

The dispatcher goes over the drivers in order, first to start them and then to stop them. So the
drivers before the one it is at, that one and the ones after it are in three known states, and
what the surfaces do meanwhile leaves them in these states.
-/

namespace AccessBroker.Entrypoint
open Py
set_option autoImplicit false

/-! ## One driver -/

/-- A driver that was started once: what its surface was given, and the replies that the
dispatcher has taken. -/
structure Driver.Holds (given : List Text) (taken : List Message) (driver : Driver) : Prop where
  task : driver.tasks.length = 1
  given : driver.received ++ driver.incoming = given
  taken : driver.replied = taken ++ driver.outgoing

def Driver.first (driver : Driver) : Option Message := driver.replied.head?

def Driver.given (driver : Driver) : List Text := driver.received ++ driver.incoming

/-- The surface confirmed its start and was given nothing else. -/
def Driver.Confirmed (driver : Driver) : Prop :=
  driver.given = [startupType] ∧ ∃ reply, driver.first = some reply ∧
    reply.type = some startupCompleteType

/-- What a surface does between two steps of the dispatcher. -/
structure Driver.Moves (driver driver' : Driver) : Prop where
  idle : driver.tasks = [] → driver' = driver
  tasks : driver'.tasks.length = driver.tasks.length
  ended : ∀ (task : Nat) (outcome : Task), driver.tasks[task]? = some outcome → outcome ≠ .running →
    driver'.tasks[task]? = some outcome
  given : driver'.received ++ driver'.incoming = driver.received ++ driver.incoming
  replied : ∃ more, driver'.outgoing = driver.outgoing ++ more ∧
    driver'.replied = driver.replied ++ more

theorem Driver.Moves.refl (driver : Driver) : driver.Moves driver :=
  ⟨fun _ => rfl, rfl, fun _ _ h _ => h, rfl, [], by simp, by simp⟩

theorem Driver.Moves.holds {driver driver' : Driver} {given : List Text} {taken : List Message}
    (h : driver.Moves driver') (hHolds : driver.Holds given taken) : driver'.Holds given taken := by
  obtain ⟨more, hOutgoing, hReplied⟩ := h.replied
  refine ⟨h.tasks.trans hHolds.task, h.given.trans hHolds.given, ?_⟩
  rw [hReplied, hOutgoing, hHolds.taken, List.append_assoc]

theorem Driver.Holds.pop {driver : Driver} {given : List Text} {taken : List Message}
    {reply : Message} (h : driver.Holds given taken) (hReply : driver.outgoing.head? = some reply) :
    Driver.Holds given (taken ++ [reply]) { driver with outgoing := driver.outgoing.tail } := by
  refine ⟨h.task, h.given, ?_⟩
  obtain ⟨rest, hRest⟩ := List.head?_eq_some_iff.mp hReply
  simp [h.taken, hRest]

theorem Driver.Holds.shutdown {driver : Driver} {given : List Text} {taken : List Message}
    (h : driver.Holds given taken) : driver.shutdown.Holds (given ++ [shutdownType]) taken := by
  refine ⟨h.task, ?_, h.taken⟩
  rw [Driver.shutdown, ← List.append_assoc, h.given]

/-- What a task does leaves the ended tasks alone. -/
theorem Driver.moves_of_running {driver driver' : Driver} {task : Nat}
    (hRunning : driver.tasks[task]? = some .running)
    (hTasks : driver'.tasks.length = driver.tasks.length)
    (hOthers : ∀ other, other ≠ task → driver'.tasks[other]? = driver.tasks[other]?)
    (hGiven : driver'.received ++ driver'.incoming = driver.received ++ driver.incoming)
    (hReplied : ∃ more, driver'.outgoing = driver.outgoing ++ more ∧
      driver'.replied = driver.replied ++ more) : driver.Moves driver' := by
  refine ⟨fun hNone => ?_, hTasks, fun other outcome hOutcome hEnded => ?_, hGiven, hReplied⟩
  · rw [hNone] at hRunning
    cases hRunning
  · rw [hOthers other fun hSame => ?_, hOutcome]
    rw [hSame, hRunning] at hOutcome
    cases hOutcome
    exact hEnded rfl

theorem Driver.new_startup : Driver.new.startup.Holds [startupType] [] := ⟨rfl, rfl, rfl⟩

/-! ## All drivers -/

namespace Lifespan

def Each (s : Lifespan) (P : Nat → Driver → Prop) : Prop :=
  ∀ index driver, s.drivers[index]? = some driver → P index driver

/-- Before an index, there, and after it. -/
def around (here : Nat) (before now after : Driver → Prop) (index : Nat) (driver : Driver) : Prop :=
  (index < here → before driver) ∧ (index = here → now driver) ∧ (here < index → after driver)

theorem Each.mono {s : Lifespan} {P Q : Nat → Driver → Prop} (h : s.Each P)
    (hPQ : ∀ index driver, P index driver → Q index driver) : s.Each Q :=
  fun index driver hDriver => hPQ index driver (h index driver hDriver)

theorem Each.modify {s : Lifespan} {P Q : Nat → Driver → Prop} {here : Nat} {f : Driver → Driver}
    {phase : Phase} {sent : List Sent} (h : s.Each P)
    (hHere : ∀ driver, s.drivers[here]? = some driver → P here driver → Q here (f driver))
    (hOthers : ∀ index driver, index ≠ here → P index driver → Q index driver) :
    Each ⟨s.drivers.modify here f, phase, sent⟩ Q := by
  intro index driver hDriver
  rw [List.getElem?_modify] at hDriver
  obtain ⟨old, hOld, rfl⟩ := Option.map_eq_some_iff.mp hDriver
  have hP := h index old hOld
  split
  · rename_i hSame
    subst hSame
    exact hHere old hOld hP
  · rename_i hOther
    exact hOthers index old (Ne.symm hOther) hP

/-- The tasks of the surfaces move the drivers and nothing else. -/
theorem onTask_each {s : Lifespan} {P : Nat → Driver → Prop} {here task : Nat} {f : Driver → Driver}
    (hf : ∀ driver : Driver, driver.tasks[task]? = some .running → driver.Moves (f driver))
    (hP : ∀ index driver driver', P index driver → driver.Moves driver' → P index driver')
    (h : s.Each P) : (s.onTask here task f).Each P := by
  refine h.modify (fun driver _ hDriver => hP here driver _ hDriver ?_) fun _ _ _ => id
  split
  · rename_i hRunning
    exact hf driver hRunning
  · exact .refl driver

/-- Started, and the reply to that was `startup.complete`. -/
def Up (given : List Text) (more : Nat) (driver : Driver) : Prop :=
  ∃ reply taken, reply.type = some startupCompleteType ∧ taken.length = more ∧
    driver.Holds given (reply :: taken)

def Down (driver : Driver) : Prop :=
  Up [startupType, shutdownType] 1 driver ∧ driver.tasks = [.returned]

/-- The whole protocol: where the dispatcher is, what it told the server, and what each driver
has been through. -/
inductive Stage (s : Lifespan) : Prop where
  | fresh (phase : s.phase = .receiving) (sent : s.sent = []) (each : s.Each fun _ => (· = .new))
  | starting {here : Nat} (phase : s.phase = .starting here) (sent : s.sent = [])
      (inside : here < s.drivers.length)
      (each : s.Each (around here (Up [startupType] 0) (Driver.Holds [startupType] []) (· = .new)))
  | up (phase : s.phase = .receiving) (sent : s.sent = [.startupComplete])
      (each : s.Each fun _ => Up [startupType] 0)
  | failed {here : Nat} {reply : Message} (phase : s.phase = .returned)
      (sent : s.sent = [.startupFailed reply.failure]) (inside : here < s.drivers.length)
      (refused : reply.type ≠ some startupCompleteType)
      (each : s.Each (around here (Up [startupType] 0) (Driver.Holds [startupType] [reply])
        (· = .new)))
  | stopping {here : Nat} (phase : s.phase = .stopping here) (sent : s.sent = [.startupComplete])
      (inside : here < s.drivers.length)
      (each : s.Each (around here Down (Up [startupType, shutdownType] 0) (Up [startupType] 0)))
  | joining {here : Nat} (phase : s.phase = .joining here) (sent : s.sent = [.startupComplete])
      (inside : here < s.drivers.length)
      (each : s.Each (around here Down (Up [startupType, shutdownType] 1) (Up [startupType] 0)))
  | raised {here : Nat} {exc : Text} (phase : s.phase = .raised exc)
      (sent : s.sent = [.startupComplete]) (inside : here < s.drivers.length)
      (each : s.Each (around here Down (fun driver => Up [startupType, shutdownType] 1 driver ∧
        driver.tasks = [.raised exc]) (Up [startupType] 0)))
  | down (phase : s.phase = .returned) (sent : s.sent = [.startupComplete, .shutdownComplete])
      (each : s.Each fun _ => Down)
  | unused (phase : s.phase = .returned) (sent : s.sent = [.shutdownComplete])
      (each : s.Each fun _ => (· = .new))

theorem Up.moves {given : List Text} {more : Nat} {driver driver' : Driver}
    (h : Up given more driver) (hMoves : driver.Moves driver') : Up given more driver' := by
  obtain ⟨reply, taken, hType, hLength, hHolds⟩ := h
  exact ⟨reply, taken, hType, hLength, hMoves.holds hHolds⟩

theorem tasks_moves {driver driver' : Driver} {outcome : Task} (h : driver.tasks = [outcome])
    (hEnded : outcome ≠ .running) (hMoves : driver.Moves driver') : driver'.tasks = [outcome] := by
  have hFirst : driver'.tasks[0]? = some outcome := hMoves.ended 0 outcome (by rw [h]; rfl) hEnded
  have hLength : driver'.tasks.length = 1 := by rw [hMoves.tasks, h]; rfl
  obtain ⟨other, hOther⟩ := List.length_eq_one_iff.mp hLength
  rw [hOther] at hFirst ⊢
  cases hFirst
  rfl

theorem Down.moves {driver driver' : Driver} (h : Down driver) (hMoves : driver.Moves driver') :
    Down driver' := ⟨h.1.moves hMoves, tasks_moves h.2 (by decide) hMoves⟩

theorem new_moves {driver driver' : Driver} (h : driver = .new) (hMoves : driver.Moves driver') :
    driver' = .new := by
  subst h
  exact hMoves.idle rfl

theorem around_moves {here index : Nat} {before now after : Driver → Prop} {driver driver' : Driver}
    (hBefore : before driver → before driver') (hNow : now driver → now driver')
    (hAfter : after driver → after driver') (h : around here before now after index driver) :
    around here before now after index driver' :=
  ⟨hBefore ∘ h.1, hNow ∘ h.2.1, hAfter ∘ h.2.2⟩

/-- The tasks of the surfaces leave every stage as it is. -/
theorem Stage.onTask {s : Lifespan} (h : s.Stage) {here task : Nat} {f : Driver → Driver}
    (hf : ∀ driver : Driver, driver.tasks[task]? = some .running → driver.Moves (f driver)) :
    (s.onTask here task f).Stage := by
  have hLength : (s.onTask here task f).drivers.length = s.drivers.length := List.length_modify ..
  cases h with
  | fresh phase sent each =>
    exact .fresh phase sent (onTask_each hf (fun _ _ _ => new_moves) each)
  | starting phase sent inside each =>
    refine .starting phase sent (hLength ▸ inside) (onTask_each hf (fun _ _ _ h hMoves => ?_) each)
    exact around_moves (·.moves hMoves) hMoves.holds (new_moves · hMoves) h
  | up phase sent each =>
    exact .up phase sent (onTask_each hf (fun _ _ _ => Up.moves) each)
  | failed phase sent inside refused each =>
    refine .failed phase sent (hLength ▸ inside) refused
      (onTask_each hf (fun _ _ _ h hMoves => ?_) each)
    exact around_moves (·.moves hMoves) hMoves.holds (new_moves · hMoves) h
  | stopping phase sent inside each =>
    refine .stopping phase sent (hLength ▸ inside) (onTask_each hf (fun _ _ _ h hMoves => ?_) each)
    exact around_moves (·.moves hMoves) (·.moves hMoves) (·.moves hMoves) h
  | joining phase sent inside each =>
    refine .joining phase sent (hLength ▸ inside) (onTask_each hf (fun _ _ _ h hMoves => ?_) each)
    exact around_moves (·.moves hMoves) (·.moves hMoves) (·.moves hMoves) h
  | raised phase sent inside each =>
    refine .raised phase sent (hLength ▸ inside) (onTask_each hf (fun _ _ _ h hMoves => ?_) each)
    exact around_moves (·.moves hMoves)
      (fun hNow => ⟨hNow.1.moves hMoves, tasks_moves hNow.2 (by simp) hMoves⟩) (·.moves hMoves) h
  | down phase sent each =>
    exact .down phase sent (onTask_each hf (fun _ _ _ => Down.moves) each)
  | unused phase sent each =>
    exact .unused phase sent (onTask_each hf (fun _ _ _ => new_moves) each)

/-! ## The dispatcher -/

theorem index_lt {s : Lifespan} {index : Nat} {driver : Driver}
    (h : s.drivers[index]? = some driver) : index < s.drivers.length :=
  (List.getElem?_eq_some_iff.mp h).1

theorem stage_startFrom {s : Lifespan} {here : Nat} (hSent : s.sent = [])
    (hEach : s.Each fun index driver => (index < here → Up [startupType] 0 driver) ∧
      (here ≤ index → driver = .new)) : (s.startFrom here).Stage := by
  rw [startFrom]
  split
  · rename_i hInside
    refine .starting rfl hSent (by rwa [List.length_modify]) (hEach.modify ?_ ?_)
    · rintro driver _ ⟨_, hNew⟩
      refine ⟨fun h => absurd h (Nat.lt_irrefl here), fun _ => ?_,
        fun h => absurd h (Nat.lt_irrefl here)⟩
      rw [hNew (le_refl here)]
      exact Driver.new_startup
    · rintro index driver hOther ⟨hUp, hNew⟩
      exact ⟨hUp, fun h => absurd h hOther, fun h => hNew h.le⟩
  · rename_i hOutside
    refine .up rfl (by rw [hSent]; rfl) fun index driver hDriver => ?_
    have hIndex : index < s.drivers.length := index_lt hDriver
    exact (hEach index driver hDriver).1 (by omega)

theorem stage_stopFrom {s : Lifespan} {here : Nat} (hSent : s.sent = [.startupComplete])
    (hEach : s.Each fun index driver => (index < here → Down driver) ∧
      (here ≤ index → Up [startupType] 0 driver)) : (s.stopFrom here).Stage := by
  by_cases hInside : here < s.drivers.length
  · have hStop : s.stopFrom here =
        ⟨s.drivers.modify here Driver.shutdown, .stopping here, s.sent⟩ := by
      obtain ⟨reply, taken, _, _, hHolds⟩ :=
        (hEach here s.drivers[here] (List.getElem?_eq_getElem hInside)).2 (le_refl here)
      have hTasks : (!s.drivers[here].tasks.isEmpty) = true := by
        rw [Bool.not_eq_true', List.isEmpty_eq_false_iff]
        intro hNone
        have hTask := hHolds.task
        rw [hNone] at hTask
        cases hTask
      rw [stopFrom, List.drop_eq_getElem_cons hInside, List.findIdx?_cons, if_pos hTasks]
      rfl
    rw [hStop]
    refine .stopping rfl hSent (by rwa [List.length_modify]) (hEach.modify ?_ ?_)
    · rintro driver _ ⟨_, hUp⟩
      obtain ⟨reply, taken, hType, hLength, hHolds⟩ := hUp (le_refl here)
      exact ⟨fun h => absurd h (Nat.lt_irrefl here),
        fun _ => ⟨reply, taken, hType, hLength, hHolds.shutdown⟩,
        fun h => absurd h (Nat.lt_irrefl here)⟩
    · rintro index driver hOther ⟨hDown, hUp⟩
      exact ⟨hDown, fun h => absurd h hOther, fun h => hUp h.le⟩
  · have hStop : s.stopFrom here = ⟨s.drivers, .returned, s.sent ++ [.shutdownComplete]⟩ := by
      rw [stopFrom, List.drop_eq_nil_of_le (by omega)]
      rfl
    rw [hStop]
    refine .down rfl (by rw [hSent]; rfl) fun index driver hDriver => ?_
    have hIndex : index < s.drivers.length := index_lt hDriver
    exact (hEach index driver hDriver).1 (by omega)

theorem stopFrom_new {s : Lifespan} (hEach : s.Each fun _ => (· = .new)) :
    s.stopFrom 0 = ⟨s.drivers, .returned, s.sent ++ [.shutdownComplete]⟩ := by
  have hNone : (s.drivers.drop 0).findIdx? (fun driver => !driver.tasks.isEmpty) = none := by
    refine List.findIdx?_eq_none_iff.mpr fun driver hDriver => ?_
    obtain ⟨index, hIndex⟩ := List.mem_iff_getElem?.mp hDriver
    rw [hEach index driver hIndex]
    rfl
  rw [stopFrom, hNone]

/-- The reply that the dispatcher takes. -/
theorem Each.pop {s : Lifespan} {before now now' after : Driver → Prop} {here : Nat} {phase : Phase}
    {sent : List Sent} (h : s.Each (around here before now after)) {reply : Message}
    (hReply : ((s.drivers[here]?).bind fun driver => driver.outgoing.head?) = some reply)
    (hNow : ∀ driver : Driver, now driver → driver.outgoing.head? = some reply →
      now' { driver with outgoing := driver.outgoing.tail }) :
    Each ⟨(s.pop here).drivers, phase, sent⟩ (around here before now' after) := by
  refine h.modify (fun driver hDriver hAround => ?_) fun index driver hOther hAround => ?_
  · rw [hDriver, Option.bind_some] at hReply
    exact ⟨fun h => absurd h (Nat.lt_irrefl here), fun _ => hNow driver (hAround.2.1 rfl) hReply,
      fun h => absurd h (Nat.lt_irrefl here)⟩
  · exact ⟨hAround.1, fun h => absurd h hOther, hAround.2.2⟩

theorem Each.next {s : Lifespan} {before now after : Driver → Prop} {here : Nat}
    (h : s.Each (around here before now after)) (hNow : ∀ driver, now driver → before driver) :
    s.Each fun index driver => (index < here + 1 → before driver) ∧ (here + 1 ≤ index → after driver) := by
  refine h.mono fun index driver hAround => ⟨fun hIndex => ?_, fun hIndex => hAround.2.2 hIndex⟩
  rcases Nat.lt_or_eq_of_le (Nat.le_of_lt_succ hIndex) with hLess | hEq
  · exact hAround.1 hLess
  · exact hNow driver (hAround.2.1 hEq)

theorem Stage.go {s : Lifespan} (h : s.Stage) : s.go.Stage := by
  have hSame {phase : Phase} (hPhase : s.phase = phase)
      (hIdle : phase = .receiving ∨ phase = .returned ∨ ∃ exc, phase = .raised exc) :
      s.go.Stage := by
    have hGo : s.go = s := by
      rw [Lifespan.go, hPhase]
      rcases hIdle with rfl | rfl | ⟨exc, rfl⟩ <;> rfl
    rwa [hGo]
  cases h with
  | fresh phase _ _ => exact hSame phase (.inl rfl)
  | up phase _ _ => exact hSame phase (.inl rfl)
  | failed phase _ _ _ _ => exact hSame phase (.inr (.inl rfl))
  | raised phase _ _ _ => exact hSame phase (.inr (.inr ⟨_, rfl⟩))
  | down phase _ _ => exact hSame phase (.inr (.inl rfl))
  | unused phase _ _ => exact hSame phase (.inr (.inl rfl))
  | @starting here phase sent inside each =>
    rw [Lifespan.go, phase]
    dsimp only
    split
    · exact .starting phase sent inside each
    rename_i reply hReply
    split
    · rename_i hType
      have hPopped : (s.pop here).Each
          (around here (Up [startupType] 0) (Up [startupType] 0) (· = .new)) :=
        each.pop hReply fun driver hHolds hHead => ⟨reply, [], hType, rfl, hHolds.pop hHead⟩
      exact stage_startFrom sent (hPopped.next fun _ => id)
    · rename_i hType
      have hInside : here < (s.pop here).drivers.length := by
        rwa [Lifespan.pop, List.length_modify]
      refine .failed rfl (by rw [Lifespan.pop, sent]; rfl) hInside hType ?_
      exact each.pop hReply fun driver hHolds hHead => hHolds.pop hHead
  | @stopping here phase sent inside each =>
    rw [Lifespan.go, phase]
    dsimp only
    split
    · exact .stopping phase sent inside each
    rename_i reply hReply
    have hInside : here < (s.pop here).drivers.length := by
      rwa [Lifespan.pop, List.length_modify]
    refine .joining rfl sent hInside (each.pop hReply ?_)
    rintro driver ⟨first, taken, hType, hLength, hHolds⟩ hHead
    exact ⟨first, taken ++ [reply], hType, by simp [hLength], hHolds.pop hHead⟩
  | @joining here phase sent inside each =>
    rw [Lifespan.go, phase]
    dsimp only
    have hLast : ∀ driver, s.drivers[here]? = some driver → ∀ outcome,
        driver.tasks.getLast? = some outcome → driver.tasks = [outcome] := by
      intro driver hDriver outcome hOutcome
      obtain ⟨_, _, _, _, hHolds⟩ := (each here driver hDriver).2.1 rfl
      obtain ⟨only, hOnly⟩ := List.length_eq_one_iff.mp hHolds.task
      rw [hOnly] at hOutcome ⊢
      cases hOutcome
      rfl
    have hEnded (outcome : Task)
        (hTask : ((s.drivers[here]?).bind fun driver => driver.tasks.getLast?) = some outcome) :
        s.Each (around here Down (fun driver => Up [startupType, shutdownType] 1 driver ∧
          driver.tasks = [outcome]) (Up [startupType] 0)) := by
      intro index driver hDriver
      have hAround := each index driver hDriver
      refine ⟨hAround.1, fun hIndex => ⟨hAround.2.1 hIndex, ?_⟩, hAround.2.2⟩
      subst hIndex
      rw [hDriver, Option.bind_some] at hTask
      exact hLast driver hDriver outcome hTask
    split
    · rename_i hTask
      exact stage_stopFrom sent ((hEnded _ hTask).next fun _ => id)
    · rename_i hTask
      exact .raised rfl sent inside (hEnded _ hTask)
    · exact .joining phase sent inside each

/-! ## Whole runs -/

/-- Nothing was started, and the server was told at most that everything is down. -/
structure Unstarted (s : Lifespan) : Prop where
  phase : (s.phase = .receiving ∧ s.sent = []) ∨ (s.phase = .returned ∧ s.sent = [.shutdownComplete])
  each : s.Each fun _ => (· = .new)

theorem Unstarted.stage {s : Lifespan} (h : s.Unstarted) : s.Stage := by
  rcases h.phase with ⟨hPhase, hSent⟩ | ⟨hPhase, hSent⟩
  · exact .fresh hPhase hSent h.each
  · exact .unused hPhase hSent h.each

/-- What a task does moves its driver. -/
theorem step_task {s : Lifespan} {act : LifespanAct} (hReceive : ∀ type, act ≠ .receive type)
    (hGo : act ≠ .go) : ∃ here task f, s.step act = s.onTask here task f ∧
      ∀ driver : Driver, driver.tasks[task]? = some .running → driver.Moves (f driver) := by
  cases act with
  | receive type => exact absurd rfl (hReceive type)
  | go => exact absurd rfl hGo
  | take here task =>
    refine ⟨here, task, _, rfl, fun driver hRunning => ?_⟩
    refine Driver.moves_of_running hRunning rfl (fun _ _ => rfl) ?_ ⟨[], by simp, by simp⟩
    dsimp only
    rw [List.append_assoc, List.take_one, ← List.drop_one]
    cases driver.incoming <;> rfl
  | reply here task message =>
    refine ⟨here, task, _, rfl, fun driver hRunning => ?_⟩
    exact Driver.moves_of_running hRunning rfl (fun _ _ => rfl) rfl ⟨[message], rfl, rfl⟩
  | finish here task outcome =>
    refine ⟨here, task, _, rfl, fun driver hRunning => ?_⟩
    refine Driver.moves_of_running hRunning (List.length_set ..) (fun other hOther => ?_) rfl
      ⟨[], by simp, by simp⟩
    exact List.getElem?_set_ne (Ne.symm hOther)

theorem Stage.step {s : Lifespan} (h : s.Stage) (act : LifespanAct)
    (hFirst : act = .receive startupType → s.Unstarted) : (s.step act).Stage := by
  by_cases hReceive : ∃ type, act = .receive type
  · obtain ⟨type, rfl⟩ := hReceive
    rw [Lifespan.step]
    split
    · exact h
    rename_i hPhase
    rw [Decidable.not_not] at hPhase
    split
    · rename_i hType
      have hUnstarted := hFirst (by rw [hType])
      refine stage_startFrom ?_ (hUnstarted.each.mono fun index driver hNew =>
        ⟨fun hIndex => absurd hIndex (Nat.not_lt_zero index), fun _ => hNew⟩)
      rcases hUnstarted.phase with ⟨_, hSent⟩ | ⟨hReturned, _⟩
      · exact hSent
      · rw [hPhase] at hReturned
        cases hReturned
    split
    · cases h with
      | fresh phase sent each =>
        rw [stopFrom_new each]
        exact .unused rfl (by rw [sent]; rfl) each
      | up phase sent each =>
        exact stage_stopFrom sent (each.mono fun index driver hUp =>
          ⟨fun hIndex => absurd hIndex (Nat.not_lt_zero index), fun _ => hUp⟩)
      | starting phase | failed phase | stopping phase | joining phase | raised phase | down phase
      | unused phase =>
        rw [phase] at hPhase
        cases hPhase
    · exact h
  by_cases hGo : act = .go
  · subst hGo
    exact h.go
  · obtain ⟨here, task, f, hStep, hMoves⟩ :=
      step_task (s := s) (fun type hAct => hReceive ⟨type, hAct⟩) hGo
    rw [hStep]
    exact h.onTask hMoves

theorem Unstarted.step {s : Lifespan} (h : s.Unstarted) {act : LifespanAct}
    (hAct : act ≠ .receive startupType) : (s.step act).Unstarted := by
  by_cases hReceive : ∃ type, act = .receive type
  · obtain ⟨type, rfl⟩ := hReceive
    have hType : type ≠ startupType := fun hType => hAct (by rw [hType])
    rw [Lifespan.step]
    split
    · exact h
    rename_i hPhase
    rw [Decidable.not_not] at hPhase
    split
    · rw [stopFrom_new h.each]
      refine ⟨Or.inr ⟨rfl, ?_⟩, h.each⟩
      rcases h.phase with ⟨_, hSent⟩ | ⟨hReturned, _⟩
      · rw [hSent]
        rfl
      · rw [hPhase] at hReturned
        cases hReturned
    · exact h
  by_cases hGo : act = .go
  · subst hGo
    have hSame : s.step .go = s := by
      rw [Lifespan.step, Lifespan.go]
      rcases h.phase with ⟨hPhase, _⟩ | ⟨hPhase, _⟩ <;> rw [hPhase]
    rwa [hSame]
  · obtain ⟨here, task, f, hStep, hMoves⟩ :=
      step_task (s := s) (fun type hAct => hReceive ⟨type, hAct⟩) hGo
    rw [hStep]
    exact ⟨h.phase, onTask_each hMoves (fun _ _ _ => new_moves) h.each⟩

theorem Stage.run {acts : List LifespanAct} {s : Lifespan} (h : s.Stage)
    (hFirst : ∀ act ∈ acts, act = .receive startupType → s.Unstarted)
    (hOnce : acts.Pairwise fun act later => act = .receive startupType →
      later ≠ .receive startupType) : (Machine.run Lifespan.step s acts).Stage := by
  induction acts generalizing s with
  | nil => exact h
  | cons act acts ih =>
    obtain ⟨hLater, hOnce⟩ := List.pairwise_cons.mp hOnce
    refine ih (h.step act (hFirst act List.mem_cons_self)) (fun later hMem hStartup => ?_) hOnce
    have hAct : act ≠ .receive startupType := fun hAct => hLater later hMem hAct hStartup
    exact (hFirst later (List.mem_cons_of_mem act hMem) hStartup).step hAct

theorem Up.first {given : List Text} {more : Nat} {driver : Driver} (h : Up given more driver) :
    ∃ reply, driver.first = some reply ∧ reply.type = some startupCompleteType := by
  obtain ⟨reply, taken, hType, _, hHolds⟩ := h
  exact ⟨reply, by rw [Driver.first, hHolds.taken]; rfl, hType⟩

theorem Up.given {given : List Text} {more : Nat} {driver : Driver} (h : Up given more driver) :
    driver.given = given := by
  obtain ⟨_, _, _, _, hHolds⟩ := h
  exact hHolds.given

theorem Up.confirmed {more : Nat} {driver : Driver} (h : Up [startupType] more driver) :
    driver.Confirmed := ⟨h.given, h.first⟩

/-- What the server may take from what it was told. -/
structure Agrees (s : Lifespan) : Prop where
  sent : s.sent ∈ [[], [.startupComplete], [.startupComplete, .shutdownComplete],
    [.shutdownComplete]] ∨ ∃ message, s.sent = [.startupFailed message]
  given : ∀ driver ∈ s.drivers, driver.given <+: [startupType, shutdownType] ∧
    (shutdownType ∈ driver.given → .startupComplete ∈ s.sent)
  complete : .startupComplete ∈ s.sent → ∀ driver ∈ s.drivers,
    ∃ reply, driver.first = some reply ∧ reply.type = some startupCompleteType
  failed : ∀ message, .startupFailed message ∈ s.sent → ∃ before driver after reply,
    s.drivers = before ++ driver :: after ∧ (∀ other ∈ before, other.Confirmed) ∧
      driver.first = some reply ∧ reply.type ≠ some startupCompleteType ∧
      message = reply.failure ∧ ∀ other ∈ after, other = .new
  down : .shutdownComplete ∈ s.sent → ∀ driver ∈ s.drivers, driver = .new ∨
    driver.given = [startupType, shutdownType] ∧ driver.tasks = [.returned]

theorem Each.mem {s : Lifespan} {P : Nat → Driver → Prop} (h : s.Each P) {driver : Driver}
    (hDriver : driver ∈ s.drivers) : ∃ index, s.drivers[index]? = some driver ∧ P index driver := by
  obtain ⟨index, hIndex⟩ := List.mem_iff_getElem?.mp hDriver
  exact ⟨index, hIndex, h index driver hIndex⟩

/-- Each driver is on one of the three sides of an index. -/
theorem Each.cases {s : Lifespan} {before now after : Driver → Prop} {here : Nat}
    (h : s.Each (around here before now after)) {driver : Driver} (hDriver : driver ∈ s.drivers) :
    before driver ∨ now driver ∨ after driver := by
  obtain ⟨index, _, hBefore, hNow, hAfter⟩ := h.mem hDriver
  rcases Nat.lt_trichotomy index here with hLess | hEq | hMore
  · exact Or.inl (hBefore hLess)
  · exact Or.inr (Or.inl (hNow hEq))
  · exact Or.inr (Or.inr (hAfter hMore))

/-- The two sides of an index, as lists. -/
theorem Each.split {s : Lifespan} {before now after : Driver → Prop} {here : Nat}
    (h : s.Each (around here before now after)) (hInside : here < s.drivers.length) :
    ∃ earlier driver later, s.drivers = earlier ++ driver :: later ∧
      (∀ other ∈ earlier, before other) ∧ now driver ∧ ∀ other ∈ later, after other := by
  refine ⟨s.drivers.take here, s.drivers[here], s.drivers.drop (here + 1), ?_, ?_, ?_, ?_⟩
  · rw [← List.drop_eq_getElem_cons hInside, List.take_append_drop]
  · intro other hOther
    obtain ⟨index, hIndex, hGet⟩ := List.mem_take_iff_getElem.mp hOther
    exact (h index other (by rw [← hGet]; exact List.getElem?_eq_getElem _)).1 (by omega)
  · exact (h here _ (List.getElem?_eq_getElem hInside)).2.1 rfl
  · intro other hOther
    obtain ⟨index, hIndex, hGet⟩ := List.mem_drop_iff_getElem.mp hOther
    exact (h (here + 1 + index) other (by rw [← hGet]; exact List.getElem?_eq_getElem _)).2.2
      (by omega)

/-- The drivers of a start that the server was told is complete. -/
theorem agrees_complete {s : Lifespan} (hSent : s.sent = [.startupComplete])
    (hEach : ∀ driver ∈ s.drivers, ∃ given more, Up given more driver ∧
      given ∈ [[startupType], [startupType, shutdownType]]) : s.Agrees := by
  have hComplete : .startupComplete ∈ s.sent := by simp [hSent]
  refine ⟨.inl (by simp [hSent]), fun driver hDriver => ?_, fun _ driver hDriver => ?_,
    by simp [hSent], by simp [hSent]⟩
  · obtain ⟨given, more, hUp, hGiven⟩ := hEach driver hDriver
    rw [hUp.given]
    refine ⟨?_, fun _ => hComplete⟩
    rcases List.mem_pair.mp hGiven with rfl | rfl
    · exact ⟨[shutdownType], rfl⟩
    · exact List.prefix_rfl
  · obtain ⟨given, more, hUp, _⟩ := hEach driver hDriver
    exact hUp.first

theorem Stage.agrees {s : Lifespan} (h : s.Stage) : s.Agrees := by
  have hNew (driver : Driver) (h : driver = .new) : driver.given <+: [startupType, shutdownType] ∧
      (shutdownType ∈ driver.given → .startupComplete ∈ s.sent) := by
    subst h
    exact ⟨List.nil_prefix, fun hGiven => absurd hGiven List.not_mem_nil⟩
  have hStarted (driver : Driver) (h : driver.given = [startupType]) :
      driver.given <+: [startupType, shutdownType] ∧
        (shutdownType ∈ driver.given → .startupComplete ∈ s.sent) := by
    rw [h]
    exact ⟨⟨[shutdownType], rfl⟩, fun hGiven => absurd hGiven (by decide +kernel)⟩
  cases h with
  | fresh _ sent each =>
    refine ⟨.inl (by simp [sent]), fun driver hDriver => ?_, ?_, ?_, ?_⟩
    · obtain ⟨_, _, h⟩ := each.mem hDriver
      exact hNew driver h
    all_goals simp [sent]
  | starting _ sent _ each =>
    refine ⟨.inl (by simp [sent]), fun driver hDriver => ?_, ?_, ?_, ?_⟩
    · rcases each.cases hDriver with h | h | h
      · exact hStarted driver h.given
      · exact hStarted driver h.given
      · exact hNew driver h
    all_goals simp [sent]
  | up _ sent each =>
    refine agrees_complete sent fun driver hDriver => ?_
    obtain ⟨_, _, h⟩ := each.mem hDriver
    exact ⟨_, _, h, by simp⟩
  | @failed here reply _ sent inside refused each =>
    refine ⟨.inr ⟨_, sent⟩, fun driver hDriver => ?_, by simp [sent], fun message hMessage => ?_,
      by simp [sent]⟩
    · rcases each.cases hDriver with h | h | h
      · exact hStarted driver h.given
      · exact hStarted driver h.given
      · exact hNew driver h
    · rw [sent, List.mem_singleton] at hMessage
      cases hMessage
      obtain ⟨before, driver, after, hDrivers, hBefore, hHolds, hAfter⟩ := each.split inside
      refine ⟨before, driver, after, reply, hDrivers, fun other hOther => ?_, ?_, refused, rfl, hAfter⟩
      · exact (hBefore other hOther).confirmed
      · rw [Driver.first, hHolds.taken]
        rfl
  | stopping _ sent _ each =>
    refine agrees_complete sent fun driver hDriver => ?_
    rcases each.cases hDriver with h | h | h
    · exact ⟨_, _, h.1, by simp⟩
    · exact ⟨_, _, h, by simp⟩
    · exact ⟨_, _, h, by simp⟩
  | joining _ sent _ each =>
    refine agrees_complete sent fun driver hDriver => ?_
    rcases each.cases hDriver with h | h | h
    · exact ⟨_, _, h.1, by simp⟩
    · exact ⟨_, _, h, by simp⟩
    · exact ⟨_, _, h, by simp⟩
  | raised _ sent _ each =>
    refine agrees_complete sent fun driver hDriver => ?_
    rcases each.cases hDriver with h | h | h
    · exact ⟨_, _, h.1, by simp⟩
    · exact ⟨_, _, h.1, by simp⟩
    · exact ⟨_, _, h, by simp⟩
  | down _ sent each =>
    refine ⟨.inl (by simp [sent]), fun driver hDriver => ?_, fun _ driver hDriver => ?_,
      by simp [sent], fun _ driver hDriver => ?_⟩
    · obtain ⟨_, _, h⟩ := each.mem hDriver
      rw [h.1.given]
      exact ⟨List.prefix_rfl, fun _ => by simp [sent]⟩
    · obtain ⟨_, _, h⟩ := each.mem hDriver
      exact h.1.first
    · obtain ⟨_, _, h⟩ := each.mem hDriver
      exact Or.inr ⟨h.1.given, h.2⟩
  | unused _ sent each =>
    refine ⟨.inl (by simp [sent]), fun driver hDriver => ?_, by simp [sent], by simp [sent],
      fun _ driver hDriver => ?_⟩
    · obtain ⟨_, _, h⟩ := each.mem hDriver
      exact hNew driver h
    · obtain ⟨_, _, h⟩ := each.mem hDriver
      exact Or.inl h

theorem start_each (surfaces : Nat) : (start surfaces).Each fun _ => (· = .new) := by
  intro index driver hDriver
  exact List.eq_of_mem_replicate (List.mem_of_getElem? hDriver)

/-- However the tasks of the surfaces run between the dispatcher's steps, if the server sends
`lifespan.startup` once at most: each surface is given the startup, then the shutdown, and no
more, and the shutdown only after the server was told that startup is complete; that is told only
when every surface has confirmed its start; a failed start names the first surface that did not
confirm, after which none is started; and `shutdown.complete` is told only when every surface
that was started has returned. -/
theorem lifespan_agrees (surfaces : Nat) (acts : List LifespanAct)
    (hOnce : acts.Pairwise fun act later => act = .receive startupType →
      later ≠ .receive startupType) :
    (Machine.run Lifespan.step (start surfaces) acts).Agrees := by
  have hStart : (start surfaces).Unstarted := ⟨.inl ⟨rfl, rfl⟩, start_each surfaces⟩
  exact (hStart.stage.run (fun _ _ _ => hStart) hOnce).agrees

/-- The start of two surfaces, the second of which refuses. -/
def refusedStart : List LifespanAct :=
  [.receive startupType, .take 0 0, .reply 0 0 ⟨some startupCompleteType, []⟩, .go,
    .reply 1 0 ⟨some "lifespan.startup.failed".toList, "no".toList⟩, .go]

theorem lifespan_agrees_refused :
    (Machine.run Lifespan.step (start 2) refusedStart).Agrees ∧
      (Machine.run Lifespan.step (start 2) refusedStart).sent =
        [.startupFailed "surface lifespan startup failed: no".toList] :=
  ⟨lifespan_agrees 2 refusedStart (by decide +kernel), by decide +kernel⟩

end Lifespan

end AccessBroker.Entrypoint
