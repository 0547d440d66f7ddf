import TapeMachine.Proofs.Limit
import TapeMachine.Proofs.Stages

/-! The report of a run. When a command gets as far as the execution, its report is a matter of the run that
its machine comes to: the bytes that the run has written, a code for the way in which it ended, and a last
message about that. What is told of the work before is not seen unless a filter asks for the detail. -/

namespace TapeMachine.Cli

theorem Journal.detail_ended {World : Type} (r : Run World) :
    ∀ e ∈ ended r, Log.Level.debug.detail ≤ e.level.detail := by
  unfold ended
  split <;> simp [Log.Level.detail]

/-- All events of a run are details. -/
theorem Job.detail_events (j : Job) (filter : Log.Filter) (fuel : ℕ) (r : Run Device) :
    ∀ e ∈ j.events filter fuel r, Log.Level.debug.detail ≤ e.level.detail := by
  intro e he
  unfold events at he
  rcases List.mem_append.1 he with he | he
  · rcases List.mem_cons.1 he with rfl | he
    · exact le_rfl
    · split_ifs at he
      · obtain ⟨s, -, hs⟩ := List.mem_filterMap.1 he
        obtain ⟨i, -, rfl⟩ := Option.map_eq_some_iff.1 hs
        exact (by decide : Log.Level.debug.detail ≤ Log.Level.trace.detail)
      · cases he
  · exact Journal.detail_ended r e he

theorem Job.detail_all {j : Job} {c : Config} {origin : Config.Origin} {s : Settings}
    (hlog : j.log = Journal.opening c origin s ++ [Journal.matched j.machine.program j.machine.jumps])
    (filter : Log.Filter) (fuel : ℕ) (r : Run Device) :
    ∀ e ∈ j.log ++ j.events filter fuel r, Log.Level.debug.detail ≤ e.level.detail := by
  intro e he
  rw [hlog] at he
  rcases List.mem_append.1 he with he | he
  · rcases List.mem_append.1 he with he | he
    · exact Journal.detail_opening c origin s e he
    · rw [List.mem_singleton.1 he]
      exact le_rfl
  · exact j.detail_events _ _ _ e he

namespace Invocation

theorem quiet_of_unset {i : Invocation} (h : i.surroundings.env "TAPEVM_LOG" = none) : i.filter.Quiet := by
  simp only [filter, h]
  intro d hd
  cases hd

/-- The last message about a run of a source that has ended in this way. A stop that is no fault of the
program has neither a name in front nor a place in the source. -/
inductive LastWords (name source : String) : Ending → String → Prop
  | halted : LastWords name source .halted ""
  | limit (n : ℕ) : LastWords name source (.stopped (.stepLimitExceeded n))
      ("Execution aborted: step limit exceeded (" ++ toString n ++ ")\n")
  | cancelled : LastWords name source (.stopped .cancelled) "Execution aborted: cancelled\n"
  | fault {f : Fault} {text : String} (h : Diagnostic.Tells name source f text) :
      LastWords name source (.stopped f) text

/-- A report of this run of a source. Lines of the log may stand in front of the last message. -/
structure Reports (i : Invocation) (source : String) (r : Run Device) (report : Report) : Prop where
  exitCode : report.exitCode = if r.ending = .halted then 0 else 1
  stdout : report.stdout = r.world.written.toList
  stderr : ∃ events words, report.stderr = i.told events ++ words ∧
    LastWords i.reporter source r.ending words ∧ (i.filter.Quiet → i.told events = "")
  execution : report.execution? = some r

theorem lastWords_verdict (i : Invocation) {source : String} {m : Machine} (hm : Machine.ofSource source = .ok m)
    {mode : Mode} {c : Control Device} {fuel : ℕ} {d : Device} {f : Fault}
    (hr : (m.run mode Device.hooks c fuel d).ending = .stopped f) :
    LastWords i.reporter source (.stopped f) (i.verdict source f) := by
  cases f with
  | stepLimitExceeded n =>
    have hline : i.verdict source (.stepLimitExceeded n) =
        "Execution aborted: step limit exceeded (" ++ toString n ++ ")\n" := String.append_assoc
    rw [hline]
    exact .limit n
  | cancelled => exact .cancelled
  | _ => exact .fault (Diagnostic.tells_stopped _ hm hr rfl)

section run

variable {i : Invocation} {o : RunOptions} {c : Config} {origin : Config.Origin} {s : String} {rest : Stdin}
  {m : Machine} (hargs : Command.ofArguments i.arguments = .ok (.run o))
  (hc : Config.load i.surroundings = .ok (c, origin)) (hs : o.source.load i.surroundings = (.ok s, rest))
  (hm : Machine.ofSource s = .ok m)

include hargs hc hs hm

/-- With its brackets matched, a text leads to the run of its machine under the settings that result, on what
is left of the input. There is a report once the run is over or out of time, and none before. -/
theorem execute_reports (clock : Clock) :
    let settings := Settings.resolve o i.surroundings.env c
    let r := m.run settings.mode Device.hooks { limit := settings.maxSteps } (clock.fuel settings.timeoutMs)
      rest.device
    (r.ending = .unfinished → settings.timeoutMs = none → i.execute clock = none) ∧
    (r.ending = .unfinished → settings.timeoutMs ≠ none →
      ∃ report, i.execute clock = some report ∧ report.execution? = some r) ∧
    (r.Over → ∃ report, i.execute clock = some report ∧ i.Reports s r report) := by
  intro settings r
  let job : Job := {
    source := s, machine := m, settings, input := rest
    log := Journal.opening c origin settings ++ [Journal.matched m.program m.jumps] }
  let events := job.log ++ job.events i.filter (clock.fuel settings.timeoutMs) r
  have hp : i.prepare o = .ok job := prepare_matched hc hs hm
  have hexec : i.execute clock = i.conclude job (job.events i.filter (clock.fuel settings.timeoutMs) r) r := by
    simp only [execute, hargs, run, hp]
    rfl
  have htold : i.filter.Quiet → i.told events = "" := fun hq => told_eq hq (job.detail_all rfl _ _ r)
  rw [hexec]
  simp only [conclude]
  cases hr : r.ending with
  | halted =>
    refine ⟨by simp, by simp, fun _ => ⟨_, rfl, ?_, rfl, ?_, rfl⟩⟩
    · rw [if_pos hr]
    · exact ⟨events, "", String.append_empty.symm, hr ▸ .halted, htold⟩
  | stopped f =>
    refine ⟨by simp, by simp, fun _ => ⟨_, rfl, ?_, rfl, ?_, rfl⟩⟩
    · rw [if_neg (by simp [hr])]
    · exact ⟨events, i.verdict s f, rfl, hr ▸ i.lastWords_verdict hm hr, htold⟩
  | unfinished =>
    have htime : job.settings.timeoutMs = settings.timeoutMs := rfl
    rw [htime]
    cases settings.timeoutMs with
    | none => exact ⟨fun _ _ => rfl, fun _ h => absurd rfl h, fun h => absurd hr h⟩
    | some ms => exact ⟨by simp, fun _ _ => ⟨_, rfl, rfl⟩, fun h => absurd hr h⟩

/-- Without a timeout there is a report just when the run is over. -/
theorem execute_untimed (htime : (Settings.resolve o i.surroundings.env c).timeoutMs = none) (clock : Clock) :
    let settings := Settings.resolve o i.surroundings.env c
    let r := m.run settings.mode Device.hooks { limit := settings.maxSteps } clock.patience rest.device
    (i.execute clock = none ↔ r.ending = .unfinished) ∧
    ∀ report, i.execute clock = some report → i.Reports s r report := by
  intro settings r
  obtain ⟨hnone, -, hover⟩ := execute_reports hargs hc hs hm clock
  simp only [htime, Clock.fuel] at hnone hover
  by_cases h : r.ending = .unfinished
  · have hexec := hnone h trivial
    exact ⟨iff_of_true hexec h, fun report hreport => by cases hexec.symm.trans hreport⟩
  · obtain ⟨report, hexec, hof⟩ := hover h
    refine ⟨iff_of_false (by simp [hexec]) h, fun report' hreport => ?_⟩
    cases hexec.symm.trans hreport
    exact hof

end run

end Invocation

end TapeMachine.Cli
