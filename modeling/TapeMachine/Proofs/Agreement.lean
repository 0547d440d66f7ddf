import TapeMachine.Proofs.Report
import TapeMachine.Proofs.Source

/-! The commands `check` and `run` agree on every text. They reject the same texts with the same report,
and `run` has then executed nothing. The counts that `check` prints are those of the characters of the
text: half the size of a jump table is the number of `[`, since a derivable text has as many `]`. -/

namespace TapeMachine

namespace Program

theorem size_ofSource (s : String) :
    (ofSource s).size = s.toList.countP (· ∈ Instruction.symbols) := by
  have h := congrArg List.length (map_symbol_ofChars s.toList)
  rwa [List.length_map, length_toList, ← List.countP_eq_length_filter] at h

theorem count_ofSource (s : String) (i : Instruction) :
    (ofSource s).toList.count i = s.toList.count i.symbol := by
  rw [ofSource, toList_ofChars]
  generalize s.toList = cs
  induction cs with
  | nil => rfl
  | cons c cs ih =>
    by_cases hc : c = i.symbol
    · subst hc
      simp [ih]
    · have hi : Instruction.ofChar? c ≠ some i := fun h => hc (Instruction.symbol_of_ofChar? h).symm
      rw [List.count_cons_of_ne hc, ← ih]
      cases hx : Instruction.ofChar? c with
      | none => rw [List.filterMap_cons_none hx]
      | some x =>
        rw [List.filterMap_cons_some hx, List.count_cons_of_ne]
        rintro rfl
        exact hi hx

theorem bracketCount_eq (p : Program) :
    p.bracketCount = p.toList.count .loopStart + p.toList.count .loopEnd := by
  unfold bracketCount
  generalize p.toList = l
  induction l with
  | nil => rfl
  | cons i l ih =>
    cases i <;> simp [List.countP_cons, Instruction.isBracket, ih] <;> omega

end Program

/-- Each loop is matched from both ends, so half of a program's own table are its loops. -/
theorem JumpTable.loopCount_of_build {p : Program} {t : JumpTable} (h : build p = .ok t) :
    t.loopCount = p.toList.count .loopStart := by
  have hdepth := (of_build h).1.depth_eq
  rw [loopCount, size_eq_bracketCount h, Program.bracketCount_eq]
  unfold depth at hdepth
  omega

namespace Cli

/-- What `check` prints about a text. -/
def summary (instructions loops : ℕ) : List UInt8 :=
  ("ok: " ++ toString instructions ++ " instructions, " ++ toString loops ++ " loops\n").toUTF8.toList

namespace Invocation

theorem check_matched {i : Invocation} {source : Source} {s : String} {rest : Stdin} {t : JumpTable}
    (hs : source.load i.surroundings = (.ok s, rest)) (ht : JumpTable.build (.ofSource s) = .ok t) :
    i.check source = {
      exitCode := 0
      stdout := summary (s.toList.countP (· ∈ Instruction.symbols)) (s.toList.count '[')
      stderr := i.told [Journal.matched (.ofSource s) t] } := by
  have hloops := JumpTable.loopCount_of_build ht
  rw [Program.count_ofSource] at hloops
  simp only [check, hs, ht, Program.size_ofSource, hloops]
  rfl

/-- For a text that both commands are given in the same way, and a configuration that loads, there are two
cases. If its brackets are matched, `check` succeeds and prints how many symbols and how many `[` the text
has, and `run` goes on to execute the machine of the text, for as many steps as there is time for. If not,
both fail with nothing on standard output and the same words about the bracket, and `run` has come to no
execution. Lines of the log stand in front of this on standard error only for a filter that asks for them. -/
theorem check_agrees_run {i j : Invocation} {o : RunOptions} {c : Config} {origin : Config.Origin}
    {s : String} {rest : Stdin} (hi : Command.ofArguments i.arguments = .ok (.check o.source))
    (hj : Command.ofArguments j.arguments = .ok (.run o)) (hname : i.calledAs = j.calledAs)
    (hsame : i.surroundings = j.surroundings) (hs : o.source.load j.surroundings = (.ok s, rest))
    (hc : Config.load j.surroundings = .ok (c, origin)) (clock : Clock) :
    (Balanced (Program.ofSource s).toList →
      (∃ events, i.execute clock = some {
          exitCode := 0
          stdout := summary (s.toList.countP (· ∈ Instruction.symbols)) (s.toList.count '[')
          stderr := i.told events } ∧ (i.filter.Quiet → i.told events = "")) ∧
      ∃ m, Machine.ofSource s = .ok m ∧
        let settings := Settings.resolve o j.surroundings.env c
        ∃ r, m.Executes settings.mode Device.hooks { limit := settings.maxSteps }
            (clock.fuel settings.timeoutMs) rest.device r ∧
          (r.Over ∨ settings.timeoutMs ≠ none →
            ∃ report, j.execute clock = some report ∧ report.execution? = some r) ∧
          (¬ r.Over → settings.timeoutMs = none → j.execute clock = none)) ∧
    (¬ Balanced (Program.ofSource s).toList → ∃ f text events,
      JumpTable.build (.ofSource s) = .error f ∧ Diagnostic.Tells i.reporter s f text ∧
      i.execute clock = some { exitCode := 1, stdout := [], stderr := text, execution? := none } ∧
      j.execute clock = some { exitCode := 1, stdout := [], stderr := j.told events ++ text, execution? := none } ∧
      (j.filter.Quiet → j.told events = "")) := by
  have hload : o.source.load i.surroundings = (.ok s, rest) := by rw [hsame, hs]
  have hcheck : i.execute clock = some (i.check o.source) := by simp only [execute, hi]
  constructor
  · intro hb
    obtain ⟨t, ht⟩ := (JumpTable.build_ok_iff _).2 hb
    let m : Machine := ⟨.ofSource s, t, ht⟩
    have hm : Machine.ofSource s = .ok m := Machine.ofProgram_ok ht
    refine ⟨⟨_, by rw [hcheck, check_matched hload ht], fun hq => told_eq hq (by simp [Journal.matched])⟩,
      m, hm, ?_⟩
    intro settings
    let r := m.run settings.mode Device.hooks { limit := settings.maxSteps } (clock.fuel settings.timeoutMs)
      rest.device
    obtain ⟨hnone, htimed, hover⟩ := execute_reports hj hc hs hm clock
    refine ⟨r, Machine.executes_iff.2 rfl, fun h => ?_, fun h => hnone (not_not.1 h)⟩
    by_cases hr : r.ending = .unfinished
    · exact htimed hr (h.resolve_left fun hover => hover hr)
    · obtain ⟨report, hreport, hof⟩ := hover hr
      exact ⟨report, hreport, hof.execution⟩
  · intro hb
    rcases hbuild : JumpTable.build (.ofSource s) with f | t
    · have hreporter : i.reporter = j.reporter := by simp only [reporter, hname, hsame]
      refine ⟨f, _, Journal.opening c origin (Settings.resolve o j.surroundings.env c), rfl,
        Diagnostic.tells_unmatched _ hbuild, by rw [hcheck, check_unmatched hload hbuild], ?_,
        fun hq => told_eq hq (Journal.detail_opening _ _ _)⟩
      simp only [execute, hj, run, prepare_unmatched hc hs hbuild, faultReport, hreporter]
    · exact absurd ((JumpTable.build_ok_iff _).1 ⟨t, hbuild⟩) hb

/-- `.,]`, where an output and an input stand in front of a `]` that closes nothing, and `é[[]+]`, which
has a comment of two bytes and a loop in a loop. -/
theorem check_agrees_run_unopened :
    let around : Surroundings := { env := fun _ => none, file := fun _ => .missing, stdin := .bytes .empty }
    let call (arguments : List String) : Invocation := ⟨"tapevm", arguments, around⟩
    (∃ text, Diagnostic.Tells "tapevm" ".,]" (.unmatchedBracket 2 .closing) text ∧
      (call ["check", ".,]"]).execute ⟨1, 1⟩ = some ⟨1, [], text, none⟩ ∧
      (call ["run", ".,]"]).execute ⟨1, 1⟩ = some ⟨1, [], text, none⟩) ∧
    (call ["check", "é[[]+]"]).execute ⟨1, 1⟩ = some ⟨0, summary 5 2, "", none⟩ ∧
      ∃ m r report, Machine.ofSource "é[[]+]" = .ok m ∧
        m.Executes {} Device.hooks {} 20 (Stdin.bytes .empty).device r ∧
        (call ["run", "--timeout", "5", "é[[]+]"]).execute ⟨1, 1⟩ = some report ∧ report.execution? = some r := by
  intro around call
  have hquiet : ∀ arguments, (call arguments).filter.Quiet := fun _ d hd => by cases hd
  have hconfig : Config.load around = .ok ({}, .none) := rfl
  have hbad : JumpTable.build (.ofSource ".,]") = .error (.unmatchedBracket 2 .closing) := by decide
  have hgood : JumpTable.build (.ofSource "é[[]+]") = .ok ⟨#[some 4, some 2, some 1, none, some 0]⟩ := by decide
  constructor
  · have hunbalanced : ¬ Balanced (Program.ofSource ".,]").toList := by
      intro hb
      obtain ⟨t, ht⟩ := (JumpTable.build_ok_iff _).2 hb
      cases hbad.symm.trans ht
    obtain ⟨f, text, events, hf, htells, hcheck, hrun, hlog⟩ :=
      (check_agrees_run (i := call ["check", ".,]"]) (j := call ["run", ".,]"]) (o := { source := .code ".,]" })
        (by decide) (by decide) rfl rfl rfl hconfig ⟨1, 1⟩).2 hunbalanced
    cases hbad.symm.trans hf
    have hreporter : (call ["check", ".,]"]).reporter = "tapevm" := by decide
    rw [hreporter] at htells
    rw [hlog (hquiet _), String.empty_append] at hrun
    exact ⟨text, htells, hcheck, hrun⟩
  · obtain ⟨⟨events, hcheck, hlog⟩, m, hm, r, hr, hreport, -⟩ :=
      (check_agrees_run (i := call ["check", "é[[]+]"]) (j := call ["run", "--timeout", "5", "é[[]+]"])
        (o := { source := .code "é[[]+]", timeoutMs := some 5 }) (by decide) (by decide) rfl rfl rfl hconfig
        ⟨1, 1⟩).1 ((JumpTable.build_ok_iff _).1 ⟨_, hgood⟩)
    rw [hlog (hquiet _)] at hcheck
    obtain ⟨report, hexec, hsome⟩ := hreport (.inr (by decide))
    exact ⟨hcheck, m, r, report, hm, hr, hexec, hsome⟩

/-- With a filter that asks for details, a check that succeeds tells of its jump table. -/
theorem check_agrees_run_told :
    ¬ ∀ (i : Invocation) (source : Source) (s : String) (rest : Stdin) (c : Config × Config.Origin)
      (clock : Clock), Command.ofArguments i.arguments = .ok (.check source) →
      source.load i.surroundings = (.ok s, rest) → Config.load i.surroundings = .ok c →
      Balanced (Program.ofSource s).toList →
      ∃ report, i.execute clock = some report ∧ report.exitCode = 0 ∧ report.stderr = "" := by
  intro h
  let i : Invocation := ⟨"tapevm", ["check", "+"], {
    layout := fun _ e => "2024-05-01T00:00:00.000000Z " ++ e.line
    env := fun name => if name = "TAPEVM_LOG" then some "debug" else none
    file := fun _ => .missing
    stdin := .bytes .empty }⟩
  have hargs : Command.ofArguments i.arguments = .ok (.check (.code "+")) := by decide
  have hbuild : JumpTable.build (.ofSource "+") = .ok ⟨#[none]⟩ := by decide
  obtain ⟨report, hreport, -, herr⟩ := h i (.code "+") "+" (.bytes .empty) ({}, .none) ⟨1, 1⟩ hargs rfl rfl
    ((JumpTable.build_ok_iff _).1 ⟨_, hbuild⟩)
  have hfilter : i.filter = [{ detail := Log.Level.debug.detail }] := by decide +kernel
  have htold : i.told [Journal.matched (.ofSource "+") ⟨#[none]⟩] =
      "2024-05-01T00:00:00.000000Z DEBUG tapevm::jump_table: built jump table instructions=1 loops=0\n" := by
    rw [told, hfilter]
    decide +kernel
  have hload : Source.load i.surroundings (.code "+") = (.ok "+", .bytes .empty) := rfl
  simp only [execute, hargs, check_matched hload hbuild, htold, Option.some.injEq] at hreport
  rw [← hreport] at herr
  exact absurd herr (by decide)

end Invocation

end Cli

end TapeMachine
