import TapeMachine.Proofs.Dispatch
import TapeMachine.Proofs.Report

/-! The first failure of the `run` command. Its stages are the configuration, the source, the brackets and
the execution. If one of the first three fails, the command says why, whatever there is to say about later
ones, and nothing has been executed or written. Otherwise what it writes is what the instructions that it
executes hand over, also when a fault or the limit ends them. -/

namespace TapeMachine

/-- Of a device that accepts every byte, beside the transcript of its calls: which bytes it has taken. -/
structure Device.Records (a : Device × List Call) : Prop where
  receptions : a.1.receptions = []
  written : a.1.written.toList.map (fun b => (b.toNat : ℤ)) = (a.2.map Call.request).filterMap Request.value?

theorem Device.keeps_records : hooks.recorded.Keeps Records where
  read := by
    rintro ⟨d, l⟩ h
    have hout : (d.read).2.receptions = d.receptions ∧ (d.read).2.written = d.written := by
      cases hr : d.replies with
      | nil => rw [read_nil hr]; exact ⟨rfl, rfl⟩
      | cons r rest => rw [read_cons hr]; exact ⟨rfl, rfl⟩
    refine ⟨hout.1.trans h.receptions, ?_⟩
    simpa [Hooks.recorded, hooks, hout.2, Call.request, Request.value?, List.filterMap_cons] using h.written
  write := by
    rintro b ⟨d, l⟩ h
    simp only [Hooks.recorded, hooks, write_nil h.receptions]
    refine ⟨h.receptions, ?_⟩
    simpa [Call.request, Request.value?, List.filterMap_cons] using h.written

namespace Machine

variable {World : Type}

/-- What the instructions that a run executes hand over to be written, in order: for each output the
residue of its cell. -/
def emitted (m : Machine) (mode : Mode) (hooks : Hooks World) (c : Control World) (fuel : ℕ) (w : World) :
    List ℤ :=
  ((m.visits mode hooks c fuel w).filterMap m.program.request?).filterMap Request.value?

/-- A fresh device that accepts every byte has written what a run has emitted, however it ended. -/
theorem written_run (m : Machine) (mode : Mode) (c : Control Device) (fuel : ℕ) {d : Device}
    (hd : d.receptions = []) (hw : d.written = #[]) :
    (m.run mode Device.hooks c fuel d).world.written.toList.map (fun b => (b.toNat : ℤ)) =
      m.emitted mode Device.hooks c fuel d := by
  obtain ⟨hworld, hrequests⟩ := m.run_requests mode Device.hooks c fuel d []
  have hfresh : Device.Records (d, []) := ⟨hd, by simp [hw]⟩
  have hkeeps : (m.engine Device.hooks.recorded mode.eof).hooks.Keeps Device.Records := Device.keeps_records
  let r := m.run mode Device.hooks.recorded c.recorded fuel (d, [])
  have hwritten : r.world.1.written.toList.map (fun b => (b.toNat : ℤ)) =
      (r.world.2.map Call.request).filterMap Request.value? :=
    (Engine.keeps_run hkeeps c.recorded fuel (Status.initial m.program) 0 _ hfresh).written
  rw [hworld, hrequests] at hwritten
  exact hwritten

end Machine

namespace Cli

/-- What comes of the configuration. The file that `TAPEVM_CONFIG` names has to be there. Without a name it
is the file in the directory for configuration, or the defaults if nothing is there or if there is no such
directory. -/
inductive Configures (s : Surroundings) : Except Config.FileFault Config → Prop
  | named {path : String} (h : s.env "TAPEVM_CONFIG" = some path) :
    Configures s (Config.ofFile path (s.file path) s.reader)
  | found {home : String} (hn : s.env "TAPEVM_CONFIG" = none) (hp : s.configHome s.env = some home)
    (he : (s.file (pathIn home "tapevm.toml")).exists = true) :
    Configures s (Config.ofFile (pathIn home "tapevm.toml") (s.file (pathIn home "tapevm.toml")) s.reader)
  | missing {home : String} (hn : s.env "TAPEVM_CONFIG" = none) (hp : s.configHome s.env = some home)
    (he : (s.file (pathIn home "tapevm.toml")).exists = false) : Configures s (.ok {})
  | homeless (hn : s.env "TAPEVM_CONFIG" = none) (hp : s.configHome s.env = none) : Configures s (.ok {})

theorem configures_iff {s : Surroundings} {x : Except Config.FileFault Config} :
    Configures s x ↔ (Config.load s).map Prod.fst = x := by
  have hfile (path : String) : ((Config.ofFile path (s.file path) s.reader).map fun c =>
      (c, Config.Origin.file path)).map Prod.fst = Config.ofFile path (s.file path) s.reader := by
    cases Config.ofFile path (s.file path) s.reader <;> rfl
  constructor
  · intro h
    unfold Config.load Config.defaultPath?
    rcases h with h | ⟨hn, hp, he⟩ | ⟨hn, hp, he⟩ | ⟨hn, hp⟩
    · simp only [h, hfile]
    · simp only [hn, hp, Option.map_some, he, if_true, hfile]
    · simp only [hn, hp, Option.map_some, he]
      rfl
    · simp only [hn, hp]
      rfl
  · rintro rfl
    unfold Config.load Config.defaultPath?
    cases hn : s.env "TAPEVM_CONFIG" with
    | some path => simpa only [hfile] using Configures.named hn
    | none =>
      cases hp : s.configHome s.env with
      | none => exact .homeless hn hp
      | some home =>
        simp only [Option.map_some]
        cases he : (s.file (pathIn home "tapevm.toml")).exists with
        | true => simpa only [he, if_true, hfile] using Configures.found hn hp he
        | false =>
          simp only [Bool.false_eq_true, if_false]
          exact .missing hn hp he

/-- A source that gives no text, with what is said about it. -/
inductive Unloaded (s : Surroundings) : Source → String → Prop
  | file {path reason : String} (h : (s.file path).text = .error reason) :
    Unloaded s (.file path) ("failed to read " ++ path ++ " as UTF-8: " ++ reason)
  | stdin {reason : String} (h : s.stdin.readToEnd.1 = .error reason) :
    Unloaded s .stdin ("failed reading program from stdin: " ++ reason)

theorem unloaded_iff {s : Surroundings} {source : Source} {message : String} :
    Unloaded s source message ↔ (source.load s).1 = .error message := by
  constructor
  · rintro (h | h) <;> simp only [Source.load, h, Except.mapError]
  · intro h
    cases source with
    | code text => cases h
    | file path =>
      cases hx : (s.file path).text with
      | error reason =>
        simp only [Source.load, hx, Except.mapError, Except.error.injEq] at h
        exact h ▸ .file hx
      | ok text => simp [Source.load, hx, Except.mapError] at h
    | stdin =>
      cases hx : s.stdin.readToEnd.1 with
      | error reason =>
        simp only [Source.load, hx, Except.mapError, Except.error.injEq] at h
        exact h ▸ .stdin hx
      | ok text => simp [Source.load, hx, Except.mapError] at h

/-- The stage before the execution that fails first, by all that is said about it. -/
inductive FailsBefore (i : Invocation) (o : RunOptions) : String → Prop
  | unreadable {path reason : String} (hc : Configures i.surroundings (.error (.unreadable path reason))) :
    FailsBefore i o (i.reporter ++ ": " ++ ("failed to read config file " ++ path ++ ": " ++ reason) ++ "\n")
  | invalid {path : String} {rejection : Config.Rejection}
    (hc : Configures i.surroundings (.error (.invalid path rejection))) :
    FailsBefore i o (i.reporter ++ ": " ++
      ("invalid config file " ++ path ++ ": " ++ i.surroundings.reader.words rejection) ++ "\n")
  | source {c : Config} {message : String} (hc : Configures i.surroundings (.ok c))
    (hs : Unloaded i.surroundings o.source message) : FailsBefore i o (i.reporter ++ ": " ++ message ++ "\n")
  | brackets {c : Config} {s text : String} {rest : Stdin} {f : Fault} (hc : Configures i.surroundings (.ok c))
    (hs : o.source.load i.surroundings = (.ok s, rest)) (hb : JumpTable.build (.ofSource s) = .error f)
    (htext : Diagnostic.Tells i.reporter s f text) : FailsBefore i o text

theorem load_of_configures {s : Surroundings} {c : Config} (h : Configures s (.ok c)) :
    ∃ origin, Config.load s = .ok (c, origin) := by
  have hmap := configures_iff.1 h
  cases hload : Config.load s with
  | error f => simp [hload, Except.map] at hmap
  | ok x =>
    obtain ⟨c', origin⟩ := x
    rw [hload] at hmap
    cases hmap
    exact ⟨origin, rfl⟩

theorem load_of_configures_error {s : Surroundings} {f : Config.FileFault} (h : Configures s (.error f)) :
    Config.load s = .error f := by
  have hmap := configures_iff.1 h
  cases hload : Config.load s with
  | error f' =>
    rw [hload] at hmap
    cases hmap
    rfl
  | ok x => simp [hload, Except.map] at hmap

namespace Invocation

variable {i : Invocation} {o : RunOptions}

theorem failure_eq {log : List Log.Event} (hlog : i.told log = "") (message : String) :
    i.failure log message = { exitCode := 1, stderr := i.reporter ++ ": " ++ message ++ "\n" } := by
  rw [failure, hlog, String.empty_append]
  rfl

/-- Before the execution, the first stage that fails is all that there is to report. -/
theorem prepare_of_fails {message : String} (hquiet : i.filter.Quiet) (h : FailsBefore i o message) :
    i.prepare o = .error { exitCode := 1, stderr := message } := by
  have hopening (c : Config) (origin : Config.Origin) :
      i.told (Journal.opening c origin (Settings.resolve o i.surroundings.env c)) = "" :=
    told_eq hquiet (Journal.detail_opening _ _ _)
  cases h with
  | unreadable hc | invalid hc =>
    simp only [prepare, load_of_configures_error hc, failure_eq i.told_nil]
    rfl
  | @source c message hc hs =>
    obtain ⟨origin, hload⟩ := load_of_configures hc
    have hfailure := failure_eq (hopening c origin) message
    rw [Journal.opening] at hfailure
    obtain ⟨rest, hs⟩ : ∃ rest, o.source.load i.surroundings = (.error message, rest) :=
      ⟨_, Prod.ext (unloaded_iff.1 hs) rfl⟩
    simp only [prepare, hload, hs, hfailure]
  | @brackets c s text rest f hc hs hb htext =>
    obtain ⟨origin, hload⟩ := load_of_configures hc
    have htold := (Diagnostic.tells_unmatched i.reporter hb).unique htext
    rw [prepare_unmatched hload hs hb, faultReport, hopening, String.empty_append, htold]

theorem fails_or_ready (i : Invocation) (o : RunOptions) : (∃ message, FailsBefore i o message) ↔
    ¬ ∃ c s rest, Configures i.surroundings (.ok c) ∧ o.source.load i.surroundings = (.ok s, rest) ∧
      Balanced (Program.ofSource s).toList := by
  constructor
  · rintro ⟨message, h⟩ ⟨c, s, rest, hc, hs, hb⟩
    obtain ⟨t, ht⟩ := (JumpTable.build_ok_iff _).2 hb
    cases h with
    | unreadable hc' | invalid hc' => cases (configures_iff.1 hc).symm.trans (configures_iff.1 hc')
    | source _ hs' =>
      rw [unloaded_iff, hs] at hs'
      cases hs'
    | brackets _ hs' hb' =>
      cases hs.symm.trans hs'
      cases ht.symm.trans hb'
  · intro h
    rcases hc : (Config.load i.surroundings).map Prod.fst with f | c
    · cases f with
      | unreadable path reason => exact ⟨_, .unreadable (configures_iff.2 hc)⟩
      | invalid path rejection => exact ⟨_, .invalid (configures_iff.2 hc)⟩
    · rcases hs : o.source.load i.surroundings with ⟨message | s, rest⟩
      · exact ⟨_, .source (configures_iff.2 hc) (unloaded_iff.2 (congrArg Prod.fst hs))⟩
      · rcases hb : JumpTable.build (.ofSource s) with f | t
        · exact ⟨_, .brackets (configures_iff.2 hc) hs hb (Diagnostic.tells_unmatched _ hb)⟩
        · exact absurd ⟨c, s, rest, configures_iff.2 hc, hs, (JumpTable.build_ok_iff _).1 ⟨t, hb⟩⟩ h

/-- If a stage before the execution fails, what is said about the first one that does is all that is reported,
with the code 1 and nothing on standard output, and nothing is executed. Otherwise the program is executed,
and without a timeout there is a report when this is over. Standard output then has what the execution has
emitted, the code is 0 just when the program has halted, and standard error has the last words about it. -/
theorem first_failure_reported (hargs : Command.ofArguments i.arguments = .ok (.run o))
    (hquiet : i.filter.Quiet) (clock : Clock) :
    (∀ message, FailsBefore i o message → i.execute clock = some ⟨1, [], message, none⟩) ∧
    (∀ c s rest, Configures i.surroundings (.ok c) → o.source.load i.surroundings = (.ok s, rest) →
      Balanced (Program.ofSource s).toList → (Settings.resolve o i.surroundings.env c).timeoutMs = none →
      ∃ m, Machine.ofSource s = .ok m ∧
        let settings := Settings.resolve o i.surroundings.env c
        let control : Control Device := { limit := settings.maxSteps }
        ∃ r, m.Executes settings.mode Device.hooks control clock.patience rest.device r ∧
          (i.execute clock = none ↔ r.ending = .unfinished) ∧
          ∀ report, i.execute clock = some report → report.execution? = some r ∧
            report.stdout.map (fun b => (b.toNat : ℤ)) =
              m.emitted settings.mode Device.hooks control clock.patience rest.device ∧
            (report.exitCode = 0 ↔ r.ending = .halted) ∧
            LastWords i.reporter s r.ending report.stderr) ∧
    ((∃ message, FailsBefore i o message) ↔
      ¬ ∃ c s rest, Configures i.surroundings (.ok c) ∧ o.source.load i.surroundings = (.ok s, rest) ∧
        Balanced (Program.ofSource s).toList) := by
  refine ⟨fun message h => ?_, fun c s rest hc hs hb htime => ?_, fails_or_ready i o⟩
  · simp only [execute, hargs, run, prepare_of_fails hquiet h]
  · obtain ⟨t, ht⟩ := (JumpTable.build_ok_iff _).2 hb
    obtain ⟨origin, hload⟩ := load_of_configures hc
    have hm := Machine.ofProgram_ok ht
    refine ⟨_, hm, ?_⟩
    intro settings control
    obtain ⟨hnone, hreports⟩ := execute_untimed hargs hload hs hm htime clock
    refine ⟨_, Machine.executes_iff.2 rfl, hnone, fun report hreport => ?_⟩
    have hof := hreports report hreport
    obtain ⟨events, words, herr, hwords, hempty⟩ := hof.stderr
    have hfresh : rest.device.receptions = [] ∧ rest.device.written = #[] := by
      cases rest <;> exact ⟨rfl, rfl⟩
    refine ⟨hof.execution, ?_, ?_, ?_⟩
    · rw [hof.stdout]
      exact Machine.written_run _ _ control clock.patience hfresh.1 hfresh.2
    · rw [hof.exitCode]
      split_ifs with h
      · exact iff_of_true rfl h
      · exact iff_of_false (by decide) h
    · rwa [herr, hempty hquiet, String.empty_append]

/-- With an empty path for the configuration, a source that is not there is not reported. In `+.,.` the
input is exhausted when one byte has been written. -/
theorem first_failure_reported_twice :
    let call (arguments : List String) (config : Option String) : Invocation := ⟨"tapevm", arguments, {
      env := fun name => if name = "TAPEVM_CONFIG" then config else none
      file := fun _ => .missing
      stdin := .bytes .empty }⟩
    let early := call ["run", "-f", "p.bf"] (some "")
    let late := call ["run", "--eof", "error", "+.,."] none
    (∀ clock, early.execute clock = some {
      exitCode := 1
      stderr := "tapevm: failed to read config file : No such file or directory (os error 2)\n" }) ∧
    ∃ report, late.execute ⟨1, 9⟩ = some report ∧ report.stdout.map (fun b => (b.toNat : ℤ)) = [1] ∧
      report.exitCode ≠ 0 ∧ Diagnostic.Tells "tapevm" "+.,." (.inputExhausted 2) report.stderr := by
  intro call early late
  have hname (arguments : List String) (config : Option String) : (call arguments config).reporter = "tapevm" := by
    simp only [reporter, call]
    decide
  constructor
  · intro clock
    have hfails := (first_failure_reported (i := early) (o := { source := .file "p.bf" }) (by decide)
      (quiet_of_unset rfl) clock).1 _ (.unreadable (.named rfl))
    rw [hname] at hfails
    exact hfails
  · let o : RunOptions := { source := .code "+.,.", eof := some .error }
    have hbuild : JumpTable.build (.ofSource "+.,.") = .ok ⟨#[none, none, none, none]⟩ := by decide
    obtain ⟨m, hm, r, hr, hnone, hreport⟩ := (first_failure_reported (i := late) (o := o) (by decide)
      (quiet_of_unset rfl) ⟨1, 9⟩).2.1 {} _ _ (.homeless rfl rfl) rfl ((JumpTable.build_ok_iff _).1 ⟨_, hbuild⟩) rfl
    cases (Machine.ofProgram_ok hbuild).symm.trans hm
    rw [Stdin.device_empty] at hr hreport
    have hrun : (Machine.run ⟨.ofSource "+.,.", ⟨#[none, none, none, none]⟩, by decide⟩ ⟨.byte, .error⟩
        Device.hooks {} 9 {}).ending = .stopped (.inputExhausted 2) := by decide
    have hend : r.ending = .stopped (.inputExhausted 2) := by
      rw [Machine.executes_iff.1 hr]
      exact hrun
    have hemitted : Machine.emitted ⟨.ofSource "+.,.", ⟨#[none, none, none, none]⟩, by decide⟩ ⟨.byte, .error⟩
        Device.hooks {} 9 {} = [1] := by decide
    cases hex : late.execute ⟨1, 9⟩ with
    | none => cases hend.symm.trans (hnone.1 hex)
    | some report =>
      obtain ⟨-, hout, hcode, herr⟩ := hreport report hex
      rw [hend, hname] at herr
      refine ⟨report, rfl, hout.trans hemitted, fun h => (by cases hend.symm.trans (hcode.1 h)), ?_⟩
      cases herr with
      | fault htells => exact htells

end Invocation

end Cli

end TapeMachine
