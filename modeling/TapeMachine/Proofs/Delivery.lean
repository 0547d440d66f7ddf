import TapeMachine.Proofs.CommandLine
import TapeMachine.Proofs.Dispatch
import TapeMachine.Proofs.Report

/-! Ways to hand over a program text. The text may stand behind `--` in any number of parts, in a file, or
on standard input, which reading the text leaves at its end. A command comes to the same in each of these
ways, since all that it has of the source is the text, and of standard input that nothing is left there. -/

namespace TapeMachine

/-- A device with nothing left to read. -/
structure Device.Drained (d : Device) : Prop where
  replies : d.replies = []
  afterwards : d.afterwards = .endOfInput

namespace Device

theorem Drained.read_eq {d : Device} (h : d.Drained) :
    d.read = (.endOfInput, { d with reads := d.reads + 1 }) := by
  rw [read_nil h.replies, h.afterwards]

theorem keeps_drained : hooks.Keeps Drained where
  read d h := by
    simp only [hooks, h.read_eq]
    exact ⟨h.replies, h.afterwards⟩
  write b d h := by
    cases hr : d.receptions with
    | nil =>
      simp only [hooks, write_nil hr]
      exact ⟨h.replies, h.afterwards⟩
    | cons r rest =>
      simp only [hooks, write_cons hr]
      cases r <;> exact ⟨h.replies, h.afterwards⟩

end Device

variable {World : Type}

/-- What an input instruction has to come to in this state if it meets the end of the input. -/
structure EofPolicy.Handles (eof : EofPolicy) (s : State) (o : Outcome World) : Prop where
  zero : eof = .zero → (∃ st, o.result = .ok st) ∧ o.state = ⟨s.tape.write 0, s.cursor.advance⟩
  unchanged : eof = .unchanged → (∃ st, o.result = .ok st) ∧ o.state = ⟨s.tape, s.cursor.advance⟩
  error : eof = .error → o.result = .error (.inputExhausted s.cursor.position) ∧ o.state = s

namespace Engine

theorem Passes.keeps {e : Engine World} {I : World → Prop} (he : e.hooks.Keeps I) {c : Control World}
    {st₀ st : Status} {s₀ s : State} {w₀ w : World} {k : ℕ} (h : e.Passes c st₀ s₀ w₀ st k s w)
    (hw : I w₀) : I w := by
  induction h with
  | start => exact hw
  | @step k s s' w w' st h hc hs ih =>
    have hstep := keeps_step he s ih
    rwa [hs] at hstep

theorem step_endOfInput {e : Engine World} {s : State} {w : World}
    (hi : e.program.get? s.cursor.position = some .input) (hr : (e.hooks.read w).1 = .endOfInput) :
    e.eof.Handles s (e.step s w) := by
  have hp : e.perform .input s w = e.endOfInput s (e.hooks.read w).2 := by
    simp only [perform]
    generalize e.hooks.read w = a at hr
    obtain ⟨_, w'⟩ := a
    cases hr
    rfl
  refine ⟨fun he => ?_, fun he => ?_, fun he => ?_⟩ <;> simp only [endOfInput, he] at hp
  · rw [step_ok hi hp]
    exact ⟨⟨_, rfl⟩, rfl⟩
  · rw [step_ok hi hp]
    exact ⟨⟨_, rfl⟩, rfl⟩
  · rw [step_fault hi hp]
    exact ⟨rfl, rfl⟩

end Engine

/-- On a device with nothing to read, each input instruction of a run meets the end of the input. -/
theorem Machine.Passes.endOfInput {m : Machine} {mode : Mode} {c : Control Device} {d₀ d : Device}
    {st : Status} {k : ℕ} {s : State} (h : m.Passes mode Device.hooks c d₀ st k s d) (hd : d₀.Drained)
    (hi : m.program.get? s.cursor.position = some .input) :
    d.read.1 = .endOfInput ∧ mode.eof.Handles s ((m.engine Device.hooks mode.eof).step s d) := by
  have hdry : d.Drained := Engine.Passes.keeps Device.keeps_drained h hd
  have hr : d.read.1 = .endOfInput := by rw [hdry.read_eq]
  exact ⟨hr, Engine.step_endOfInput (e := m.engine Device.hooks mode.eof) hi hr⟩

namespace Cli

namespace Invocation

/-- A text is handed over to a command, and there is no other input. -/
inductive Delivers (t : Task) (s : String) (i : Invocation) : Prop
  | code {options parts : List String} (hargs : i.arguments = t.name :: (options ++ "--" :: parts))
      (hoptions : Command.ofArguments (t.name :: options) = .ok (t.command .stdin))
      (hdashes : "--" ∉ options) (hparts : parts ≠ []) (htext : String.join parts = s)
      (hstdin : i.surroundings.stdin = .bytes .empty)
  | file {path : String} (hargs : Command.ofArguments i.arguments = .ok (t.command (.file path)))
      (hfile : i.surroundings.file path = .holds s.toUTF8) (hstdin : i.surroundings.stdin = .bytes .empty)
  | stdin (hargs : Command.ofArguments i.arguments = .ok (t.command .stdin))
      (hstdin : i.surroundings.stdin = .bytes s.toUTF8)

/-- In each way the command has the text, and there is nothing left to read. -/
theorem Delivers.loads {t : Task} {s : String} {i : Invocation} (h : i.Delivers t s) :
    ∃ source, Command.ofArguments i.arguments = .ok (t.command source) ∧
      source.load i.surroundings = (.ok s, .bytes .empty) := by
  cases h with
  | @code options parts hargs hoptions hdashes hparts htext hstdin =>
    refine ⟨.code s, ?_, ?_⟩
    · rw [hargs, ← htext]
      exact t.ofArguments_code hoptions hdashes hparts
    · simp only [Source.load, hstdin]
  | @file path hargs hfile hstdin =>
    refine ⟨.file path, hargs, ?_⟩
    simp only [Source.load, hfile, FileState.text, textOfBytes_toUTF8, hstdin]
    rfl
  | stdin hargs hstdin =>
    refine ⟨.stdin, hargs, ?_⟩
    simp only [Source.load, hstdin, Stdin.readToEnd, textOfBytes_toUTF8]
    rfl

/-- Two invocations with the same name, environment and configuration. The layout of their logs may differ,
as the time does. -/
structure SameSetting (i j : Invocation) : Prop where
  calledAs : i.calledAs = j.calledAs
  env : i.surroundings.env = j.surroundings.env
  config : Config.load i.surroundings = Config.load j.surroundings
  reader : i.surroundings.reader = j.surroundings.reader
  paint : i.surroundings.paint = j.surroundings.paint

/-- Two reports that differ at most in how the lines of their logs are laid out. -/
structure Alike (i j : Invocation) (r r' : Report) : Prop where
  exitCode : r.exitCode = r'.exitCode
  stdout : r.stdout = r'.stdout
  execution : r.execution? = r'.execution?
  stderr : ∃ events rest, (∀ e ∈ events, Log.Level.debug.detail ≤ e.level.detail) ∧
    r.stderr = i.told events ++ rest ∧ r'.stderr = j.told events ++ rest

namespace SameSetting

variable {i j : Invocation} (h : i.SameSetting j)

include h

theorem filter_eq : i.filter = j.filter := by simp only [filter, h.env]

theorem reporter_eq : i.reporter = j.reporter := by simp only [reporter, h.calledAs, h.paint]

theorem failure_alike {log : List Log.Event} (hlog : ∀ e ∈ log, Log.Level.debug.detail ≤ e.level.detail)
    (message : String) : Alike i j (i.failure log message) (j.failure log message) := by
  refine ⟨rfl, rfl, rfl, log, Diagnostic.line (some i.reporter) message, hlog, rfl, ?_⟩
  rw [h.reporter_eq]
  rfl

theorem faultReport_alike {log : List Log.Event} (hlog : ∀ e ∈ log, Log.Level.debug.detail ≤ e.level.detail)
    (source : String) (f : Fault) : Alike i j (i.faultReport log source f) (j.faultReport log source f) := by
  refine ⟨rfl, rfl, rfl, log, Diagnostic.fault (some i.reporter) source f, hlog, rfl, ?_⟩
  rw [h.reporter_eq]
  rfl

theorem conclude_alike (job : Job) {events : List Log.Event}
    (hevents : ∀ e ∈ job.log ++ events, Log.Level.debug.detail ≤ e.level.detail) (r : Run Device) :
    Option.Rel (Alike i j) (i.conclude job events r) (j.conclude job events r) := by
  have hverdict : i.verdict = j.verdict := by
    funext source f
    simp only [verdict, h.reporter_eq]
  simp only [conclude, hverdict]
  split
  · exact .some ⟨rfl, rfl, rfl, _, "", hevents, String.append_empty.symm, String.append_empty.symm⟩
  · exact .some ⟨rfl, rfl, rfl, _, _, hevents, rfl, rfl⟩
  · exact .some ⟨rfl, rfl, rfl, _, _, hevents, rfl, rfl⟩
  · exact .none

variable {a b : Source} {s : String} {rest : Stdin} (ha : a.load i.surroundings = (.ok s, rest))
  (hb : b.load j.surroundings = (.ok s, rest))

include ha hb

theorem check_alike : Alike i j (i.check a) (j.check b) := by
  simp only [check, ha, hb]
  split
  · exact h.faultReport_alike (by simp) _ _
  · exact ⟨rfl, rfl, rfl, _, "", by simp [Journal.matched], String.append_empty.symm, String.append_empty.symm⟩

theorem run_alike (o : RunOptions) (clock : Clock) :
    Option.Rel (Alike i j) (i.run { o with source := a } clock) (j.run { o with source := b } clock) := by
  rcases hc : Config.load i.surroundings with f | ⟨c, origin⟩
  · have hc' := h.config.symm.trans hc
    simp only [run, prepare, hc, hc', h.reader]
    exact .some (h.failure_alike (by simp) _)
  have hc' := h.config.symm.trans hc
  rcases hbuild : JumpTable.build (.ofSource s) with f | t
  · simp only [run, prepare_unmatched hc (o := { o with source := a }) ha hbuild,
      prepare_unmatched hc' (o := { o with source := b }) hb hbuild, h.env]
    exact .some (h.faultReport_alike (Journal.detail_opening _ _ _) _ _)
  · have hm : Machine.ofSource s = .ok ⟨.ofSource s, t, hbuild⟩ := Machine.ofProgram_ok hbuild
    simp only [run, prepare_matched hc (o := { o with source := a }) ha hm,
      prepare_matched hc' (o := { o with source := b }) hb hm, h.env, h.filter_eq]
    exact h.conclude_alike _ (Job.detail_all rfl _ _ _) _

end SameSetting

/-- Reports that are alike are equal if the logs are laid out in the same way or have no lines. -/
theorem Alike.eq {i j : Invocation} {r r' : Report} (hr : Alike i j r r') (h : i.SameSetting j)
    (hlog : i.surroundings.layout = j.surroundings.layout ∨ i.filter.Quiet) : r = r' := by
  obtain ⟨events, rest, hdetails, herr, herr'⟩ := hr.stderr
  have htold : i.told events = j.told events := by
    rcases hlog with hlayout | hquiet
    · simp only [told, h.filter_eq, hlayout]
    · rw [told_eq hquiet hdetails, told_eq (h.filter_eq ▸ hquiet) hdetails]
  obtain ⟨code, out, err, execution⟩ := r
  obtain ⟨code', out', err', execution'⟩ := r'
  obtain ⟨rfl, rfl, rfl, -⟩ := hr
  simp only at herr herr'
  rw [herr, herr', htold]

/-- The report of a command depends on the text and not on the way it came. -/
theorem execute_alike {t : Task} {s : String} {i j : Invocation} (hi : i.Delivers t s) (hj : j.Delivers t s)
    (h : i.SameSetting j) (clock : Clock) : Option.Rel (Alike i j) (i.execute clock) (j.execute clock) := by
  obtain ⟨a, ha, hloada⟩ := hi.loads
  obtain ⟨b, hb, hloadb⟩ := hj.loads
  cases t with
  | check =>
    simp only [execute, ha, hb, Task.command]
    exact .some (h.check_alike hloada hloadb)
  | run o =>
    simp only [execute, ha, hb, Task.command]
    exact h.run_alike hloada hloadb o clock

/-- What it means that the way in which a program text is handed over makes no difference. -/
structure DeliveryIrrelevant (s : String) : Prop where
  /-- Whatever the options, environment and configuration are, the code and the output are the same, and so
  is what stands on standard error, but for the layout of the log. -/
  alike {t : Task} {i j : Invocation} (hi : i.Delivers t s) (hj : j.Delivers t s) (h : i.SameSetting j)
    (clock : Clock) : Option.Rel (Alike i j) (i.execute clock) (j.execute clock)
  same {t : Task} {i j : Invocation} (hi : i.Delivers t s) (hj : j.Delivers t s) (h : i.SameSetting j)
    (hlog : i.surroundings.layout = j.surroundings.layout ∨ i.filter.Quiet) (clock : Clock) :
    i.execute clock = j.execute clock
  /-- A bracket without a partner is shown at its place in the text. -/
  checkFault {i : Invocation} {f : Fault} (hi : i.Delivers .check s)
    (hf : JumpTable.build (.ofSource s) = .error f) (clock : Clock) :
    ∃ text, Diagnostic.Tells i.reporter s f text ∧ i.execute clock = some ⟨1, [], text, none⟩
  runFault {o : RunOptions} {i : Invocation} {c : Config} {origin : Config.Origin} {f : Fault}
    (hi : i.Delivers (.run o) s) (hc : Config.load i.surroundings = .ok (c, origin))
    (hf : JumpTable.build (.ofSource s) = .error f) (clock : Clock) :
    ∃ events text, Diagnostic.Tells i.reporter s f text ∧
      i.execute clock = some ⟨1, [], i.told events ++ text, none⟩ ∧ (i.filter.Quiet → i.told events = "")
  /-- What is executed starts with nothing to read, and its faults are shown at their places in the text. -/
  execution {o : RunOptions} {i : Invocation} {c : Config} {origin : Config.Origin} {m : Machine}
    (hi : i.Delivers (.run o) s) (hc : Config.load i.surroundings = .ok (c, origin))
    (hm : Machine.ofSource s = .ok m) (clock : Clock) :
    let settings := Settings.resolve o i.surroundings.env c
    ∃ r, m.Executes settings.mode Device.hooks { limit := settings.maxSteps } (clock.fuel settings.timeoutMs)
        {} r ∧
      (r.ending = .unfinished → settings.timeoutMs = none → i.execute clock = none) ∧
      (r.Over → ∃ report, i.execute clock = some report ∧ i.Reports s r report)
  /-- Wherever such an execution reads, it finds the end of the input, which the policy decides about. -/
  input {m : Machine} (hm : Machine.ofSource s = .ok m) {mode : Mode} {c : Control Device} {st : Status}
    {k : ℕ} {q : State} {d : Device} (h : m.Passes mode Device.hooks c {} st k q d)
    (hi : m.program.get? q.cursor.position = some .input) :
    d.read.1 = .endOfInput ∧ mode.eof.Handles q ((m.engine Device.hooks mode.eof).step q d)
  /-- A file can be added to options that name no source. -/
  fileOption {t : Task} {options : List String} {path : String}
    (h : Command.ofArguments (t.name :: options) = .ok (t.command .stdin)) (hdashes : "--" ∉ options)
    (hpath : path ≠ "") (hvalue : isValue path = true) :
    Command.ofArguments (t.name :: (options ++ ["-f", path])) = .ok (t.command (.file path))

theorem delivery_irrelevant (s : String) : DeliveryIrrelevant s where
  alike := execute_alike
  same {t i j} hi hj h hlog clock := by
    have hrel := execute_alike hi hj h clock
    generalize i.execute clock = a, j.execute clock = b at hrel
    cases hrel with
    | none => rfl
    | some hr => rw [hr.eq h hlog]
  checkFault hi hf clock := by
    obtain ⟨source, hargs, hload⟩ := hi.loads
    refine ⟨_, Diagnostic.tells_unmatched _ hf, ?_⟩
    simp only [execute, hargs, Task.command, check_unmatched hload hf]
  runFault {o i c origin f} hi hc hf clock := by
    obtain ⟨source, hargs, hload⟩ := hi.loads
    refine ⟨Journal.opening c origin (Settings.resolve o i.surroundings.env c), _,
      Diagnostic.tells_unmatched _ hf, ?_, fun hq => told_eq hq (Journal.detail_opening _ _ _)⟩
    simp only [execute, hargs, Task.command, run, prepare_unmatched (o := { o with source := source }) hc hload hf]
    rfl
  execution {o i c origin m} hi hc hm clock := by
    obtain ⟨source, hargs, hload⟩ := hi.loads
    obtain ⟨hnone, -, hover⟩ := execute_reports (o := { o with source := source }) hargs hc hload hm clock
    rw [Stdin.device_empty] at hnone hover
    exact ⟨_, Machine.executes_iff.2 rfl, hnone, hover⟩
  input _ _ _ _ _ _ _ h hi := h.endOfInput ⟨rfl, rfl⟩ hi
  fileOption h hdashes hpath hvalue := Task.ofArguments_file _ h hdashes hpath hvalue

/-- `+,.` in three parts of which one is empty, in a file and on standard input, where the end of the input
is an error: each time the text's second instruction is reported. -/
theorem delivery_irrelevant_parts :
    let around (stdin : String) : Surroundings :=
      { env := fun _ => none, stdin := .bytes stdin.toUTF8
        file := fun path => if path = "p.bf" then .holds "+,.".toUTF8 else .missing }
    let call (arguments : List String) (stdin : String) : Invocation :=
      ⟨"tapevm", "run" :: "--eof" :: "error" :: arguments, around stdin⟩
    let code := call ["--", "+", "", ",."] ""
    let file := call ["-f", "p.bf"] ""
    let stdin := call [] "+,."
    (∀ clock, code.execute clock = file.execute clock ∧ file.execute clock = stdin.execute clock) ∧
    ∃ report, stdin.execute ⟨1, 9⟩ = some report ∧ report.exitCode = 1 ∧
      Diagnostic.Tells "tapevm" "+,." (.inputExhausted 1) report.stderr := by
  intro around call code file stdin
  let o : RunOptions := { source := .stdin, eof := some .error }
  have hoptions : Command.ofArguments ["run", "--eof", "error"] = .ok (.run o) := by decide
  have hparts : code.arguments = "run" :: (["--eof", "error"] ++ "--" :: ["+", "", ",."]) := rfl
  have hcode : code.Delivers (.run o) "+,." := .code hparts hoptions (by decide) (by decide) rfl rfl
  have hfileargs : Command.ofArguments file.arguments = .ok ((Task.run o).command (.file "p.bf")) :=
    (delivery_irrelevant "").fileOption (t := .run o) hoptions (by decide) (by decide) (by decide)
  have hfile : file.Delivers (.run o) "+,." := .file hfileargs rfl rfl
  have hstdin : stdin.Delivers (.run o) "+,." := .stdin hoptions rfl
  have h := delivery_irrelevant "+,."
  refine ⟨fun clock => ⟨h.same hcode hfile ⟨rfl, rfl, rfl, rfl, rfl⟩ (.inl rfl) clock,
    h.same hfile hstdin ⟨rfl, rfl, rfl, rfl, rfl⟩ (.inl rfl) clock⟩, ?_⟩
  have hbuild : JumpTable.build (.ofSource "+,.") = .ok ⟨#[none, none, none]⟩ := by decide
  have hend : (Machine.run ⟨.ofSource "+,.", ⟨#[none, none, none]⟩, by decide⟩ ⟨.byte, .error⟩ Device.hooks
      {} 9 {}).ending = .stopped (.inputExhausted 1) := by decide
  have hconfig : Config.load stdin.surroundings = .ok ({}, .none) := rfl
  obtain ⟨r, hr, -, hreport⟩ := h.execution hstdin hconfig (Machine.ofProgram_ok hbuild) ⟨1, 9⟩
  have hend : r.ending = .stopped (.inputExhausted 1) := by
    rw [Machine.executes_iff.1 hr]
    exact hend
  obtain ⟨report, hsome, hof⟩ := hreport (fun h => by cases h.symm.trans hend)
  obtain ⟨events, words, herr, hwords, hlog⟩ := hof.stderr
  have hname : stdin.reporter = "tapevm" := by decide
  rw [hend, hname] at hwords
  rw [hlog (quiet_of_unset rfl), String.empty_append] at herr
  refine ⟨report, hsome, hof.exitCode.trans (if_neg (by simp [hend])), ?_⟩
  cases hwords with
  | fault htells => rwa [herr]

end Invocation

end Cli

end TapeMachine
