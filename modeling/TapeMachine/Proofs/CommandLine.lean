import TapeMachine.Cli.Arguments
import Mathlib.Tactic

/-! Command lines that hand over a program text. Arguments are read one by one, so those in front of `--`
are read as if they stood alone, and everything behind it is program text, also when it is empty or looks
like an option. Options that name no source therefore make the same command with program text or a file
behind them, but for the source. -/

namespace TapeMachine.Cli

/-- Only the argument `--` ends the options. -/
theorem Argument.eq_of_endOfOptions {parameters : List Parameter} {s : String}
    (h : Argument.ofString parameters s = .endOfOptions) : s = "--" := by
  unfold Argument.ofString at h
  split at h
  · cases h
  · rename_i hs
    exact String.toList_injective hs
  · split_ifs at h
    dsimp only at h
    split at h <;> cases h
  all_goals cases h

namespace Split

/-- The options and the program text of two parts of a command line, of which only the second may ask for
help. -/
def append (s t : Split) : Split := ⟨s.options ++ t.options, s.parts ++ t.parts, t.help⟩

theorem eq_of_map_ok {f : Split → Split} {x : Except UsageFault Split} {s : Split} (h : x.map f = .ok s) :
    ∃ t, x = .ok t ∧ f t = s := by
  cases x with
  | error fault => cases h
  | ok t => exact ⟨t, rfl, Except.ok.inj h⟩

/-! The first of the arguments, by what it is. -/

variable {parameters : List Parameter} {argument : String}

theorem ofArguments_pending {p : Parameter} {value : String}
    (ha : Argument.ofString parameters argument = .pending p) (hv : isValue value = true)
    (rest : List String) : ofArguments parameters (argument :: value :: rest) =
      (ofArguments parameters rest).map (addOption p value) := by
  rw [ofArguments.eq_def]
  simp only [ha, hv, if_true]

theorem ofArguments_option {p : Parameter} {value : String}
    (ha : Argument.ofString parameters argument = .option p value) (rest : List String) :
    ofArguments parameters (argument :: rest) = (ofArguments parameters rest).map (addOption p value) := by
  rw [ofArguments.eq_def]
  simp only [ha]

theorem ofArguments_text {part : String} (ha : Argument.ofString parameters argument = .text part)
    (rest : List String) : ofArguments parameters (argument :: rest) =
      (ofArguments parameters rest).map (addPart part) := by
  rw [ofArguments.eq_def]
  simp only [ha]

theorem ofArguments_dashes (parameters : List Parameter) (parts : List String) :
    ofArguments parameters ("--" :: parts) = .ok { parts := parts } := rfl

theorem ofArguments_file (parameters : List Parameter) {path : String} (h : isValue path = true) :
    ofArguments parameters ["-f", path] = .ok { options := [(.file, path)] } :=
  ofArguments_pending rfl h []

/-- Arguments that do not end the options are read as if they stood alone. -/
theorem ofArguments_append {arguments : List String} {s : Split}
    (h : ofArguments parameters arguments = .ok s) (hdashes : "--" ∉ arguments) (hhelp : s.help = false)
    (rest : List String) :
    ofArguments parameters (arguments ++ rest) = (ofArguments parameters rest).map s.append := by
  fun_induction ofArguments parameters arguments generalizing s with
  | case1 =>
    cases h
    cases hr : ofArguments parameters rest with
    | error | ok => rw [List.nil_append, hr]; rfl
  | case2 argument arguments ha =>
    cases Argument.eq_of_endOfOptions ha
    simp at hdashes
  | case3 argument arguments ha =>
    cases h
    cases hhelp
  | case4 argument arguments ha => cases h
  | case5 argument p ha => cases h
  | case6 argument p value arguments ha hv ih =>
    obtain ⟨t, ht, rfl⟩ := eq_of_map_ok h
    have hrest := ih ht (fun hin => hdashes (by simp [hin])) hhelp
    rw [List.cons_append, List.cons_append, ofArguments_pending ha hv, hrest]
    cases ofArguments parameters rest <;> rfl
  | case7 argument p value arguments ha hv => cases h
  | case8 argument p value arguments ha ih =>
    obtain ⟨t, ht, rfl⟩ := eq_of_map_ok h
    have hrest := ih ht (fun hin => hdashes (by simp [hin])) hhelp
    rw [List.cons_append, ofArguments_option ha, hrest]
    cases ofArguments parameters rest <;> rfl
  | case9 argument part arguments ha ih =>
    obtain ⟨t, ht, rfl⟩ := eq_of_map_ok h
    have hrest := ih ht (fun hin => hdashes (by simp [hin])) hhelp
    rw [List.cons_append, ofArguments_text ha, hrest]
    cases ofArguments parameters rest <;> rfl

/-! The values of options. -/

variable {α : Type}

theorem value?_append {s t : Split} {p : Parameter} (h : t.options.filter (fun o => o.1 = p) = [])
    (read : String → Option α) : (s.append t).value? p read = s.value? p read := by
  simp only [value?, append, List.filter_append, h, List.append_nil]

/-- A parameter that has no value was not given. -/
theorem filter_of_value?_none {s : Split} {p : Parameter} {read : String → Option α}
    (h : s.value? p read = .ok none) : s.options.filter (fun o => o.1 = p) = [] := by
  unfold value? at h
  split at h
  · assumption
  · split at h <;> cases h
  · cases h

theorem source_eq_stdin {s : Split} {file : Option String} (h : s.source file = .ok .stdin) :
    file = none ∧ s.parts = [] := by
  unfold source at h
  split at h
  · cases h
  · cases h
  · exact ⟨rfl, ‹_›⟩
  · cases h

theorem source_code {s : Split} (h : s.parts ≠ []) : s.source none = .ok (.code (String.join s.parts)) := by
  unfold source
  split <;> simp_all

end Split

namespace Command

theorem ofCheckSplit_eq_check {s : Split} {source : Source} : ofCheckSplit s = .ok (.check source) ↔
    ∃ file, s.value? .file pathOfName? = .ok file ∧ s.help = false ∧ s.source file = .ok source := by
  unfold ofCheckSplit
  cases s.value? .file pathOfName? with
  | error fault => simp [bind, Except.bind]
  | ok file =>
    cases s.help with
    | true => simp [bind, Except.bind, pure, Except.pure]
    | false =>
      simp only [bind, Except.bind, pure, Except.pure, Except.ok.injEq, Bool.false_eq_true, if_false,
        exists_eq_left', true_and]
      cases s.source file <;> simp

theorem ofRunSplit_eq_run {s : Split} {o : RunOptions} : ofRunSplit s = .ok (.run o) ↔
    ∃ file, s.value? .file pathOfName? = .ok file ∧ s.value? .timeout Number.count? = .ok o.timeoutMs ∧
      s.value? .maxSteps Number.count? = .ok o.maxSteps ∧ s.value? .eof eofOfName? = .ok o.eof ∧
      s.value? .cellWidth widthOfName? = .ok o.width ∧ s.help = false ∧ s.source file = .ok o.source := by
  unfold ofRunSplit
  cases s.value? .file pathOfName? with
  | error fault => simp [bind, Except.bind]
  | ok file =>
  cases s.value? .timeout Number.count? with
  | error fault => simp [bind, Except.bind]
  | ok timeoutMs =>
  cases s.value? .maxSteps Number.count? with
  | error fault => simp [bind, Except.bind]
  | ok maxSteps =>
  cases s.value? .eof eofOfName? with
  | error fault => simp [bind, Except.bind]
  | ok eof =>
  cases s.value? .cellWidth widthOfName? with
  | error fault => simp [bind, Except.bind]
  | ok width =>
  cases s.help with
  | true => simp [bind, Except.bind, pure, Except.pure]
  | false =>
    simp only [bind, Except.bind, pure, Except.pure, Except.ok.injEq, Bool.false_eq_true, if_false,
      exists_eq_left', true_and]
    cases s.source file with
    | error fault => simp
    | ok source =>
      obtain ⟨⟩ := o
      simp only [Except.ok.injEq, run.injEq, RunOptions.mk.injEq]
      tauto

end Command

/-- A part of a command line that holds a source and nothing else. -/
structure Split.Gives (t : Split) (source : Source) : Prop where
  help : t.help = false
  others : ∀ p, p ≠ .file → t.options.filter (fun o => o.1 = p) = []
  given : ∀ s : Split, s.options.filter (fun o => o.1 = .file) = [] → s.parts = [] →
    ∃ file, (s.append t).value? .file pathOfName? = .ok file ∧ (s.append t).source file = .ok source

namespace Split

theorem gives_code {parts : List String} (h : parts ≠ []) :
    Gives { parts := parts } (.code (String.join parts)) where
  help := rfl
  others _ _ := rfl
  given s hfile hparts := by
    refine ⟨none, ?_, ?_⟩
    · rw [value?_append rfl]
      simp only [value?, hfile]
    · have hp : (s.append { parts := parts }).parts = parts := by simp [append, hparts]
      rw [source_code (by rwa [hp]), hp]

theorem gives_file {path : String} (h : path ≠ "") : Gives { options := [(.file, path)] } (.file path) where
  help := rfl
  others p hp := by simp [Ne.symm hp]
  given s hfile hparts := by
    refine ⟨some path, ?_, ?_⟩
    · simp [value?, append, hfile, pathOfName?, h]
    · simp [source, append, hparts]

end Split

/-- A command that is about a program text, whatever its source. -/
inductive Task where
  | check
  | run (options : RunOptions)

namespace Task

def name : Task → String
  | check => "check"
  | run _ => "run"

def parameters : Task → List Parameter
  | check => checkParameters
  | run _ => runParameters

def ofSplit : Task → Split → Except UsageFault Command
  | check => Command.ofCheckSplit
  | run _ => Command.ofRunSplit

/-- The task for a text from this source. -/
def command : Task → Source → Command
  | check, source => .check source
  | run o, source => .run { o with source := source }

theorem ofArguments_eq (t : Task) (arguments : List String) :
    Command.ofArguments (t.name :: arguments) = (Split.ofArguments t.parameters arguments).bind t.ofSplit := by
  cases t with
  | check =>
    simp only [name, parameters, Command.ofArguments]
    cases Split.ofArguments checkParameters arguments <;> rfl
  | run o =>
    simp only [name, parameters, Command.ofArguments]
    cases Split.ofArguments runParameters arguments <;> rfl

theorem help_of_ofSplit {t : Task} {s : Split} {source : Source} (h : t.ofSplit s = .ok (t.command source)) :
    s.help = false := by
  cases t with
  | check =>
    obtain ⟨-, -, hhelp, -⟩ := Command.ofCheckSplit_eq_check.1 h
    exact hhelp
  | run o =>
    obtain ⟨-, -, -, -, -, -, hhelp, -⟩ := Command.ofRunSplit_eq_run.1 h
    exact hhelp

/-- Adding a source to options that name none leaves everything else as it is. -/
theorem ofSplit_append {t : Task} {s given : Split} {source : Source} (hgiven : given.Gives source)
    (h : t.ofSplit s = .ok (t.command .stdin)) : t.ofSplit (s.append given) = .ok (t.command source) := by
  cases t with
  | check =>
    obtain ⟨file, hfile, -, hsource⟩ := Command.ofCheckSplit_eq_check.1 h
    obtain ⟨rfl, hparts⟩ := Split.source_eq_stdin hsource
    obtain ⟨file, hfile', hsource'⟩ := hgiven.given s (Split.filter_of_value?_none hfile) hparts
    exact Command.ofCheckSplit_eq_check.2 ⟨file, hfile', hgiven.help, hsource'⟩
  | run o =>
    obtain ⟨file, hfile, htimeout, hmax, heof, hwidth, -, hsource⟩ := Command.ofRunSplit_eq_run.1 h
    obtain ⟨rfl, hparts⟩ := Split.source_eq_stdin hsource
    obtain ⟨file, hfile', hsource'⟩ := hgiven.given s (Split.filter_of_value?_none hfile) hparts
    rw [← Split.value?_append (hgiven.others _ (by decide))] at htimeout hmax heof hwidth
    exact Command.ofRunSplit_eq_run.2 ⟨file, hfile', htimeout, hmax, heof, hwidth, hgiven.help, hsource'⟩

/-- Behind options that name no source, a part that gives one makes the same command for this source. -/
theorem ofArguments_append (t : Task) {options rest : List String} {given : Split} {source : Source}
    (h : Command.ofArguments (t.name :: options) = .ok (t.command .stdin)) (hdashes : "--" ∉ options)
    (hrest : Split.ofArguments t.parameters rest = .ok given) (hgiven : given.Gives source) :
    Command.ofArguments (t.name :: (options ++ rest)) = .ok (t.command source) := by
  rw [ofArguments_eq] at h ⊢
  cases hs : Split.ofArguments t.parameters options with
  | error fault =>
    rw [hs] at h
    cases h
  | ok s =>
    rw [hs] at h
    rw [Split.ofArguments_append hs hdashes (help_of_ofSplit h), hrest]
    exact ofSplit_append hgiven h

variable (t : Task) {options : List String}
  (h : Command.ofArguments (t.name :: options) = .ok (t.command .stdin)) (hdashes : "--" ∉ options)

include h hdashes

/-- Parts of program text behind `--` are joined. -/
theorem ofArguments_code {parts : List String} (hparts : parts ≠ []) :
    Command.ofArguments (t.name :: (options ++ "--" :: parts)) = .ok (t.command (.code (String.join parts))) :=
  t.ofArguments_append h hdashes (Split.ofArguments_dashes _ parts) (Split.gives_code hparts)

theorem ofArguments_file {path : String} (hpath : path ≠ "") (hvalue : isValue path = true) :
    Command.ofArguments (t.name :: (options ++ ["-f", path])) = .ok (t.command (.file path)) :=
  t.ofArguments_append h hdashes (Split.ofArguments_file _ hvalue) (Split.gives_file hpath)

end Task

end TapeMachine.Cli
