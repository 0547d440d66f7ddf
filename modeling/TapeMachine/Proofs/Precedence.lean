import Mathlib
import TapeMachine.Proofs.Clauses
import TapeMachine.Proofs.Options
import TapeMachine.Proofs.Report

/-! The step limit of the `run` command. It may come from an option, from an environment variable or from
the configuration, in this order, and a variable that denotes no number is passed over as if it were unset.
The command then reports the run under the limit that results, and with a limit it always has one to
report. -/

namespace TapeMachine

namespace Number

/-- A text of decimal digits, the first of which may stand behind a plus sign, with a value below
`2 ^ 64`. -/
def Denotes (s : String) (n : ℕ) : Prop :=
  ∃ digits : List ℕ, digits ≠ [] ∧ (∀ d ∈ digits, d < 10) ∧
    (s.toList = digits.map Nat.digitChar ∨ s.toList = '+' :: digits.map Nat.digitChar) ∧
    n = Nat.ofDigits 10 digits.reverse ∧ n < 2 ^ 64

theorem digitChar_of_isDigit {c : Char} (h : c.isDigit) :
    c.toNat - '0'.toNat < 10 ∧ Nat.digitChar (c.toNat - '0'.toNat) = c := by
  obtain ⟨hlo, hhi⟩ := Char.isDigit_iff_toNat.1 h
  have hnine : '9'.toNat = '0'.toNat + 9 := rfl
  have hlt : c.toNat - '0'.toNat < 10 := by omega
  have hzero : '0'.toNat = 48 := rfl
  refine ⟨hlt, Char.toNat_inj.1 ?_⟩
  rw [Nat.toNat_digitChar_of_lt_ten hlt]
  omega

/-- The value of digits, read from the first one on. -/
theorem foldl_digitChar {digits : List ℕ} (h : ∀ d ∈ digits, d < 10) :
    (digits.map Nat.digitChar).foldl (fun n c => n * 10 + (c.toNat - '0'.toNat)) 0 =
      Nat.ofDigits 10 digits.reverse := by
  rw [List.foldl_map, Nat.ofDigits_eq_foldr, List.foldr_reverse]
  refine List.foldl_ext _ _ _ fun n d hd => ?_
  have hvalue : (Nat.digitChar d).toNat - '0'.toNat = d := Nat.toNat_digitChar_sub_48_of_lt_ten (h d hd)
  rw [hvalue, Nat.add_comm, Nat.mul_comm]
  rfl

theorem digitsValue?_eq_some {cs : List Char} {n : ℕ} :
    digitsValue? cs = some n ↔ ∃ digits : List ℕ, digits ≠ [] ∧ (∀ d ∈ digits, d < 10) ∧
      cs = digits.map Nat.digitChar ∧ n = Nat.ofDigits 10 digits.reverse := by
  unfold digitsValue?
  constructor
  · intro h
    split_ifs at h with hcs
    rw [Bool.and_eq_true, Bool.not_eq_true', List.isEmpty_eq_false_iff, List.all_eq_true] at hcs
    obtain ⟨hne, hdigits⟩ := hcs
    have hlt : ∀ d ∈ cs.map fun c => c.toNat - '0'.toNat, d < 10 := by
      intro d hd
      obtain ⟨c, hc, rfl⟩ := List.mem_map.1 hd
      exact (digitChar_of_isDigit (hdigits c hc)).1
    have hback : cs = (cs.map fun c => c.toNat - '0'.toNat).map Nat.digitChar := by
      rw [List.map_map]
      exact (List.map_congr_left fun c hc => (digitChar_of_isDigit (hdigits c hc)).2).trans
        (List.map_id cs) |>.symm
    refine ⟨_, by simpa using hne, hlt, hback, ?_⟩
    rw [← foldl_digitChar hlt, ← hback]
    exact (Option.some.inj h).symm
  · rintro ⟨digits, hne, hlt, rfl, rfl⟩
    rw [if_pos, foldl_digitChar hlt]
    simpa [Nat.isDigit_digitChar, hne] using hlt

theorem plus_notMem_digits {digits : List ℕ} (h : ∀ d ∈ digits, d < 10) :
    '+' ∉ digits.map Nat.digitChar := by
  intro hmem
  obtain ⟨d, hd, hplus⟩ := List.mem_map.1 hmem
  have hdigit : (Nat.digitChar d).isDigit := by simpa [Nat.isDigit_digitChar] using h d hd
  rw [hplus] at hdigit
  exact absurd hdigit (by decide)

theorem count?_eq_some {s : String} {n : ℕ} : count? s = some n ↔ Denotes s n := by
  have hdigits (cs : List Char) : (digitsValue? cs).filter (fun n => n < UInt64.size) = some n ↔
      ∃ digits : List ℕ, digits ≠ [] ∧ (∀ d ∈ digits, d < 10) ∧ cs = digits.map Nat.digitChar ∧
        n = Nat.ofDigits 10 digits.reverse ∧ n < 2 ^ 64 := by
    rw [Option.filter_eq_some_iff, digitsValue?_eq_some, decide_eq_true_eq]
    constructor
    · rintro ⟨⟨digits, hne, hlt, hcs, hn⟩, hsize⟩
      exact ⟨digits, hne, hlt, hcs, hn, hsize⟩
    · rintro ⟨digits, hne, hlt, hcs, hn, hsize⟩
      exact ⟨⟨digits, hne, hlt, hcs, hn⟩, hsize⟩
  unfold count? countOfChars? Denotes
  split
  · rename_i cs hcs
    rw [hdigits]
    constructor
    · rintro ⟨digits, hne, hlt, rfl, hn, hsize⟩
      exact ⟨digits, hne, hlt, .inr hcs, hn, hsize⟩
    · rintro ⟨digits, hne, hlt, htext | htext, hn, hsize⟩
      · exact absurd (htext ▸ hcs ▸ List.mem_cons_self) (plus_notMem_digits hlt)
      · exact ⟨digits, hne, hlt, (List.cons.inj (hcs.symm.trans htext)).2, hn, hsize⟩
  · rename_i hplus
    rw [hdigits]
    constructor
    · rintro ⟨digits, hne, hlt, hcs, hn, hsize⟩
      exact ⟨digits, hne, hlt, .inl hcs, hn, hsize⟩
    · rintro ⟨digits, hne, hlt, htext | htext, hn, hsize⟩
      · exact ⟨digits, hne, hlt, htext, hn, hsize⟩
      · exact absurd htext (hplus _)

example : count? "+018446744073709551615" = some (2 ^ 64 - 1) ∧ count? "18446744073709551616" = none := by
  decide

end Number

namespace Cli

/-- The step limit that results from the option, the environment variable and the configuration. -/
inductive LimitInForce (option : Option ℕ) (env : Option String) (config : Option ℕ) : Option ℕ → Prop
  | option {n : ℕ} (h : option = some n) : LimitInForce option env config (some n)
  | env {s : String} {n : ℕ} (ho : option = none) (he : env = some s) (hn : Number.Denotes s n) :
    LimitInForce option env config (some n)
  | config (ho : option = none) (he : ∀ s, env = some s → ∀ n, ¬ Number.Denotes s n) :
    LimitInForce option env config config

theorem limitInForce_iff {option : Option ℕ} {env : Option String} {config limit : Option ℕ} :
    LimitInForce option env config limit ↔ (option.or (env.bind Number.count?)).or config = limit := by
  constructor
  · rintro (h | ⟨ho, he, hn⟩ | ⟨ho, he⟩)
    · rw [h]
      rfl
    · rw [ho, he, Option.bind_some, Number.count?_eq_some.2 hn]
      rfl
    · have hnone : env.bind Number.count? = none := by
        rw [Option.eq_none_iff_forall_ne_some]
        intro n hn
        obtain ⟨s, hs, hcount⟩ := Option.bind_eq_some_iff.1 hn
        exact he s hs n (Number.count?_eq_some.1 hcount)
      rw [ho, hnone]
      rfl
  · rintro rfl
    cases ho : option with
    | some n => exact .option rfl
    | none =>
      cases he : env.bind Number.count? with
      | some n =>
        obtain ⟨s, rfl, hcount⟩ := Option.bind_eq_some_iff.1 he
        exact .env rfl rfl (Number.count?_eq_some.1 hcount)
      | none =>
        refine .config rfl fun s hs n hn => ?_
        rw [hs, Option.bind_some, Number.count?_eq_some.2 hn] at he
        cases he

open Config (widthLabel eofLabel)

/-- A `run` with these arguments, in this environment and with this configuration, executes its program under
this limit and in this mode. -/
structure Invocation.RunsUnder (i : Invocation) (c : Config) (limit : Option ℕ) (mode : Mode) : Prop where
  limit : ∃ flag, Stated "--max-steps" Number.Denotes i.arguments flag ∧
    LimitInForce flag (i.surroundings.env "TAPEVM_MAX_STEPS") c.limits.maxSteps limit
  width : ∃ flag, Stated "--cell-width" (fun v w => v = widthLabel w) i.arguments flag ∧
    mode.width = flag.getD c.machine.width
  eof : ∃ flag, Stated "--eof" (fun v p => v = eofLabel p) i.arguments flag ∧
    mode.eof = flag.getD c.machine.eof

theorem widthOfName?_eq_some {v : String} {w : CellWidth} : widthOfName? v = some w ↔ v = widthLabel w := by
  unfold widthOfName?
  split <;> cases w <;> simp_all [widthLabel]

theorem eofOfName?_eq_some {v : String} {p : EofPolicy} : eofOfName? v = some p ↔ v = eofLabel p := by
  unfold eofOfName?
  split <;> cases p <;> simp_all [eofLabel]

/-- The settings that are made of an accepted command are those under which it runs. -/
theorem Invocation.runsUnder_iff {i : Invocation} {o : RunOptions}
    (hargs : Command.ofArguments i.arguments = .ok (.run o)) {c : Config} {limit : Option ℕ} {mode : Mode} :
    i.RunsUnder c limit mode ↔ (Settings.resolve o i.surroundings.env c).maxSteps = limit ∧
      (Settings.resolve o i.surroundings.env c).mode = mode := by
  obtain ⟨rest, s, hrun, hs, ho⟩ := Command.exists_split hargs
  obtain ⟨file, -, -, hmax, heof, hwidth, hhelp, -⟩ := Command.ofRunSplit_eq_run.1 ho
  have hlimit (x : Option ℕ) : Stated "--max-steps" Number.Denotes i.arguments x ↔ o.maxSteps = x := by
    rw [hrun]
    exact stated_iff (p := .maxSteps) (fun _ _ => Number.count?_eq_some) (by decide) hs hhelp hmax
  have hwidths (x : Option CellWidth) :
      Stated "--cell-width" (fun v w => v = widthLabel w) i.arguments x ↔ o.width = x := by
    rw [hrun]
    exact stated_iff (p := .cellWidth) (fun _ _ => widthOfName?_eq_some) (by decide) hs hhelp hwidth
  have heofs (x : Option EofPolicy) : Stated "--eof" (fun v p => v = eofLabel p) i.arguments x ↔ o.eof = x := by
    rw [hrun]
    exact stated_iff (p := .eof) (fun _ _ => eofOfName?_eq_some) (by decide) hs hhelp heof
  constructor
  · rintro ⟨⟨flag, hflag, hinforce⟩, ⟨width, hwidth, hw⟩, ⟨eof, heof, he⟩⟩
    obtain rfl := (hlimit flag).1 hflag
    obtain rfl := (hwidths width).1 hwidth
    obtain rfl := (heofs eof).1 heof
    exact ⟨limitInForce_iff.1 hinforce, (Mode.mk.injEq ..).mpr ⟨hw.symm, he.symm⟩⟩
  · rintro ⟨rfl, rfl⟩
    exact ⟨⟨_, (hlimit _).2 rfl, limitInForce_iff.2 rfl⟩, ⟨_, (hwidths _).2 rfl, rfl⟩,
      ⟨_, (heofs _).2 rfl, rfl⟩⟩

/-- The limit in force is the one that the option is given, or else the number that the environment variable
denotes, or else the one of the configuration, if any. A command without a timeout whose text has its brackets
matched reports what its machine returns under this limit, with the width and the policy that the options are
given or else the configuration has. With a limit, as many steps are enough for a report. -/
theorem limit_in_force_decides {i : Invocation} {o : RunOptions}
    (hargs : Command.ofArguments i.arguments = .ok (.run o)) :
    (∀ (c : Config) (limit : Option ℕ) (mode : Mode), i.RunsUnder c limit mode ↔
      (Settings.resolve o i.surroundings.env c).maxSteps = limit ∧
        (Settings.resolve o i.surroundings.env c).mode = mode) ∧
    ∀ (c : Config) (origin : Config.Origin) (s : String) (rest : Stdin),
      Config.load i.surroundings = .ok (c, origin) → o.source.load i.surroundings = (.ok s, rest) →
      Balanced (Program.ofSource s).toList → (Settings.resolve o i.surroundings.env c).timeoutMs = none →
      ∃ m, Machine.ofSource s = .ok m ∧ ∀ limit mode, i.RunsUnder c limit mode →
        let returns := m.Returns mode Device.hooks { limit := limit } rest.device
        (∀ r, returns r → ∃ patience, ∀ clock : Invocation.Clock, patience ≤ clock.patience →
          ∃ report, i.execute clock = some report ∧ i.Reports s r report) ∧
        (∀ clock report, i.execute clock = some report → ∃ r, returns r ∧ i.Reports s r report) ∧
        ∀ n, limit = some n → ∀ clock : Invocation.Clock, n ≤ clock.patience →
          ∃ report, i.execute clock = some report := by
  refine ⟨fun c limit mode => Invocation.runsUnder_iff hargs, fun c origin s rest hc hs hb htime => ?_⟩
  obtain ⟨t, ht⟩ := (JumpTable.build_ok_iff _).2 hb
  have hm := Machine.ofProgram_ok ht
  refine ⟨_, hm, fun limit mode hunder => ?_⟩
  obtain ⟨rfl, rfl⟩ := (Invocation.runsUnder_iff hargs).1 hunder
  intro returns
  have huntimed (clock : Invocation.Clock) := Invocation.execute_untimed hargs hc hs hm htime clock
  have hreport (clock : Invocation.Clock) :
      let r := Machine.run ⟨.ofSource s, t, ht⟩ (Settings.resolve o i.surroundings.env c).mode Device.hooks
        { limit := (Settings.resolve o i.surroundings.env c).maxSteps } clock.patience rest.device
      r.Over → ∃ report, i.execute clock = some report ∧ i.Reports s r report := by
    intro r hover
    obtain ⟨hnone, hof⟩ := huntimed clock
    obtain ⟨report, hexec⟩ := Option.ne_none_iff_exists'.1 (mt hnone.1 hover)
    exact ⟨report, hexec, hof report hexec⟩
  refine ⟨fun r hr => ?_, fun clock report hexec => ?_, fun n hn clock hpatience => ?_⟩
  · obtain ⟨fuel, heventually⟩ := hr.eventually
    refine ⟨fuel, fun clock hfuel => ?_⟩
    have h := hreport clock
    rw [heventually _ hfuel] at h
    exact h hr.1
  · obtain ⟨hnone, hof⟩ := huntimed clock
    exact ⟨_, ⟨fun h => (by cases (hnone.2 h).symm.trans hexec), clock.patience, rfl⟩, hof report hexec⟩
  · have h := hreport clock
    rw [hn] at h
    obtain ⟨report, hexec, -⟩ := h (Machine.run_limit_over _ _ _ _ hpatience)
    exact ⟨report, hexec⟩

/-- `+[]`, which goes on for ever, with a limit in the configuration and a number with a minus sign in the
environment: without the option the limit is that of the configuration. -/
theorem limit_in_force_decides_minus :
    let around : Surroundings := {
      env := fun name =>
        if name = "TAPEVM_CONFIG" then some "c.toml"
        else if name = "TAPEVM_MAX_STEPS" then some "-1"
        else none
      file := fun path =>
        if path = "c.toml" then .holds "[limits]\nmax_steps = 3\n".toUTF8 else .missing
      stdin := .bytes .empty }
    let call (options : List String) : Invocation := ⟨"tapevm", "run" :: options ++ ["+[]"], around⟩
    (∃ report, (call []).execute ⟨1, 3⟩ = some report ∧ report.exitCode = 1 ∧ report.stdout = [] ∧
      report.stderr = "Execution aborted: step limit exceeded (3)\n") ∧
    ∃ report, (call ["--max-steps", "2"]).execute ⟨1, 3⟩ = some report ∧ report.exitCode = 1 ∧
      report.stdout = [] ∧ report.stderr = "Execution aborted: step limit exceeded (2)\n" := by
  intro around call
  let c : Config := { limits := { maxSteps := some 3 } }
  have hconfig : Config.load around = .ok (c, .file "c.toml") := by
    have hfile : around.file "c.toml" = .holds "[limits]\nmax_steps = 3\n".toUTF8 := rfl
    have htext : Config.ofText {} "[limits]\nmax_steps = 3\n" = .ok c := by cbv
    have henv : around.env "TAPEVM_CONFIG" = some "c.toml" := rfl
    have hreader : around.reader = {} := rfl
    simp only [Config.load, henv, hfile, hreader, Config.ofFile, FileState.text, textOfBytes_toUTF8, htext]
    rfl
  have hbuild : JumpTable.build (.ofSource "+[]") = .ok ⟨#[none, some 2, some 1]⟩ := by decide
  have hbalanced : Balanced (Program.ofSource "+[]").toList := (JumpTable.build_ok_iff _).1 ⟨_, hbuild⟩
  -- the limits 2 and 3 are reported in the same way
  have hreport (options : List String) (flag : Option ℕ) (n : ℕ) (hn : n ≤ 3)
      (hargs : Command.ofArguments (call options).arguments =
        .ok (.run { source := .code "+[]", maxSteps := flag }))
      (hflag : (flag.or none).or (some 3) = some n)
      (hend : (Machine.run ⟨.ofSource "+[]", ⟨#[none, some 2, some 1]⟩, by decide⟩ {} Device.hooks
        { limit := some n } 3 {}).ending = .stopped (.stepLimitExceeded n))
      (hout : (Machine.run ⟨.ofSource "+[]", ⟨#[none, some 2, some 1]⟩, by decide⟩ {} Device.hooks
        { limit := some n } 3 {}).world.written = #[]) :
      ∃ report, (call options).execute ⟨1, 3⟩ = some report ∧ report.exitCode = 1 ∧ report.stdout = [] ∧
        report.stderr = "Execution aborted: step limit exceeded (" ++ toString n ++ ")\n" := by
    obtain ⟨hunder, hruns⟩ := limit_in_force_decides hargs
    obtain ⟨m, hm, hall⟩ := hruns c _ _ _ hconfig rfl hbalanced rfl
    cases (Machine.ofProgram_ok hbuild).symm.trans hm
    obtain ⟨-, hreports, hsome⟩ := hall (some n) {} ((hunder c _ _).2 ⟨hflag, rfl⟩)
    rw [Stdin.device_empty] at hreports
    obtain ⟨report, hreport⟩ := hsome n rfl ⟨1, 3⟩ hn
    obtain ⟨r, hr, hof⟩ := hreports _ _ hreport
    obtain rfl := hr.unique ⟨fun h => (by cases h.symm.trans hend), 3, rfl⟩
    obtain ⟨events, words, herr, hwords, hlog⟩ := hof.stderr
    have hquiet : (call options).filter.Quiet := Invocation.quiet_of_unset rfl
    rw [hlog hquiet, String.empty_append] at herr
    rw [hend] at hwords
    refine ⟨report, hreport, hof.exitCode.trans (if_neg (by simp [hend])), ?_, ?_⟩
    · rw [hof.stdout, hout]
    · cases hwords with
      | limit => exact herr
      | fault htells => cases htells with
        | intro hf => cases hf
  exact ⟨hreport [] none 3 le_rfl (by decide) rfl (by decide) (by decide),
    hreport ["--max-steps", "2"] (some 2) 2 (by decide) (by decide) rfl (by decide) (by decide)⟩

end Cli

end TapeMachine
