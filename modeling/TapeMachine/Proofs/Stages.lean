import TapeMachine.Cli.Invocation
import TapeMachine.Proofs.Message
import TapeMachine.Proofs.Safety

/-! The stages of a command. Once the configuration and the source of a `run` are there, the brackets
decide: a bracket without a partner ends the command before there is a machine, so nothing is executed, and
otherwise what follows is the run of the machine. What is told of the work on the way is not seen unless a
filter asks for the detail. For `check` the brackets decide too, and nothing has been told before. -/

namespace TapeMachine

namespace Log

/-- No directive asks for events of the level debug or below. -/
def Filter.Quiet (f : Filter) : Prop := ∀ d ∈ f, d.detail < Level.debug.detail

theorem Filter.mem_of_deciding? {f : Filter} {e : Event} {d : Directive} (h : f.deciding? e = some d) :
    d ∈ f := by
  have key : ∀ best, f.deciding? e = some best → best ∈ f := by
    unfold deciding?
    refine List.foldlRecOn _ _ (motive := fun b => ∀ best, b = some best → best ∈ f) (by simp) ?_
    intro b hb a ha best hbest
    split_ifs at hbest
    · cases hbest
      exact (List.mem_filter.1 ha).1
    · exact hb best hbest
  exact key d h

/-- A quiet filter writes nothing of events that are details. -/
theorem Filter.Quiet.render_eq {f : Filter} (h : f.Quiet) (layout : ℕ → Event → String) {events : List Event}
    (he : ∀ e ∈ events, Level.debug.detail ≤ e.level.detail) : f.render layout events = "" := by
  have hnone : events.filter f.admits = [] := by
    rw [List.filter_eq_nil_iff]
    intro e hmem hadm
    simp only [admits, Option.any_eq_true, decide_eq_true_eq] at hadm
    obtain ⟨d, hd, hle⟩ := hadm
    have hlow := h d (mem_of_deciding? hd)
    have hhigh := he e hmem
    omega
  rw [render, hnone]
  rfl

end Log

namespace Machine

theorem ofProgram_error {p : Program} {f : Fault} (h : JumpTable.build p = .error f) :
    ofProgram p = .error f := by
  unfold ofProgram
  split
  · cases h.symm.trans ‹_›
  · cases h.symm.trans ‹_›
    rfl

theorem ofProgram_ok {p : Program} {t : JumpTable} (h : JumpTable.build p = .ok t) :
    ofProgram p = .ok ⟨p, t, h⟩ := by
  unfold ofProgram
  split
  · cases h.symm.trans ‹_›
    rfl
  · cases h.symm.trans ‹_›

end Machine

namespace Cli

/-- The events before the brackets of a program are matched. -/
def Journal.opening (c : Config) (origin : Config.Origin) (s : Settings) : List Log.Event :=
  Journal.loaded c origin ++ [Journal.resolved s]

theorem Journal.detail_opening (c : Config) (origin : Config.Origin) (s : Settings) :
    ∀ e ∈ opening c origin s, Log.Level.debug.detail ≤ e.level.detail := by
  intro e he
  cases origin <;> simp [opening, loaded, resolved] at he <;> rcases he with rfl | rfl <;> exact le_rfl

namespace Invocation

theorem told_nil (i : Invocation) : i.told [] = "" := rfl

/-- Details are not told to a quiet filter. -/
theorem told_eq {i : Invocation} (h : i.filter.Quiet) {events : List Log.Event}
    (he : ∀ e ∈ events, Log.Level.debug.detail ≤ e.level.detail) : i.told events = "" :=
  h.render_eq _ he

section loaded

variable {i : Invocation} {o : RunOptions} {c : Config} {origin : Config.Origin} {s : String} {rest : Stdin}
  (hc : Config.load i.surroundings = .ok (c, origin)) (hs : o.source.load i.surroundings = (.ok s, rest))

include hc hs

/-- A bracket without a partner ends the command. -/
theorem prepare_unmatched {f : Fault} (hf : JumpTable.build (.ofSource s) = .error f) :
    i.prepare o = .error (i.faultReport
      (Journal.opening c origin (Settings.resolve o i.surroundings.env c)) s f) := by
  simp only [prepare, hc, hs, Machine.ofSource, Machine.ofProgram_error hf]
  rfl

/-- With its brackets matched, the text becomes the machine of a job, and the rest of the input is for the
program. -/
theorem prepare_matched {m : Machine} (hm : Machine.ofSource s = .ok m) :
    i.prepare o = .ok {
      source := s, machine := m, settings := Settings.resolve o i.surroundings.env c, input := rest
      log := Journal.opening c origin (Settings.resolve o i.surroundings.env c) ++
        [Journal.matched m.program m.jumps] } := by
  simp only [prepare, hc, hs, hm]
  rfl

end loaded

theorem check_unmatched {i : Invocation} {source : Source} {s : String} {rest : Stdin} {f : Fault}
    (hs : source.load i.surroundings = (.ok s, rest)) (hf : JumpTable.build (.ofSource s) = .error f) :
    i.check source = { exitCode := 1, stderr := Diagnostic.fault (some i.reporter) s f } := by
  simp only [check, hs, hf, faultReport, told_nil, String.empty_append]

end Invocation

end Cli

end TapeMachine
