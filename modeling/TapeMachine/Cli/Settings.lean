import TapeMachine.Cli.Arguments
import TapeMachine.Config

/-! The settings of a run: an option of the command line counts before an environment variable, and
that before the configuration. An environment variable that holds no count is passed over. -/

namespace TapeMachine.Cli

structure Settings where
  timeoutMs : Option Nat
  maxSteps : Option Nat
  mode : Mode
deriving DecidableEq, Repr

def Settings.resolve (o : RunOptions) (env : String → Option String) (c : Config) : Settings where
  timeoutMs := (o.timeoutMs.or ((env "TAPEVM_TIMEOUT_MS").bind Number.count?)).or c.limits.timeoutMs
  maxSteps := (o.maxSteps.or ((env "TAPEVM_MAX_STEPS").bind Number.count?)).or c.limits.maxSteps
  mode := { width := o.width.getD c.machine.width, eof := o.eof.getD c.machine.eof }

end TapeMachine.Cli
