import EvmInspect.Command.Account
import EvmInspect.Command.Decode

/-!
# Running a command line
-/

namespace EvmInspect.Command

/-- Runs a command line that was read, and gives what is printed. -/
def Line.run {m : Type → Type} [Monad m] (s : Surroundings m) (line : Line) : Action m String :=
  match line.job with
  | .decode options => decode s line.settingsPath options
  | .account options => account s line.settingsPath options

end EvmInspect.Command
