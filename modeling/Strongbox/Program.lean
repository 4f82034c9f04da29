import Strongbox.CommandLine.Invocation
import Strongbox.Provider.Joined
import Strongbox.Provider.Split

/-! The program as a whole: the providers it offers, and a run that ends with an
exit code. -/

namespace Strongbox

/-- The providers over the standard primitives. They differ in the spellings of a
public key that they verify under. -/
def ProviderChoice.provider : ProviderChoice → Provider Entropy
  | .sodium => Joined.provider (.standard .reduced)
  | .dalek => Split.provider (.standard .any)

/-- Runs an invocation. A trouble is reported on standard error and makes the exit
code one. -/
def Invocation.run {m : Type → Type} [Monad m] [Host Entropy m] (i : Invocation) : m Nat := do
  match ← (Command.run i.provider.provider i.command).run with
  | .ok () => return 0
  | .error trouble =>
    for line in trouble.report do
      Host.note line
    return 1

end Strongbox
