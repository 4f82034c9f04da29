import Strongbox.Command.Box
import Strongbox.Command.Digest
import Strongbox.Command.KeyPair
import Strongbox.Command.Signature

/-! The commands with their arguments, and how each is run. -/

namespace Strongbox

inductive Command where
  | keygen (kind : KeyKind) (outDir : Path) (name : String) (seed : Option Path) (force : Bool)
  | seal (args : BoxArgs)
  | unseal (args : BoxArgs)
  | sign (secret input output : Path) (detached : Bool)
  | verify (pk input : Path) (signature output : Option Path)
  | hash (input : Path) (chunkSize : Option Nat)
deriving DecidableEq, Repr

namespace Command

variable {σ : Type} {m : Type → Type} [Monad m] [Host σ m]

def run (P : Provider σ) (c : Command) : ExceptT Trouble m Unit := do
  guarded (Action.emit (.providerSelected P.name))
  match c with
  | .keygen kind outDir name seed force => makeKeys P kind outDir name seed force
  | .seal args => convertBox P args (Wire.sealMessage P)
  | .unseal args => convertBox P args (Wire.unsealMessage P)
  | .sign secret input output detached => signInput P secret input output detached
  | .verify pk input signature output => verifyInput P pk input signature output
  | .hash input chunkSize => hashInput P input chunkSize

end Command

end Strongbox
