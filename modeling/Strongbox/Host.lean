import Strongbox.Host.Path
import Strongbox.Session

/-! What a command may ask of the machine it runs on: files, the standard
streams, and guarded operations of one provider. Commands are written over this
interface, so the same command runs on a real machine and on a model of one. -/

namespace Strongbox

inductive Fault where
  | notFound
  | alreadyExists
  | notDirectory
  | isDirectory
  | nameTooLong
  | tooManyLinks
  | invalidName
  | notText
  | other (text : String)
deriving DecidableEq, Repr

def Fault.message : Fault → String
  | .notFound => "No such file or directory (os error 2)"
  | .alreadyExists => "File exists (os error 17)"
  | .notDirectory => "Not a directory (os error 20)"
  | .isDirectory => "Is a directory (os error 21)"
  | .nameTooLong => "File name too long (os error 36)"
  | .tooManyLinks => "Too many levels of symbolic links (os error 40)"
  | .invalidName => "file name contained an unexpected NUL byte"
  | .notText => "stream did not contain valid UTF-8"
  | .other text => text

inductive Source where
  | standard
  | file (path : Path)
deriving DecidableEq, Repr

/-- The source that a path argument names. -/
def Path.source (p : Path) : Source := if p.isStandard then .standard else .file p

/-- Standard input is fetched in blocks of this many bytes. -/
def inputBlock : Nat := 8192

/-- How many bytes a read into a buffer of `size` bytes asks for at a position. A read
of standard input ends with the block it starts in, unless it asks for a block or more. -/
def Source.readSize (source : Source) (size position : Nat) : Nat :=
  match source with
  | .file _ => size
  | .standard =>
    if size < inputBlock then min size (inputBlock - position % inputBlock) else size

theorem Source.readSize_le (source : Source) (size position : Nat) :
    source.readSize size position ≤ size := by
  cases source with
  | file p => exact Nat.le_refl size
  | standard =>
    simp only [readSize]
    split
    · exact Nat.min_le_left size _
    · exact Nat.le_refl size

theorem Source.readSize_pos (source : Source) {size : Nat} (position : Nat) (h : 0 < size) :
    0 < source.readSize size position := by
  cases source with
  | file p => exact h
  | standard =>
    have hrest : position % inputBlock < inputBlock := Nat.mod_lt _ (by decide)
    simp only [readSize]
    split <;> omega

/-- What a reader delivered: the pieces in order, then the end or a fault. -/
structure Delivery where
  pieces : List Bytes
  fault : Option Fault := none

/-- The requests of a command that uses a provider with state `σ`. -/
class Host (σ : outParam Type) (m : Type → Type) where
  /-- Runs a guarded operation and logs its events. -/
  perform {α : Type} : Action σ α → m α
  /-- Makes one directory, in one that exists. -/
  makeDir : Path → m (Except Fault Unit)
  isDirectory : Path → m Bool
  pathExists : Path → m Bool
  /-- Checks that a source can be opened for reading. -/
  openSource : Source → m (Except Fault Unit)
  readAll : Source → m (Except Fault Bytes)
  /-- Reads an open source to its end, in pieces of at most `size` bytes. -/
  readPieces : Source → (size : Nat) → m Delivery
  /-- Replaces a file's contents, or creates the file. -/
  writeFile : Path → Bytes → m (Except Fault Unit)
  setMode : Path → (mode : Nat) → m (Except Fault Unit)
  print : Bytes → m (Except Fault Unit)
  /-- Writes a line to standard error. -/
  note : String → m Unit

end Strongbox
