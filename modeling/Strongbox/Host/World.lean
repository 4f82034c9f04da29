import Strongbox.Host.Tree

/-! A model of the machine: a tree of files, the standard streams, a schedule by
which a reader delivers its input, and the provider's state. -/

namespace Strongbox

/-- What appears on standard error, in order: log events and plain lines. -/
inductive Notice where
  | event (e : Event)
  | line (text : String)
deriving DecidableEq, Repr

structure World (σ : Type) where
  provider : σ
  files : Tree := {}
  input : Bytes := []
  output : Bytes := []
  notices : List Notice := []
  /-- How many bytes the `k`-th read of a source yields, where that is laid down. -/
  schedule : Nat → Option Nat := fun _ => none

/-- Commands on the model. -/
abbrev Console (σ : Type) := StateT (World σ) (Except Violation)

namespace World

variable {σ α : Type}

/-- Runs a guarded operation in the world's session. -/
def perform (act : Action σ α) : Console σ α := fun w => do
  let (a, s) ← act { provider := w.provider }
  return (a, { w with provider := s.provider, notices := w.notices ++ s.events.map .event })

/-- How many bytes the `k`-th read yields: what the schedule says, as far as the buffer
of `size` bytes goes, or else all that the reader asks for. -/
def readSize (schedule : Nat → Option Nat) (source : Source) (size k position : Nat) : Nat :=
  match schedule k with
  | some (n + 1) => min (n + 1) size
  | _ => source.readSize size position

/-- Cuts the input from a position on into reads, of which the first is the `k`-th. -/
def deliver (schedule : Nat → Option Nat) (source : Source) (size : Nat) :
    (k position fuel : Nat) → Bytes → List Bytes
  | _, _, 0, _ => []
  | _, _, _, [] => []
  | k, position, fuel + 1, input =>
    let n := readSize schedule source size k position
    input.take n :: deliver schedule source size (k + 1) (position + n) fuel (input.drop n)

theorem readSize_pos (schedule : Nat → Option Nat) (source : Source) {size : Nat} (k position : Nat)
    (h : 0 < size) : 0 < readSize schedule source size k position := by
  simp only [readSize]
  split
  · omega
  · exact source.readSize_pos position h

/-- Reads lose nothing and add nothing. -/
theorem flatten_deliver (schedule : Nat → Option Nat) (source : Source) {size : Nat} (h : 0 < size)
    (k position fuel : Nat) (input : Bytes) (hfuel : input.length ≤ fuel) :
    (deliver schedule source size k position fuel input).flatten = input := by
  induction fuel generalizing k position input with
  | zero => simpa [deliver] using (List.eq_nil_of_length_eq_zero (Nat.le_zero.mp hfuel)).symm
  | succ fuel ih =>
    cases input with
    | nil => simp [deliver]
    | cons b rest =>
      have hpos := readSize_pos schedule source k position h
      rw [deliver, List.flatten_cons, ih]
      · exact List.take_append_drop _ _
      · simp only [List.length_drop, List.length_cons] at hfuel ⊢
        omega
      · simp

/-- The contents of a source; standard input is used up. -/
def consume (source : Source) : Console σ (Except Fault Bytes) := fun w =>
  match source with
  | .standard => .ok (.ok w.input, { w with input := [] })
  | .file p => .ok (w.files.read p, w)

def readPieces (source : Source) (size : Nat) : Console σ Delivery := do
  match ← consume source with
  | .error e => return { pieces := [], fault := some e }
  | .ok input =>
    return { pieces := deliver (← get).schedule source size 0 0 input.length input }

/-- Applies a change to the files that may be refused. -/
def change (f : Tree → Except Fault Tree) : Console σ (Except Fault Unit) := fun w =>
  match f w.files with
  | .ok files => .ok (.ok (), { w with files })
  | .error e => .ok (.error e, w)

instance : Host σ (Console σ) where
  perform := perform
  makeDir p := change (·.makeDir p)
  isDirectory p := fun w => .ok (w.files.isDirectory p, w)
  pathExists p := fun w => .ok ((w.files.find p).isOk, w)
  openSource source := fun w =>
    match source with
    | .standard => .ok (.ok (), w)
    | .file p => .ok ((w.files.find p).map fun _ => (), w)
  readAll := consume
  readPieces := readPieces
  writeFile p contents := change (·.write p contents)
  setMode p mode := change (·.chmod p mode)
  print bytes := fun w => .ok (.ok (), { w with output := w.output ++ bytes })
  note text := fun w => .ok ((), { w with notices := w.notices ++ [.line text] })

end World

end Strongbox
