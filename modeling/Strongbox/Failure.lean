/-! How an operation can end badly. A guarded operation reports one of two
errors; a provider reports a bare rejection; a broken precondition stops the run. -/

namespace Strongbox

/-- The errors of a guarded operation. A rejection carries no reason, so a forged
tag cannot be told from a corrupted one. -/
inductive CryptoError where
  | capacity (required actual : Nat)
  | failure
deriving DecidableEq, Repr

namespace CryptoError

def message : CryptoError → String
  | .capacity required actual =>
    s!"buffer too small: need {required} bytes, got {actual}"
  | .failure => "cryptographic operation failed"

/-- The status code of every error. -/
def status (_ : CryptoError) : Int := -1

/-- The status code of an outcome: zero exactly on success. -/
def statusOf {α : Type} : Except CryptoError α → Int
  | .ok _ => 0
  | .error e => e.status

end CryptoError

/-- A provider's refusal, which never says why. -/
structure Rejection where
deriving DecidableEq, Repr

def Rejection.message (_ : Rejection) : String := "provider failure"

/-- A broken precondition. It is a defect of the caller, and ends the whole run. -/
inductive Violation where
  /-- A buffer to be sealed must start with zero padding. -/
  | dirtyPadding
  /-- A part of a buffer was asked for that the buffer does not have. -/
  | outOfRange
  /-- A length counter left its range. -/
  | counterOverflow
deriving DecidableEq, Repr

end Strongbox
