/-! What the program logs. An event carries lengths, names and nothing secret;
its level, message, origin and fields are functions of the event alone. -/

namespace Strongbox

inductive Level where
  | trace | debug | info | warn | error
deriving DecidableEq, Repr

namespace Level

def name : Level → String
  | .trace => "TRACE"
  | .debug => "DEBUG"
  | .info => "INFO"
  | .warn => "WARN"
  | .error => "ERROR"

/-- More important levels have smaller rank. -/
def rank : Level → Nat
  | .error => 1
  | .warn => 2
  | .info => 3
  | .debug => 4
  | .trace => 5

end Level

inductive KeyKind where
  | box | sign
deriving DecidableEq, Repr

def KeyKind.name : KeyKind → String
  | .box => "Box"
  | .sign => "Sign"

/-- A field's value: text, a number, or a bare word. -/
inductive FieldValue where
  | text (s : String)
  | number (n : Nat)
  | word (s : String)
deriving DecidableEq, Repr

/-- The value without quotes. -/
def FieldValue.plain : FieldValue → String
  | .text s => s
  | .number n => toString n
  | .word s => s

inductive Event where
  | providerSelected (provider : String)
  | keyPairWritten (provider : String) (kind : KeyKind)
  | boxKeysMade (provider : String)
  | signingKeysMade (provider : String)
  | agreementRejected (provider : String)
  | paddingMissing (required actual : Nat)
  | outputTooSmall (required actual : Nat)
  | sealedTooShort (provider : String) (len : Nat)
  | sealing (provider : String) (len : Nat)
  | sealingFailed (provider : String)
  | unsealing (provider : String) (len : Nat)
  | unsealingFailed (provider : String)
  | signing (provider : String) (len : Nat)
  | signingFailed (provider : String)
  | signedTooShort (provider : String) (len : Nat)
  | openingFailed (provider : String)
  | verificationFailed (provider : String)
  | hashStateTooSmall (provider : String) (required actual : Nat)
  | hashStarted (provider : String)
  | hashing (provider : String) (len : Nat)
deriving DecidableEq, Repr

namespace Event

def level : Event → Level
  | .keyPairWritten .. => .info
  | .boxKeysMade .. | .signingKeysMade .. | .sealing .. | .unsealing .. | .signing ..
  | .hashStarted .. | .hashing .. => .trace
  | _ => .debug

def message : Event → String
  | .providerSelected .. => "provider selected"
  | .keyPairWritten .. => "keypair written"
  | .boxKeysMade .. => "box keypair generated"
  | .signingKeysMade .. => "signing keypair generated"
  | .agreementRejected .. => "box key agreement rejected"
  | .paddingMissing .. => "box buffer shorter than its zero padding"
  | .outputTooSmall .. => "output buffer too small"
  | .sealedTooShort .. => "sealed box shorter than its padding"
  | .sealing .. => "box encrypt"
  | .sealingFailed .. => "box encryption failed"
  | .unsealing .. => "box decrypt"
  | .unsealingFailed .. => "box authentication failed"
  | .signing .. => "sign"
  | .signingFailed .. => "signing failed"
  | .signedTooShort .. => "signed message shorter than a signature"
  | .openingFailed .. => "signature verification failed"
  | .verificationFailed .. => "detached signature verification failed"
  | .hashStateTooSmall .. => "hash state buffer below provider minimum"
  | .hashStarted .. => "hash state initialized"
  | .hashing .. => "hash update"

/-- The part of the program the event comes from, as named in the log. -/
def origin : Event → String
  | .providerSelected .. => "saltwrap"
  | .keyPairWritten .. => "saltwrap::commands"
  | .hashStateTooSmall .. | .hashStarted .. | .hashing .. => "saltwrap_core::crypto::hash"
  | _ => "saltwrap_core::crypto::layer"

def fields : Event → List (String × FieldValue)
  | .providerSelected p | .boxKeysMade p | .signingKeysMade p | .agreementRejected p
  | .sealingFailed p | .unsealingFailed p | .signingFailed p | .openingFailed p
  | .verificationFailed p | .hashStarted p => [("provider", .text p)]
  | .keyPairWritten p kind => [("provider", .text p), ("kind", .word kind.name)]
  | .paddingMissing required actual | .outputTooSmall required actual =>
    [("required", .number required), ("actual", .number actual)]
  | .sealedTooShort p len | .sealing p len | .unsealing p len | .signing p len
  | .signedTooShort p len | .hashing p len => [("provider", .text p), ("len", .number len)]
  | .hashStateTooSmall p required actual =>
    [("provider", .text p), ("required", .number required), ("actual", .number actual)]

/-- One line per event: level, message, then the fields in order, without quotes. -/
def summary (e : Event) : String :=
  " ".intercalate (e.level.name :: e.message :: e.fields.map fun f => f.1 ++ "=" ++ f.2.plain)

end Event

end Strongbox
