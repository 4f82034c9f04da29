import Strongbox.Bytes
import Strongbox.Size
import Strongbox.Key
import Strongbox.Failure
import Strongbox.Event
import Strongbox.Provider
import Strongbox.Session
import Strongbox.Guard.Keys
import Strongbox.Guard.Box
import Strongbox.Guard.Sign
import Strongbox.Guard.Hash
import Strongbox.Provider.StandIn
import Strongbox.Text.Blank
import Strongbox.Text.Encoded
import Strongbox.Text.Quoted
import Strongbox.Hex
import Strongbox.Host.Path
import Strongbox.Host
import Strongbox.Host.Tree
import Strongbox.Host.World
import Strongbox.Command.Trouble
import Strongbox.Command.KeyText
import Strongbox.Command.Wire
import Strongbox.Command.Files
import Strongbox.Command.KeyPair
import Strongbox.Command.Box
import Strongbox.Command.Signature
import Strongbox.Command.Digest
import Strongbox.Command.Run
import Strongbox.Sha512.Compression
import Strongbox.Sha512.Padding
import Strongbox.Sha512.Midstate
import Strongbox.Sha512.Layout
import Strongbox.Salsa20
import Strongbox.Poly1305
import Strongbox.Curve25519.Field
import Strongbox.Curve25519.Montgomery
import Strongbox.Curve25519.Edwards
import Strongbox.Ed25519
import Strongbox.Provider.Primitives
import Strongbox.Provider.Joined
import Strongbox.Provider.Split
import Strongbox.Text.Number
import Strongbox.Text.Pieces
import Strongbox.Text.CodeRange
import Strongbox.Text.Alphabetic
import Strongbox.Text.Numeric
import Strongbox.Text.Taken
import Strongbox.Pattern.Mode
import Strongbox.Pattern.Atom
import Strongbox.Pattern.Row
import Strongbox.Pattern.Bracket
import Strongbox.Pattern.Opening
import Strongbox.Pattern.Scan
import Strongbox.CommandLine.Scan
import Strongbox.CommandLine.Invocation
import Strongbox.Log.Filter
import Strongbox.Log.Format
import Strongbox.Program
import Strongbox.Main
import Strongbox.Proofs.Bytes
import Strongbox.Proofs.Sha512.Streaming
import Strongbox.Proofs.Guard.Equations
import Strongbox.Proofs.Sha512.Layout
import Strongbox.Proofs.Runs
import Strongbox.Proofs.Guard.Wiping
import Strongbox.Proofs.Guard.Signing
import Strongbox.Proofs.Guard.Streams
import Strongbox.Proofs.Guard.Verifying
import Strongbox.Proofs.Provider.StandIn
import Strongbox.Proofs.Provider.Hashing
import Strongbox.Proofs.Guard.Cipher
import Strongbox.Proofs.Guard.Boxes
import Strongbox.Proofs.Provider.Boxes
import Strongbox.Proofs.Guard.Signatures
import Strongbox.Proofs.Provider.Signatures
import Strongbox.Proofs.Guard.Operation
import Strongbox.Proofs.Provider.Interchange
import Strongbox.Proofs.Provider.Call
import Strongbox.Proofs.Guard.Delegation
import Strongbox.Proofs.Guard.Client
import Strongbox.Proofs.Provider.Promises
import Strongbox.Proofs.Guard.Refusals
import Strongbox.Proofs.Guard.BoxForms
import Strongbox.Proofs.Guard.Rejections
import Strongbox.Proofs.Guard.Interruptions
import Strongbox.Proofs.Provider.Interruptions
import Strongbox.Proofs.Provider.Signing
import Strongbox.Proofs.Guard.Memory
import Strongbox.Proofs.Provider.Memory
import Strongbox.Proofs.Command.Equations
import Strongbox.Proofs.Host.Tree
import Strongbox.Proofs.Host.Siblings
import Strongbox.Proofs.Text.KeyText
import Strongbox.Proofs.Command.Release
import Strongbox.Proofs.Command.Vouched
import Strongbox.Proofs.Command.KeyFiles
import Strongbox.Proofs.Command.KeyPair
import Strongbox.Proofs.Command.Exit
import Strongbox.Proofs.Command.Exchange
import Strongbox.Proofs.Provider.Resuming
import Strongbox.Proofs.Guard.Logging
import Strongbox.Proofs.Command.MadePairs
import Strongbox.Proofs.Command.SignedFiles
import Strongbox.Proofs.Guard.Tampering
import Strongbox.Proofs.Provider.Tampering
import Strongbox.Proofs.Command.Digests
import Strongbox.Proofs.Provider.DirectCalls
import Strongbox.Proofs.Text.Decoding
import Strongbox.Proofs.Provider.StoredStates
