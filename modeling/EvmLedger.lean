import EvmLedger.Bytes
import EvmLedger.Quantity
import EvmLedger.Hex
import EvmLedger.Word
import EvmLedger.Word.Arithmetic
import EvmLedger.Address
import EvmLedger.Hash
import EvmLedger.Crypto.Keccak
import EvmLedger.Crypto.Sha256
import EvmLedger.Crypto.Curve
import EvmLedger.Crypto.Signature
import EvmLedger.Rlp.Item
import EvmLedger.Rlp.Encode
import EvmLedger.Rlp.Decode
import EvmLedger.ContractAddress
import EvmLedger.Transaction
import EvmLedger.Vm.Trap
import EvmLedger.Vm.Stack
import EvmLedger.Vm.Memory
import EvmLedger.Vm.Instruction
import EvmLedger.Vm.JumpTable
import EvmLedger.Vm.Schedule
import EvmLedger.Vm.Effects
import EvmLedger.Vm.Overlay
import EvmLedger.Vm.Frame
import EvmLedger.Vm.Step
import EvmLedger.Vm.Machine
import EvmLedger.Vm.Backend
import EvmLedger.Decimal
import EvmLedger.Json.Basic
import EvmLedger.Json.Number
import EvmLedger.Json.Reader
import EvmLedger.Json.Printer
import EvmLedger.Json.Record
import EvmLedger.Settings
import EvmLedger.Settings.Codec
import EvmLedger.Ledger
import EvmLedger.Ledger.Submission
import EvmLedger.Fixture
import EvmLedger.Fixture.Report
import EvmLedger.Toml.Table
import EvmLedger.Toml.Scalar
import EvmLedger.Toml.Reader
import EvmLedger.Toml.Printer
import EvmLedger.Rlp.Json
import EvmLedger.Fixture.Directory
import EvmLedger.CommandLine.Arguments
import EvmLedger.CommandLine.Invocation
import EvmLedger.CommandLine.Error
import EvmLedger.CommandLine.Respond
import EvmLedger.Main
import EvmLedger.Proofs.Failure
import EvmLedger.Proofs.Bytes
import EvmLedger.Proofs.Word.Bytes
import EvmLedger.Proofs.Word.Arithmetic
import EvmLedger.Proofs.Word.Codec
import EvmLedger.Proofs.Hex
import EvmLedger.Proofs.Rlp.Grammar
import EvmLedger.Proofs.Rlp.Reader
import EvmLedger.Proofs.Rlp.RoundTrip
import EvmLedger.Proofs.Rlp.Canonical
import EvmLedger.Proofs.Rlp.Tree
import EvmLedger.Proofs.ContractAddress
import EvmLedger.Proofs.Transaction.Wire
import EvmLedger.Proofs.Transaction.Signing
import EvmLedger.Proofs.Transaction.Recovery
import EvmLedger.Proofs.Ledger.Accounts
import EvmLedger.Proofs.Ledger.Submission
import EvmLedger.Proofs.Ledger.History
import EvmLedger.Proofs.Ledger.Registry
import EvmLedger.Proofs.Overlay
import EvmLedger.Proofs.Overlay.Balance
import EvmLedger.Proofs.Overlay.Code
import EvmLedger.Proofs.Overlay.Merge
import EvmLedger.Proofs.Overlay.View
import EvmLedger.Proofs.Overlay.Journal
import EvmLedger.Proofs.JumpTable
import EvmLedger.Proofs.Memory
import EvmLedger.Proofs.Memory.Image
import EvmLedger.Proofs.Memory.History
import EvmLedger.Proofs.Schedule
import EvmLedger.Proofs.Step.Outcome
import EvmLedger.Proofs.Step.Local
import EvmLedger.Proofs.Step.Charge
import EvmLedger.Proofs.Step.Footprint
import EvmLedger.Proofs.Step.Entry
import EvmLedger.Proofs.Step.Counter
import EvmLedger.Proofs.Step.Gas
import EvmLedger.Proofs.Step.Height
import EvmLedger.Proofs.Step.Range
import EvmLedger.Proofs.Step.Cover
import EvmLedger.Proofs.Step.Deed
import EvmLedger.Proofs.Step.Growth
import EvmLedger.Proofs.Machine.Run
import EvmLedger.Proofs.Step.Copy
import EvmLedger.Proofs.Machine.Nesting
import EvmLedger.Proofs.Machine.Waiting
import EvmLedger.Proofs.Machine.Footprint
import EvmLedger.Proofs.Machine.FrameStack
import EvmLedger.Proofs.Machine.Survival
import EvmLedger.Proofs.Machine.Holdings
import EvmLedger.Proofs.Machine.Frames
import EvmLedger.Proofs.Machine.Gas
import EvmLedger.Proofs.Machine.Termination
import EvmLedger.Proofs.Machine.Value
import EvmLedger.Proofs.Machine.Deployment
import EvmLedger.Proofs.Machine.Isolation
import EvmLedger.Proofs.Machine.Recursion
import EvmLedger.Proofs.Machine.ControlFlow
import EvmLedger.Proofs.Machine.JumpCache
import EvmLedger.Proofs.Machine.Height
import EvmLedger.Proofs.Machine.MemoryPrice
import EvmLedger.Proofs.Persistence
import EvmLedger.Proofs.Ledger.Balance
import EvmLedger.Proofs.Ledger.Persistence
import EvmLedger.Proofs.Ledger.Supply
import EvmLedger.Proofs.Ledger.Gas
