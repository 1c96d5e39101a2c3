/-
# EvmLedger.Proofs.Ledger.Gas -- what a transaction pays

The gas limit of a transaction is divided three times: into what the transaction
itself costs and what its frame is given, into what was spent and what is left, and
what was spent into what is paid for and what is given back.  Each of these is a
subtraction of quantities, and none of them goes below zero.  For the first one this is
checked; for the second one it is the law that no run creates gas; and no more than
half of what was spent is ever given back.

So whatever is executed, and however large the counter of refunds has become, the
price of a transaction is at least half of what it costs by itself, and at most its
limit.
-/
import EvmLedger.Proofs.Ledger.History
import EvmLedger.Proofs.Machine.Gas

namespace EvmLedger.Submission

set_option autoImplicit false

variable {settings : Settings} {resolve : Resolver} {request : Request} {code : Option Bytes}
  {l l' : Ledger} {receipt : Receipt}

/-- Handles a transaction, with other code than the recipient's if some is given. -/
def handle (settings : Settings) (resolve : Resolver) (l : Ledger) (request : Request) :
    Option Bytes → Except Error (Receipt × Ledger)
  | none => submit settings resolve l request
  | some code => executeCode settings resolve l code request

theorem process_of_handle (accepted : handle settings resolve l request code = .ok (receipt, l')) :
    process settings resolve request code l = .ok receipt l' := by
  cases code with
  | none => exact Work.on_eq_ok accepted
  | some code => exact process_of_processCode (Work.on_eq_ok accepted)

/-! ## How the limit is divided -/

/-- The parts of a gas limit: what the transaction costs by itself, what its frame is given and what
the frame leaves, and what the counter of refunds is worth. -/
structure Receipt.Balances (receipt : Receipt) (limit intrinsic given left counter : Nat) :
    Prop where
  admitted : intrinsic + given = limit
  left_le : left ≤ given
  /-- all that is not left is paid for or given back -/
  spent : receipt.gasUsed + receipt.gasRefunded + left = limit
  /-- at most half of it is given back -/
  refunded : receipt.gasRefunded = min counter ((receipt.gasUsed + receipt.gasRefunded) / 2)

namespace Receipt.Balances

variable {limit intrinsic given left counter : Nat}

theorem of_parts (admitted : intrinsic + given = limit) (left_le : left ≤ given)
    (refunded : receipt.gasRefunded = min counter ((limit - left) / 2))
    (used : receipt.gasUsed = limit - left - receipt.gasRefunded) :
    receipt.Balances limit intrinsic given left counter := by
  have capped : receipt.gasRefunded ≤ (limit - left) / 2 := by
    rw [refunded]
    exact Nat.min_le_right _ _
  have spent : receipt.gasUsed + receipt.gasRefunded = limit - left := by omega
  refine ⟨admitted, left_le, by omega, ?_⟩
  rw [spent]
  exact refunded

theorem intrinsic_le_spent (balances : receipt.Balances limit intrinsic given left counter) :
    intrinsic ≤ receipt.gasUsed + receipt.gasRefunded := by
  have admitted := balances.admitted
  have left_le := balances.left_le
  have spent := balances.spent
  omega

/-- The refund does not come to more than what is paid. -/
theorem refunded_le_used (balances : receipt.Balances limit intrinsic given left counter) :
    receipt.gasRefunded ≤ receipt.gasUsed := by
  have half : receipt.gasRefunded ≤ (receipt.gasUsed + receipt.gasRefunded) / 2 := by
    conv_lhs => rw [balances.refunded]
    exact Nat.min_le_right _ _
  omega

end Receipt.Balances

theorem Handled.balances {tx : Transaction} {account : LinkedAccount} {limit gas : Nat}
    {outcome : Vm.Outcome} (charges : settings.schedule.Charges 0)
    (handled : Handled settings resolve request code l receipt l' tx account limit gas outcome) :
    receipt.Balances limit (settings.schedule.intrinsicGas tx.data tx.isCreate) gas
      outcome.result.gasLeft outcome.effects.refund := by
  obtain ⟨_, _, admitted⟩ := gasFor_eq_ok handled.granted
  obtain ⟨cache, observed⟩ := Vm.execute_eq_ok handled.ran
  have left_le := Vm.Machine.gasLeft_executeObserved_le charges observed
  rw [frameFor_gas] at left_le
  exact .of_parts admitted left_le handled.refunded handled.used

/-! ## All transactions -/

/-- The gas of a transaction that is accepted adds up.  Its limit is within that of the block and
covers what the transaction costs by itself; the rest is given to its frame, and of this the frame
leaves some part; what it does not leave is paid for or given back, and given back is what the
counter of refunds has come to, but at most half.  So at least half of what the transaction costs
by itself is paid for, and at most the limit. -/
theorem gas_accounted (fits : settings.schedule.callStipend < Quantity.bound)
    (covered : settings.schedule.callStipend ≤
      settings.schedule.call + settings.schedule.callValueTransfer)
    (accepted : handle settings resolve l request code = .ok (receipt, l')) :
    ∃ tx limit intrinsic params outcome,
      Transaction.parse request.raw = .ok tx ∧ tx.gasLimit.toNat = limit ∧
      settings.schedule.intrinsicGas tx.data tx.isCreate = intrinsic ∧
      frame? settings request code l receipt.sender = some params ∧
      Vm.execute (contextFor settings l) params = .ok outcome ∧
      intrinsic ≤ limit ∧ limit ≤ settings.blockGasLimit ∧
      receipt.Balances limit intrinsic params.gas outcome.result.gasLeft outcome.effects.refund ∧
      intrinsic ≤ receipt.gasUsed + receipt.gasRefunded ∧
      receipt.gasUsed + receipt.gasRefunded ≤ limit ∧
      intrinsic ≤ 2 * receipt.gasUsed ∧ receipt.gasUsed ≤ limit := by
  obtain ⟨tx, account, limit, gas, outcome, handled⟩ :=
    process_handled (process_of_handle accepted)
  obtain ⟨asked, within, admitted⟩ := gasFor_eq_ok handled.granted
  have balances := handled.balances (Vm.Schedule.charges_zero fits covered)
  have spent := balances.spent
  have intrinsic_le := balances.intrinsic_le_spent
  have refunded_le := balances.refunded_le_used
  rw [← frameFor_gas l tx account.identifier gas code] at balances
  refine ⟨tx, limit, _, _, outcome, handled.parsed, asked, rfl, handled.frame?, handled.ran,
    ?_, within, balances, intrinsic_le, ?_, ?_, ?_⟩
  · exact Nat.le.intro admitted
  · omega
  · omega
  · omega

/-- A ledger in which alice is linked, and account 7 passes a jump destination and then clears a
slot that is not zero. -/
def cluttered : Ledger :=
  let linked := ({} : Ledger).insertAccount ⟨"alice", alice, 0, 0⟩
  (linked.setCode ⟨7⟩ [0x5b, 0x60, 0, 0x60, 0, 0x55]).setSlot (Crypto.storageKey ⟨7⟩ 0) 1

/-- Alice calls it. -/
def clearing : Transaction := { selfCall 1 {} with action := .call ⟨7⟩ }

/-- Her request. -/
def clearingRequest : Request where
  raw := clearing.encode
  claimed := some alice
  caller := some "alice"

/-- Of the 26007 that were spent half is given back, rounded down. -/
theorem gas_accounted_clearing :
    Vm.Schedule.frontier.callStipend < Quantity.bound ∧
      Vm.Schedule.frontier.callStipend ≤
        Vm.Schedule.frontier.call + Vm.Schedule.frontier.callValueTransfer ∧
      ∃ receipt after, handle {} recovery cluttered clearingRequest none = .ok (receipt, after) ∧
        receipt.gasUsed = 13004 ∧ receipt.gasRefunded = 13003 ∧
        ∃ given left counter, receipt.Balances 30000 21000 given left counter := by
  have fits : Vm.Schedule.frontier.callStipend < Quantity.bound := by decide
  have covered : Vm.Schedule.frontier.callStipend ≤
      Vm.Schedule.frontier.call + Vm.Schedule.frontier.callValueTransfer := by decide
  have answered : (handle {} recovery cluttered clearingRequest none).map
      (fun answer => (answer.1.gasUsed, answer.1.gasRefunded)) = .ok (13004, 13003) := by
    decide +kernel
  have read : Transaction.parse clearingRequest.raw = .ok clearing := by decide +kernel
  obtain ⟨⟨receipt, after⟩, accepted, told⟩ := map_eq_ok answered
  obtain ⟨used, refunded⟩ := Prod.mk.inj told
  obtain ⟨tx, limit, intrinsic, params, outcome, parsed, rfl, rfl, -, -, -, -, balances, -⟩ :=
    gas_accounted fits covered accepted
  cases read.symm.trans parsed
  exact ⟨fits, covered, receipt, after, accepted, used, refunded, _, _, _, balances⟩

end EvmLedger.Submission
