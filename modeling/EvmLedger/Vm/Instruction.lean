/-
# EvmLedger.Vm.Instruction -- the instruction set

Every instruction has a byte, a mnemonic, the number of words it takes from and
leaves on the stack, and a cost class (`shape`).  `ofByte?` finds the instruction
of a byte; the bytes without one, among them the designated invalid byte `0xfe`,
end the frame that meets them.

`push n` is followed by `n + 1` bytes of data, `dup n` and `swap n` reach
`n + 1` places down.
-/

import EvmLedger.Hex

namespace EvmLedger.Vm

set_option autoImplicit false

/-- Classes of instructions with the same fixed cost. -/
inductive Tier where
  | zero
  | base
  | veryLow
  | low
  | mid
  | high
  | ext
  /-- the cost depends on the operands -/
  | special
  deriving DecidableEq, Repr

/-- What an instruction does to the height of the stack, and its cost class. -/
structure Shape where
  /-- words taken from the stack -/
  args : Nat
  /-- words left on the stack -/
  ret : Nat
  /-- the cost class -/
  tier : Tier
  deriving DecidableEq, Repr

inductive CallKind where
  /-- the callee's code in the callee's account -/
  | call
  /-- the callee's code in the caller's account -/
  | callCode
  /-- the callee's code in place of the caller's, sender and value included -/
  | delegateCall
  /-- a call that must not change any state -/
  | staticCall
  deriving DecidableEq, Repr

inductive CreateKind where
  /-- placed by the creator's nonce -/
  | create
  /-- placed by a salt -/
  | create2
  deriving DecidableEq, Repr

inductive Instruction where
  | stop
  | add
  | mul
  | sub
  | div
  | sdiv
  | mod
  | smod
  | addmod
  | mulmod
  | exp
  | signExtend
  | lt
  | gt
  | slt
  | sgt
  | eq
  | isZero
  | and
  | or
  | xor
  | not
  | byte
  | shl
  | shr
  | sar
  | sha3
  | address
  | balance
  | origin
  | caller
  | callValue
  | callDataLoad
  | callDataSize
  | callDataCopy
  | codeSize
  | codeCopy
  | gasPrice
  | extCodeSize
  | extCodeCopy
  | returnDataSize
  | returnDataCopy
  | extCodeHash
  | blockHash
  | coinbase
  | timestamp
  | number
  | difficulty
  | gasLimit
  | chainId
  | selfBalance
  | pop
  | mload
  | mstore
  | mstore8
  | sload
  | sstore
  | jump
  | jumpi
  | pc
  | msize
  | gas
  | jumpDest
  | push (n : Fin 32)
  | dup (n : Fin 16)
  | swap (n : Fin 16)
  | log (topics : Fin 5)
  | create (kind : CreateKind)
  | call (kind : CallKind)
  | ret
  | revert
  | selfDestruct
  deriving DecidableEq, Repr

namespace Instruction

def ofByte? (code : UInt8) : Option Instruction :=
  match code with
  | 0x00 => some .stop
  | 0x01 => some .add
  | 0x02 => some .mul
  | 0x03 => some .sub
  | 0x04 => some .div
  | 0x05 => some .sdiv
  | 0x06 => some .mod
  | 0x07 => some .smod
  | 0x08 => some .addmod
  | 0x09 => some .mulmod
  | 0x0a => some .exp
  | 0x0b => some .signExtend
  | 0x10 => some .lt
  | 0x11 => some .gt
  | 0x12 => some .slt
  | 0x13 => some .sgt
  | 0x14 => some .eq
  | 0x15 => some .isZero
  | 0x16 => some .and
  | 0x17 => some .or
  | 0x18 => some .xor
  | 0x19 => some .not
  | 0x1a => some .byte
  | 0x1b => some .shl
  | 0x1c => some .shr
  | 0x1d => some .sar
  | 0x20 => some .sha3
  | 0x30 => some .address
  | 0x31 => some .balance
  | 0x32 => some .origin
  | 0x33 => some .caller
  | 0x34 => some .callValue
  | 0x35 => some .callDataLoad
  | 0x36 => some .callDataSize
  | 0x37 => some .callDataCopy
  | 0x38 => some .codeSize
  | 0x39 => some .codeCopy
  | 0x3a => some .gasPrice
  | 0x3b => some .extCodeSize
  | 0x3c => some .extCodeCopy
  | 0x3d => some .returnDataSize
  | 0x3e => some .returnDataCopy
  | 0x3f => some .extCodeHash
  | 0x40 => some .blockHash
  | 0x41 => some .coinbase
  | 0x42 => some .timestamp
  | 0x43 => some .number
  | 0x44 => some .difficulty
  | 0x45 => some .gasLimit
  | 0x46 => some .chainId
  | 0x47 => some .selfBalance
  | 0x50 => some .pop
  | 0x51 => some .mload
  | 0x52 => some .mstore
  | 0x53 => some .mstore8
  | 0x54 => some .sload
  | 0x55 => some .sstore
  | 0x56 => some .jump
  | 0x57 => some .jumpi
  | 0x58 => some .pc
  | 0x59 => some .msize
  | 0x5a => some .gas
  | 0x5b => some .jumpDest
  | 0xf0 => some (.create .create)
  | 0xf1 => some (.call .call)
  | 0xf2 => some (.call .callCode)
  | 0xf3 => some .ret
  | 0xf4 => some (.call .delegateCall)
  | 0xf5 => some (.create .create2)
  | 0xfa => some (.call .staticCall)
  | 0xfd => some .revert
  | 0xff => some .selfDestruct
  | _ =>
      let n := code.toNat
      if h : 0x60 ≤ n ∧ n < 0x80 then some (.push ⟨n - 0x60, by omega⟩)
      else if h : 0x80 ≤ n ∧ n < 0x90 then some (.dup ⟨n - 0x80, by omega⟩)
      else if h : 0x90 ≤ n ∧ n < 0xa0 then some (.swap ⟨n - 0x90, by omega⟩)
      else if h : 0xa0 ≤ n ∧ n < 0xa5 then some (.log ⟨n - 0xa0, by omega⟩)
      else none

/-- Operands, results and cost class. -/
def shape : Instruction → Shape
  | .stop => ⟨0, 0, .zero⟩
  | .add => ⟨2, 1, .veryLow⟩
  | .mul => ⟨2, 1, .low⟩
  | .sub => ⟨2, 1, .veryLow⟩
  | .div => ⟨2, 1, .low⟩
  | .sdiv => ⟨2, 1, .low⟩
  | .mod => ⟨2, 1, .low⟩
  | .smod => ⟨2, 1, .low⟩
  | .addmod => ⟨3, 1, .mid⟩
  | .mulmod => ⟨3, 1, .mid⟩
  | .exp => ⟨2, 1, .special⟩
  | .signExtend => ⟨2, 1, .low⟩
  | .lt => ⟨2, 1, .veryLow⟩
  | .gt => ⟨2, 1, .veryLow⟩
  | .slt => ⟨2, 1, .veryLow⟩
  | .sgt => ⟨2, 1, .veryLow⟩
  | .eq => ⟨2, 1, .veryLow⟩
  | .isZero => ⟨1, 1, .veryLow⟩
  | .and => ⟨2, 1, .veryLow⟩
  | .or => ⟨2, 1, .veryLow⟩
  | .xor => ⟨2, 1, .veryLow⟩
  | .not => ⟨1, 1, .veryLow⟩
  | .byte => ⟨2, 1, .veryLow⟩
  | .shl => ⟨2, 1, .veryLow⟩
  | .shr => ⟨2, 1, .veryLow⟩
  | .sar => ⟨2, 1, .veryLow⟩
  | .sha3 => ⟨2, 1, .special⟩
  | .address => ⟨0, 1, .base⟩
  | .balance => ⟨1, 1, .ext⟩
  | .origin => ⟨0, 1, .base⟩
  | .caller => ⟨0, 1, .base⟩
  | .callValue => ⟨0, 1, .base⟩
  | .callDataLoad => ⟨1, 1, .veryLow⟩
  | .callDataSize => ⟨0, 1, .base⟩
  | .callDataCopy => ⟨3, 0, .veryLow⟩
  | .codeSize => ⟨0, 1, .base⟩
  | .codeCopy => ⟨3, 0, .veryLow⟩
  | .gasPrice => ⟨0, 1, .base⟩
  | .extCodeSize => ⟨1, 1, .ext⟩
  | .extCodeCopy => ⟨4, 0, .ext⟩
  | .returnDataSize => ⟨0, 1, .base⟩
  | .returnDataCopy => ⟨3, 0, .veryLow⟩
  | .extCodeHash => ⟨1, 1, .special⟩
  | .blockHash => ⟨1, 1, .ext⟩
  | .coinbase => ⟨0, 1, .base⟩
  | .timestamp => ⟨0, 1, .base⟩
  | .number => ⟨0, 1, .base⟩
  | .difficulty => ⟨0, 1, .base⟩
  | .gasLimit => ⟨0, 1, .base⟩
  | .chainId => ⟨0, 1, .base⟩
  | .selfBalance => ⟨0, 1, .low⟩
  | .pop => ⟨1, 0, .base⟩
  | .mload => ⟨1, 1, .veryLow⟩
  | .mstore => ⟨2, 0, .veryLow⟩
  | .mstore8 => ⟨2, 0, .veryLow⟩
  | .sload => ⟨1, 1, .special⟩
  | .sstore => ⟨2, 0, .special⟩
  | .jump => ⟨1, 0, .mid⟩
  | .jumpi => ⟨2, 0, .high⟩
  | .pc => ⟨0, 1, .base⟩
  | .msize => ⟨0, 1, .base⟩
  | .gas => ⟨0, 1, .base⟩
  | .jumpDest => ⟨0, 0, .special⟩
  | .push _ => ⟨0, 1, .veryLow⟩
  | .dup n => ⟨n.val + 1, n.val + 2, .veryLow⟩
  | .swap n => ⟨n.val + 2, n.val + 2, .veryLow⟩
  | .log n => ⟨n.val + 2, 0, .special⟩
  | .create .create => ⟨3, 1, .special⟩
  | .call .call => ⟨7, 1, .special⟩
  | .call .callCode => ⟨7, 1, .special⟩
  | .ret => ⟨2, 0, .zero⟩
  | .call .delegateCall => ⟨6, 1, .special⟩
  | .create .create2 => ⟨4, 1, .special⟩
  | .call .staticCall => ⟨6, 1, .special⟩
  | .revert => ⟨2, 0, .zero⟩
  | .selfDestruct => ⟨1, 0, .special⟩

def mnemonic : Instruction → String
  | .stop => "STOP"
  | .add => "ADD"
  | .mul => "MUL"
  | .sub => "SUB"
  | .div => "DIV"
  | .sdiv => "SDIV"
  | .mod => "MOD"
  | .smod => "SMOD"
  | .addmod => "ADDMOD"
  | .mulmod => "MULMOD"
  | .exp => "EXP"
  | .signExtend => "SIGNEXTEND"
  | .lt => "LT"
  | .gt => "GT"
  | .slt => "SLT"
  | .sgt => "SGT"
  | .eq => "EQ"
  | .isZero => "ISZERO"
  | .and => "AND"
  | .or => "OR"
  | .xor => "XOR"
  | .not => "NOT"
  | .byte => "BYTE"
  | .shl => "SHL"
  | .shr => "SHR"
  | .sar => "SAR"
  | .sha3 => "SHA3"
  | .address => "ADDRESS"
  | .balance => "BALANCE"
  | .origin => "ORIGIN"
  | .caller => "CALLER"
  | .callValue => "CALLVALUE"
  | .callDataLoad => "CALLDATALOAD"
  | .callDataSize => "CALLDATASIZE"
  | .callDataCopy => "CALLDATACOPY"
  | .codeSize => "CODESIZE"
  | .codeCopy => "CODECOPY"
  | .gasPrice => "GASPRICE"
  | .extCodeSize => "EXTCODESIZE"
  | .extCodeCopy => "EXTCODECOPY"
  | .returnDataSize => "RETURNDATASIZE"
  | .returnDataCopy => "RETURNDATACOPY"
  | .extCodeHash => "EXTCODEHASH"
  | .blockHash => "BLOCKHASH"
  | .coinbase => "COINBASE"
  | .timestamp => "TIMESTAMP"
  | .number => "NUMBER"
  | .difficulty => "DIFFICULTY"
  | .gasLimit => "GASLIMIT"
  | .chainId => "CHAINID"
  | .selfBalance => "SELFBALANCE"
  | .pop => "POP"
  | .mload => "MLOAD"
  | .mstore => "MSTORE"
  | .mstore8 => "MSTORE8"
  | .sload => "SLOAD"
  | .sstore => "SSTORE"
  | .jump => "JUMP"
  | .jumpi => "JUMPI"
  | .pc => "PC"
  | .msize => "MSIZE"
  | .gas => "GAS"
  | .jumpDest => "JUMPDEST"
  | .push n => "PUSH" ++ toString (n.val + 1)
  | .dup n => "DUP" ++ toString (n.val + 1)
  | .swap n => "SWAP" ++ toString (n.val + 1)
  | .log n => "LOG" ++ toString n.val
  | .create .create => "CREATE"
  | .call .call => "CALL"
  | .call .callCode => "CALLCODE"
  | .ret => "RETURN"
  | .call .delegateCall => "DELEGATECALL"
  | .create .create2 => "CREATE2"
  | .call .staticCall => "STATICCALL"
  | .revert => "REVERT"
  | .selfDestruct => "SELFDESTRUCT"

end Instruction

namespace Opcode

/-- The number of data bytes that follow the instruction of a byte. -/
def pushBytes (code : UInt8) : Nat :=
  if 0x60 ≤ code ∧ code ≤ 0x7f then (code - 0x60).toNat + 1 else 0

/-- How far down a copying instruction reaches; zero for all others. -/
def dupDepth (code : UInt8) : Nat :=
  if 0x80 ≤ code ∧ code ≤ 0x8f then (code - 0x80).toNat + 1 else 0

/-- How far down an exchanging instruction reaches; zero for all others. -/
def swapDepth (code : UInt8) : Nat :=
  if 0x90 ≤ code ∧ code ≤ 0x9f then (code - 0x90).toNat + 1 else 0

/-- The number of topics of a logging instruction. -/
def logTopics? (code : UInt8) : Option Nat :=
  if 0xa0 ≤ code ∧ code ≤ 0xa4 then some (code - 0xa0).toNat else none

def mnemonic (code : UInt8) : String :=
  match Instruction.ofByte? code with
  | some instruction => instruction.mnemonic
  | none => "UNKNOWN(0x" ++ Hex.encode [code] ++ ")"

end Opcode

end EvmLedger.Vm
