/-
# EvmLedger.Settings -- how a chain is set up

The chain, the block that transactions run in, the limits and the price list.
-/

import EvmLedger.Vm.Frame

namespace EvmLedger

set_option autoImplicit false

open Vm (Env Schedule)

structure Settings where
  /-- the chain that signatures must name, if they name one -/
  chainId : Nat := 1
  /-- the most gas a transaction may ask for -/
  blockGasLimit : Nat := 10000000
  blockNumber : Nat := 0
  timestamp : Nat := 0
  coinbase : Address := .zero
  difficulty : Word := 0
  blockHash : Hash := .zero
  /-- the deepest nesting of frames -/
  maxCallDepth : Nat := 1024
  /-- whether code may be run that no account holds -/
  allowRawCode : Bool := false
  schedule : Schedule := {}
  deriving DecidableEq, Repr

namespace Settings

/-- The block as the machine sees it. -/
def env (s : Settings) : Env where
  chainId := s.chainId
  blockNumber := s.blockNumber
  timestamp := s.timestamp
  gasLimit := s.blockGasLimit
  coinbase := s.coinbase
  difficulty := s.difficulty
  blockHash := s.blockHash

def withRawCode (s : Settings) : Settings :=
  { s with allowRawCode := true }

end Settings

end EvmLedger
