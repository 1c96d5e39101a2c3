/-
# EvmLedger.Rlp.Json -- value trees shown as JSON

A byte string is shown as its digits after `0x`, a list as an array.  Reading
takes byte strings in any form that `Hex.decode` takes.
-/

import EvmLedger.Json.Printer
import EvmLedger.Rlp.Item

namespace EvmLedger.Rlp

set_option autoImplicit false

mutual

/-- The tree of a value. -/
def Item.toJson : Item → Json
  | .string bytes => .string (Hex.encodePrefixed bytes)
  | .list items => .array (toJsonList items)

def toJsonList : List Item → List Json
  | [] => []
  | item :: rest => item.toJson :: toJsonList rest

end

inductive TreeError where
  | invalidHex (cause : Hex.Error)
  /-- neither a string nor an array -/
  | unexpected (value : Json)

mutual

/-- The value with a tree. -/
def Item.ofJson : Json → Except TreeError Item
  | .string text =>
      match Hex.decode text with
      | .ok bytes => .ok (.string bytes)
      | .error cause => .error (.invalidHex cause)
  | .array items => do return .list (← ofJsonList items)
  | value => .error (.unexpected value)

def ofJsonList : List Json → Except TreeError (List Item)
  | [] => .ok []
  | value :: rest => do
      let item ← Item.ofJson value
      return item :: (← ofJsonList rest)

end

end EvmLedger.Rlp
