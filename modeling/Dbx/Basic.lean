import Mathlib.Algebra.Ring.Int.Defs
import Mathlib.Algebra.Ring.Nat
import Mathlib.Data.List.Basic

/-!
# Shared vocabulary

Byte strings, clock units and the error texts that several packages return.
-/

set_option autoImplicit false

namespace Dbx

/-- Keys, values and command arguments are arbitrary byte strings. -/
abbrev Bytes := List UInt8

instance : LawfulBEq Bytes := inferInstance

def ascii (text : String) : Bytes :=
  text.toList.map fun char => UInt8.ofNat char.toNat

/-- The verb `%q`. Bytes outside ASCII are always escaped here, where the source
escapes only unprintable ones. -/
def quote (text : Bytes) : String :=
  let escape (byte : UInt8) : String :=
    if byte = 0x22 then "\\\"" else if byte = 0x5c then "\\\\"
    else if 0x20 ≤ byte ∧ byte < 0x7f then String.singleton (Char.ofNat byte.toNat)
    else "\\x" ++ String.ofList ((Nat.toDigits 16 byte.toNat).leftpad 2 '0')
  "\"" ++ String.join (text.map escape) ++ "\""

def rawText (data : Bytes) : String :=
  String.ofList (data.map fun byte => Char.ofNat byte.toNat)

/-- `int64(time.Second)`: Unix times and durations are nanoseconds. -/
def second : Int64 := 1000000000

def errNotFound : String := "DBX[1]: key not found"
def errWrongType : String :=
  "DBX[2]: WRONGTYPE operation against a key holding the wrong kind of value"
def errOutOfRange : String := "DBX[3]: value is not an integer or out of range"
def errSyntax : String := "DBX[4]: syntax error"

end Dbx
