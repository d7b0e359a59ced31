import Dbx.Engine.KV

/-!
# String operations

Numbers in decimal text, the options of `SET`, and the string store over the
key-value store. A type assertion that fails panics, which ends a command with
the text of `errPanic`.
-/

set_option autoImplicit false

namespace Dbx.Engine

def errPanic : String := "ERR internal server error"

/-- `strings.ToUpper` as far as a comparison with ASCII names can see it: besides
ASCII letters, the long s and the dotless i have ASCII capitals. -/
def toUpper : Bytes → Bytes
  | [] => []
  | 0xC5 :: 0xBF :: rest => 0x53 :: toUpper rest
  | 0xC4 :: 0xB1 :: rest => 0x49 :: toUpper rest
  | byte :: rest => (if 0x61 ≤ byte ∧ byte ≤ 0x7a then byte - 0x20 else byte) :: toUpper rest

def parseDigits (text : Bytes) : Option Nat :=
  if text = [] then none
  else
    text.foldl (fun number byte =>
      if 0x30 ≤ byte ∧ byte ≤ 0x39 then number.map fun n => n * 10 + (byte.toNat - 0x30)
      else none) (some 0)

/-- `strconv.ParseInt(text, 10, 64)`, none for either error. -/
def parseInt (text : Bytes) : Option Int64 :=
  let signed (negative : Bool) (digits : Bytes) : Option Int64 :=
    match parseDigits digits with
    | none => none
    | some number =>
      if negative then if number ≤ 2 ^ 63 then some (Int64.ofInt (-number)) else none
      else if number < 2 ^ 63 then some (Int64.ofInt number) else none
  match text with
  | 0x2d :: digits => signed true digits
  | 0x2b :: digits => signed false digits
  | digits => signed false digits

/-- `strconv.FormatInt(number, 10)`. -/
def formatInt (number : Int64) : Bytes :=
  ascii (toString number.toInt)

structure SetArgs where
  value : Option Bytes
  ttlSec : Int64
  nx : Bool
  xx : Bool
deriving DecidableEq, Repr

/-- The time to live behind `EX` or `PX`. -/
def parsePositive (text : Option Bytes) : Except String Int64 :=
  match parseInt (text.getD []) with
  | none => .error errOutOfRange
  | some number => if number ≤ 0 then .error errOutOfRange else .ok number

def parseSetOptions : List (Option Bytes) → SetArgs → Except String SetArgs
  | [], parsed => .ok parsed
  | arg :: rest, parsed =>
    let option := toUpper (arg.getD [])
    if option = ascii "NX" then parseSetOptions rest { parsed with nx := true }
    else if option = ascii "XX" then parseSetOptions rest { parsed with xx := true }
    else if option = ascii "EX" ∨ option = ascii "PX" then
      match rest with
      | [] => .error errSyntax
      | number :: rest =>
        match parsePositive number with
        | .error message => .error message
        | .ok number =>
          parseSetOptions rest { parsed with
            ttlSec := if option = ascii "EX" then number else number / 1000 }
    else .error errSyntax

def parseSetArgs : List (Option Bytes) → Except String SetArgs
  | [] => .error "missing value"
  | value :: options => parseSetOptions options ⟨value, 0, false, false⟩

namespace StringStore

variable {Index : Type}

def get (now : Int64) (key : Bytes) (kv : KVStore Index) : Except String (Option Bytes) :=
  match kv.get now key with
  | none => .ok none
  | some entry =>
    if entry.type ≠ .string then .error errWrongType
    else
      match entry.value with
      | .bytes data => .ok data
      | _ => .error errPanic

def set (now : Int64) (key : Bytes) (value : Option Bytes) (ttlSeconds : Int64) (nx xx : Bool)
    (kv : KVStore Index) : Bool × KVStore Index :=
  if nx && kv.exists now key then (false, kv)
  else if xx && !kv.exists now key then (false, kv)
  else (true, kv.set now key (.bytes value) .string (ttlSeconds * second))

def getSet (now : Int64) (key : Bytes) (value : Option Bytes) (kv : KVStore Index) :
    Except String (Option Bytes) × KVStore Index :=
  match get now key kv with
  | .error message => (.error message, kv)
  | .ok old => (.ok old, kv.set now key (.bytes value) .string 0)

/-- Read the number of an entry, add to it and write it back in place. -/
def incr (now : Int64) (key : Bytes) (amount : Int64) (kv : KVStore Index) :
    Except String Int64 × KVStore Index :=
  match kv.getForWrite now key with
  | (none, kv) =>
    let version := kv.version + 1
    (.ok amount, { kv.put key ⟨.bytes (some (formatInt amount)), .string, 0, version⟩ with
      version := version })
  | (some entry, kv) =>
    if entry.type ≠ .string then (.error errWrongType, kv)
    else
      match entry.value with
      | .bytes data =>
        match parseInt (data.getD []) with
        | none => (.error errOutOfRange, kv)
        | some number =>
          let sum := number + amount
          let version := kv.version + 1
          let entry := { entry with value := .bytes (some (formatInt sum)), version := version }
          (.ok sum, { kv.put key entry with version := version })
      | _ => (.error errPanic, kv)

def appendSlice (data value : Option Bytes) : Option Bytes :=
  match data, value.getD [] with
  | none, [] => none
  | none, bytes => some bytes
  | some data, bytes => some (data ++ bytes)

/-- Append to the bytes of an entry in place, without a new version. -/
def append (now : Int64) (key : Bytes) (value : Option Bytes) (kv : KVStore Index) :
    Except String Nat × KVStore Index :=
  match kv.getForWrite now key with
  | (none, kv) => (.ok (value.getD []).length, kv.put key ⟨.bytes value, .string, 0, 0⟩)
  | (some entry, kv) =>
    if entry.type ≠ .string then (.error errWrongType, kv)
    else
      match entry.value with
      | .bytes data =>
        let grown := appendSlice data value
        (.ok (grown.getD []).length, kv.put key { entry with value := .bytes grown })
      | _ => (.error errPanic, kv)

def strlen (now : Int64) (key : Bytes) (kv : KVStore Index) : Except String Nat :=
  (get now key kv).map fun value => (value.getD []).length

def getRange (now : Int64) (key : Bytes) (start stop : Int) (kv : KVStore Index) :
    Except String (Option Bytes) :=
  (get now key kv).map fun value =>
    match value with
    | none => some []
    | some bytes =>
      let length : Int := bytes.length
      let start := if start < 0 then length + start else start
      let stop := if stop < 0 then length + stop else stop
      let start := if start < 0 then 0 else start
      let stop := if length ≤ stop then length - 1 else stop
      if stop < start then some []
      else some ((bytes.drop start.toNat).take (stop - start + 1).toNat)

def mGet (now : Int64) (keys : List Bytes) (kv : KVStore Index) : List (Option Bytes) :=
  keys.map fun key =>
    match get now key kv with
    | .error _ => none
    | .ok value => value

def mSet (now : Int64) (pairs : AList fun _ : Bytes => Option Bytes) (kv : KVStore Index) :
    KVStore Index :=
  pairs.entries.foldl (fun kv pair => kv.set now pair.1 (.bytes pair.2) .string 0) kv

end StringStore

end Dbx.Engine
