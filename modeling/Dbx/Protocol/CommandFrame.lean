import Mathlib.Data.Nat.Digits.Defs
import Dbx.Protocol.Parser

/-!
# Commands as a client writes them

An array of bulk strings with their lengths in decimal. The parser reads such a
command back and leaves the stream behind it untouched.
-/

set_option autoImplicit false

namespace Dbx.Protocol

open Dbx.Engine

def crlf : Bytes := [carriageReturn, lineFeed]

/-- The verb `%d` for a length. -/
def formatNat (number : Nat) : Bytes := ascii (toString number)

def bulkString (data : Bytes) : Bytes :=
  0x24 :: formatNat data.length ++ crlf ++ data ++ crlf

def commandFrame (name : Bytes) (args : List Bytes) : Bytes :=
  0x2a :: formatNat (args.length + 1) ++ crlf ++ bulkString name ++ (args.map bulkString).flatten

theorem digit_byte {char : Char} (digit : char.isDigit = true) :
    0x30 ≤ UInt8.ofNat char.toNat ∧ UInt8.ofNat char.toNat ≤ 0x39 ∧
      (UInt8.ofNat char.toNat).toNat = char.toNat := by
  have bounds : 48 ≤ char.toNat ∧ char.toNat ≤ 57 := by
    simpa [Char.isDigit, UInt32.le_iff_toNat_le] using digit
  have small : (UInt8.ofNat char.toNat).toNat = char.toNat := by
    rw [UInt8.toNat_ofNat']
    omega
  refine ⟨?_, ?_, small⟩
  · rw [UInt8.le_iff_toNat_le, small]
    exact bounds.1
  · rw [UInt8.le_iff_toNat_le, small]
    exact bounds.2

theorem foldl_digits (chars : List Char) (digits : ∀ char ∈ chars, char.isDigit = true)
    (start : Nat) :
    (chars.map fun char => UInt8.ofNat char.toNat).foldl (fun number byte =>
      if 0x30 ≤ byte ∧ byte ≤ 0x39 then number.map fun n => n * 10 + (byte.toNat - 0x30)
      else none) (some start) = some (Nat.ofDigitChars 10 chars start) := by
  induction chars generalizing start with
  | nil => rfl
  | cons char chars ih =>
    obtain ⟨low, high, value⟩ := digit_byte (digits char (List.mem_cons_self ..))
    rw [List.map_cons, List.foldl_cons, if_pos ⟨low, high⟩, Option.map_some, value,
      Nat.ofDigitChars_cons, ih fun other member => digits other (List.mem_cons_of_mem _ member)]
    rw [Nat.mul_comm]
    rfl

theorem formatNat_eq (number : Nat) :
    formatNat number = (Nat.toDigits 10 number).map fun char => UInt8.ofNat char.toNat := by
  rw [formatNat, ascii, Nat.toString_eq_ofList_toDigits, String.toList_ofList]

theorem parseDigits_formatNat (number : Nat) : parseDigits (formatNat number) = some number := by
  rw [formatNat_eq, parseDigits, if_neg (by simp [Nat.toDigits_ne_nil]),
    foldl_digits _ fun char member => Nat.isDigit_of_mem_toDigits (by decide) (by decide) member,
    Nat.ofDigitChars_toDigits (by decide) (by decide)]

theorem formatNat_bytes {number : Nat} {byte : UInt8} (member : byte ∈ formatNat number) :
    0x30 ≤ byte ∧ byte ≤ 0x39 := by
  rw [formatNat_eq] at member
  obtain ⟨char, inside, rfl⟩ := List.mem_map.mp member
  obtain ⟨low, high, -⟩ := digit_byte
    (Nat.isDigit_of_mem_toDigits (by decide) (by decide) inside)
  exact ⟨low, high⟩

theorem parseInt_formatNat {number : Nat} (small : number < 2 ^ 63) :
    parseInt (formatNat number) = some (Int64.ofNat number) := by
  have parsed := parseDigits_formatNat number
  have unsigned : ∀ byte ∈ formatNat number, byte ≠ 0x2d ∧ byte ≠ 0x2b := by
    intro byte member
    obtain ⟨low, -⟩ := formatNat_bytes member
    constructor
    · rintro rfl
      exact absurd low (by decide)
    · rintro rfl
      exact absurd low (by decide)
  unfold parseInt
  split
  · rename_i digits same
    exact absurd rfl (unsigned 0x2d (same ▸ List.mem_cons_self ..)).1
  · rename_i digits same
    exact absurd rfl (unsigned 0x2b (same ▸ List.mem_cons_self ..)).2
  · simp only [parsed, Bool.false_eq_true, if_false, if_pos small]
    rfl

section

variable {line : Bytes} (plain : ∀ byte ∈ line, byte ≠ carriageReturn ∧ byte ≠ lineFeed)
include plain

theorem trimLineEnd_plain : trimLineEnd line = line := by
  have kept : line.reverse.dropWhile (fun byte => byte = carriageReturn || byte = lineFeed) =
      line.reverse := by
    cases reversed : line.reverse with
    | nil => rfl
    | cons last bytes =>
      have member : last ∈ line :=
        List.mem_reverse.mp (reversed ▸ List.mem_cons_self ..)
      exact List.dropWhile_cons_of_neg (by simp [plain last member])
  rw [trimLineEnd, kept, List.reverse_reverse]

theorem readLine_crlf (short : line.length ≤ maxRESPLineBytes) (rest : Bytes) :
    readLine (line ++ crlf ++ rest) = .ok (line, rest) := by
  have content : (line ++ crlf ++ rest).takeWhile (fun byte => decide (byte ≠ lineFeed)) =
      line ++ [carriageReturn] := by
    rw [crlf, List.append_assoc, List.takeWhile_append_of_pos]
    · rfl
    · intro byte member
      simpa using (plain byte member).2
  have behind : (line ++ crlf ++ rest).drop (line ++ [carriageReturn]).length =
      lineFeed :: rest := by
    rw [crlf, List.append_assoc, show line ++ ([carriageReturn, lineFeed] ++ rest) =
      (line ++ [carriageReturn]) ++ (lineFeed :: rest) by simp, List.drop_left]
  have chopped : chopReturn (line ++ [carriageReturn]) = line := by
    simp [chopReturn]
  unfold readLine
  simp only [content, behind, chopped, if_neg (Nat.not_lt.mpr short), trimLineEnd_plain plain]

end

theorem length_formatNat {number : Nat} (small : number < 2 ^ 63) :
    (formatNat number).length ≤ 19 := by
  rw [formatNat_eq, List.length_map]
  exact Nat.toDigits_length 10 number 19 (by decide) (by omega)

theorem readInt_formatNat {number : Nat} (small : number < 2 ^ 63) (rest : Bytes) :
    readInt (formatNat number ++ crlf ++ rest) = .ok (Int64.ofNat number, rest) := by
  have plain : ∀ byte ∈ formatNat number, byte ≠ carriageReturn ∧ byte ≠ lineFeed := by
    intro byte member
    obtain ⟨low, -⟩ := formatNat_bytes member
    constructor
    · rintro rfl
      exact absurd low (by decide)
    · rintro rfl
      exact absurd low (by decide)
  have short := (length_formatNat small).trans (by decide : 19 ≤ maxRESPLineBytes)
  unfold readInt
  simp only [readLine_crlf plain short, parseInt_formatNat small]

theorem readBulkString_bulkString {data : Bytes} (short : data.length ≤ maxRESPBulkBytes)
    (rest : Bytes) : readBulkString (bulkString data ++ rest) = .ok (some data, rest) := by
  have bounded : data.length ≤ 8 * 2 ^ 20 := short
  have frame : bulkString data ++ rest =
      0x24 :: (formatNat data.length ++ crlf ++ (data ++ crlf ++ rest)) := by
    simp [bulkString]
  have value : (Int64.ofNat data.length).toInt = data.length :=
    Int64.toInt_ofNat_of_lt (by omega)
  have nonnegative : ¬ Int64.ofNat data.length < 0 := by
    rw [Int64.lt_iff_toInt_lt, value, Int64.toInt_zero]
    omega
  have fits : ¬ Int64.ofNat maxRESPBulkBytes < Int64.ofNat data.length := by
    rw [Int64.lt_iff_toInt_lt, value]
    have limit : (Int64.ofNat maxRESPBulkBytes).toInt = 8 * 2 ^ 20 := by decide
    omega
  have block : ExactRead.read (data.length + 2) (data ++ crlf ++ rest) =
      .complete (data ++ crlf) rest :=
    ExactRead.read_append rest (by simp [crlf])
  rw [frame, readBulkString]
  simp only [ne_eq, not_true, if_false, readInt_formatNat (by omega : data.length < 2 ^ 63),
    nonnegative, fits, value, Int.toNat_natCast, block, List.drop_left, List.take_left]
  rfl

theorem readBulkStrings_bulkStrings (items : List Bytes)
    (short : ∀ data ∈ items, data.length ≤ maxRESPBulkBytes) (rest : Bytes) :
    readBulkStrings items.length ((items.map bulkString).flatten ++ rest) =
      .ok (items.map some, rest) := by
  induction items with
  | nil => rfl
  | cons data items ih =>
    have first := readBulkString_bulkString (short data (List.mem_cons_self ..))
      ((items.map bulkString).flatten ++ rest)
    have others := ih fun other member => short other (List.mem_cons_of_mem _ member)
    rw [List.length_cons, readBulkStrings, List.map_cons, List.flatten_cons, List.append_assoc,
      first]
    simp only [others, List.map_cons]

theorem readCommand_commandFrame {name : Bytes} {args : List Bytes}
    (named : name.length ≤ maxRESPBulkBytes)
    (short : ∀ data ∈ args, data.length ≤ maxRESPBulkBytes)
    (few : args.length < maxRESPArrayItems) (rest : Bytes) :
    readCommand (commandFrame name args ++ rest) = .ok (⟨name, args.map some⟩, rest) := by
  have few' : args.length < 4194304 := few
  have frame : commandFrame name args ++ rest =
      0x2a :: (formatNat (args.length + 1) ++ crlf ++
        (((name :: args).map bulkString).flatten ++ rest)) := by
    simp [commandFrame]
  have value : (Int64.ofNat (args.length + 1)).toInt = (args.length + 1 : Nat) :=
    Int64.toInt_ofNat_of_lt (by omega)
  have positive : ¬ Int64.ofNat (args.length + 1) ≤ 0 := by
    rw [Int64.le_iff_toInt_le, value, Int64.toInt_zero]
    omega
  have fits : ¬ Int64.ofNat maxRESPArrayItems < Int64.ofNat (args.length + 1) := by
    rw [Int64.lt_iff_toInt_lt, value]
    have limit : (Int64.ofNat maxRESPArrayItems).toInt = 4194304 := by decide
    omega
  have items := readBulkStrings_bulkStrings (name :: args)
    (List.forall_mem_cons.mpr ⟨named, short⟩) rest
  rw [List.length_cons, List.map_cons] at items
  have counted := readInt_formatNat (by omega : args.length + 1 < 2 ^ 63)
    (((name :: args).map bulkString).flatten ++ rest)
  rw [frame, readCommand, if_pos rfl, readArray, counted]
  simp only [positive, fits, if_false, value, Int.toNat_natCast]
  rw [List.map_cons, items]
  rfl

end Dbx.Protocol
