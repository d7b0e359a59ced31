import Dbx.Engine.VectorIndex
import Dbx.Library.ByteStream
import Dbx.Protocol.Command

/-!
# The RESP parser

Commands as arrays of bulk strings or as lines, read from a finite stream. What
is left of the stream is part of every result.
-/

set_option autoImplicit false

namespace Dbx.Protocol

open Dbx.Engine

def maxRESPArrayItems : Nat := 4194304
def maxRESPBulkBytes : Nat := 8 * 2 ^ 20
def maxRESPLineBytes : Nat := 64 * 2 ^ 10

def carriageReturn : UInt8 := 0x0d
def lineFeed : UInt8 := 0x0a

/-- `bytes.TrimRight(line, "\r\n")`. -/
def trimLineEnd (line : Bytes) : Bytes :=
  (line.reverse.dropWhile fun byte => byte = carriageReturn || byte = lineFeed).reverse

def chopReturn (content : Bytes) : Bytes :=
  if content.getLast? = some carriageReturn then content.dropLast else content

/-- The lines of a reader whose buffer has the size of the limit: a line that
fills it is read in two parts, and the second fails where the stream has ended. A
return at the end of the buffer is left for the second part. -/
def readLine (r : Bytes) : Except String (Bytes × Bytes) :=
  let content := r.takeWhile (· ≠ lineFeed)
  match r.drop content.length with
  | _ :: rest =>
    if maxRESPLineBytes < (chopReturn content).length then .error "RESP line exceeds limit"
    else .ok (trimLineEnd (chopReturn content), rest)
  | [] =>
    if content = [] then .error "EOF"
    else if maxRESPLineBytes < content.length then .error "RESP line exceeds limit"
    else if content.length = maxRESPLineBytes ∧ content.getLast? ≠ some carriageReturn then
      .error "EOF"
    else .ok (trimLineEnd content, [])

def readInt (r : Bytes) : Except String (Int64 × Bytes) :=
  match readLine r with
  | .error message => .error message
  | .ok (line, rest) =>
    match parseInt line with
    | none => .error ("invalid integer: " ++ rawText line)
    | some number => .ok (number, rest)

def readBulkString : Bytes → Except String (Option Bytes × Bytes)
  | [] => .error "EOF"
  | byte :: rest =>
    if byte ≠ 0x24 then .error ("expected bulk string, got " ++ rawText [byte])
    else
      match readInt rest with
      | .error message => .error message
      | .ok (length, rest) =>
        if length < 0 then .ok (none, rest)
        else if Int64.ofNat maxRESPBulkBytes < length then
          .error "RESP bulk string exceeds limit"
        else
          let length := length.toInt.toNat
          match ExactRead.read (length + 2) rest with
          | .endOfStream => .error "EOF"
          | .unexpectedEnd => .error "unexpected EOF"
          | .complete buf rest =>
            if buf.drop length ≠ [carriageReturn, lineFeed] then
              .error "bulk string missing CRLF terminator"
            else .ok (some (buf.take length), rest)

def readBulkStrings : Nat → Bytes → Except String (List (Option Bytes) × Bytes)
  | 0, r => .ok ([], r)
  | count + 1, r =>
    match readBulkString r with
    | .error message => .error message
    | .ok (bulk, r) =>
      match readBulkStrings count r with
      | .error message => .error message
      | .ok (bulks, r) => .ok (bulk :: bulks, r)

def readArray (r : Bytes) : Except String (Command × Bytes) :=
  match readInt r with
  | .error message => .error ("RESP array count: " ++ message)
  | .ok (count, r) =>
    if count ≤ 0 then .error ("invalid array count: " ++ toString count.toInt)
    else if Int64.ofNat maxRESPArrayItems < count then .error "RESP array count exceeds limit"
    else
      match readBulkStrings count.toInt.toNat r with
      | .error message => .error message
      | .ok ([], _) => .error "empty command"
      | .ok (name :: args, r) => .ok (⟨name.getD [], args⟩, r)

/-- `bytes.Fields`, with the bytes of the field that has begun. -/
def fields : Nat → Bytes → Bytes → List Bytes
  | 0, field, _ => if field = [] then [] else [field]
  | _ + 1, field, [] => if field = [] then [] else [field]
  | fuel + 1, field, byte :: line =>
    match spaceSequences.find? fun space => space.isPrefixOf (byte :: line) with
    | none => fields fuel (field ++ [byte]) line
    | some space =>
      let rest := fields fuel [] ((byte :: line).drop space.length)
      if field = [] then rest else field :: rest

def readInline (r : Bytes) : Except String (Command × Bytes) :=
  match readLine r with
  | .error message => .error message
  | .ok (line, rest) =>
    match fields line.length [] line with
    | [] => .error "empty inline command"
    | name :: args => .ok (⟨name, args.map some⟩, rest)

def readCommand : Bytes → Except String (Command × Bytes)
  | [] => .error "EOF"
  | byte :: rest => if byte = 0x2a then readArray rest else readInline (byte :: rest)

-- `*2\r\n$3\r\nGET\r\n$1\r\nk\r\n` and a byte behind it.
example : readCommand [0x2a, 0x32, 0x0d, 0x0a, 0x24, 0x33, 0x0d, 0x0a, 0x47, 0x45, 0x54, 0x0d, 0x0a,
    0x24, 0x31, 0x0d, 0x0a, 0x6b, 0x0d, 0x0a, 0x2a] =
    .ok (⟨[0x47, 0x45, 0x54], [some [0x6b]]⟩, [0x2a]) := by
  decide +kernel

structure Command.Deliverable (cmd : Command) : Prop where
  items : cmd.numArgs < maxRESPArrayItems
  bulk : ∀ arg ∈ cmd.args, (arg.getD []).length ≤ maxRESPBulkBytes

theorem readBulkString_length {r rest : Bytes} {bulk : Option Bytes}
    (read : readBulkString r = .ok (bulk, rest)) : (bulk.getD []).length ≤ maxRESPBulkBytes := by
  cases r with
  | nil => cases read
  | cons byte r =>
    simp only [readBulkString] at read
    split at read
    · cases read
    cases number : readInt r with
    | error message => simp [number] at read
    | ok parsed =>
      obtain ⟨length, r⟩ := parsed
      simp only [number] at read
      split at read
      · cases read
        exact Nat.zero_le _
      split at read
      · cases read
      rename_i nonneg bounded
      cases block : ExactRead.read (length.toInt.toNat + 2) r with
      | endOfStream | unexpectedEnd => simp only [block, reduceCtorEq] at read
      | complete buf r =>
        simp only [block] at read
        split at read
        · cases read
        cases read
        have limit : length.toInt ≤ (Int64.ofNat maxRESPBulkBytes).toInt :=
          Int64.le_iff_toInt_le.mp (Int64.not_lt.mp bounded)
        have limitValue : (Int64.ofNat maxRESPBulkBytes).toInt =
            (maxRESPBulkBytes : Nat) := by decide
        rw [limitValue] at limit
        simp only [Option.getD_some, List.length_take]
        omega

theorem readBulkStrings_bounded {count : Nat} {r rest : Bytes} {bulks : List (Option Bytes)}
    (read : readBulkStrings count r = .ok (bulks, rest)) :
    bulks.length = count ∧ ∀ bulk ∈ bulks, (bulk.getD []).length ≤ maxRESPBulkBytes := by
  induction count generalizing r bulks with
  | zero =>
    cases read
    exact ⟨rfl, fun _ member => absurd member List.not_mem_nil⟩
  | succ count ih =>
    simp only [readBulkStrings] at read
    cases first : readBulkString r with
    | error message => simp [first] at read
    | ok parsed =>
      obtain ⟨bulk, r⟩ := parsed
      simp only [first] at read
      cases others : readBulkStrings count r with
      | error message => simp [others] at read
      | ok parsed =>
        obtain ⟨bulks, r⟩ := parsed
        simp only [others] at read
        cases read
        obtain ⟨length, bounded⟩ := ih others
        refine ⟨by simp [length], ?_⟩
        intro item member
        rcases List.mem_cons.mp member with rfl | member
        · exact readBulkString_length first
        · exact bounded item member

theorem readLine_length {r line rest : Bytes} (read : readLine r = .ok (line, rest)) :
    line.length ≤ maxRESPLineBytes := by
  have trimmed (line : Bytes) : (trimLineEnd line).length ≤ line.length := by
    rw [trimLineEnd, List.length_reverse]
    exact ((List.dropWhile_sublist _).length_le).trans_eq List.length_reverse
  unfold readLine at read
  simp only at read
  split at read
  · split at read
    · cases read
    · cases read
      exact (trimmed _).trans (Nat.not_lt.mp ‹_›)
  · split at read
    · cases read
    split at read
    · cases read
    split at read
    · cases read
    · cases read
      exact (trimmed _).trans (Nat.not_lt.mp ‹_›)

theorem spaceSequences_long : ∀ space ∈ spaceSequences, 0 < space.length := by
  decide

theorem fields_bounded (fuel : Nat) (field line : Bytes) :
    (fields fuel field line).length ≤ line.length + 1 ∧
      ∀ part ∈ fields fuel field line, part.length ≤ field.length + line.length := by
  fun_induction fields fuel field line with
  | case1 => simp
  | case2 field line started => simp
  | case3 => simp
  | case4 field fuel started => simp
  | case5 field fuel byte line unmatched ih =>
    simp only [List.length_append, List.length_cons, List.length_nil] at ih ⊢
    exact ⟨by omega, fun part member => by have := ih.2 part member; omega⟩
  | case6 fuel byte line space _ rest ih =>
    obtain ⟨count, bounded⟩ := ih
    change rest.length ≤ _ at count
    rw [List.length_drop] at count bounded
    refine ⟨by omega, ?_⟩
    intro part member
    have := bounded part member
    omega
  | case7 fuel field byte line space found rest started ih =>
    have long : 0 < space.length := spaceSequences_long space (List.mem_of_find?_eq_some found)
    obtain ⟨count, bounded⟩ := ih
    change rest.length ≤ _ at count
    rw [List.length_drop] at count bounded
    simp only [List.length_cons, List.length_nil] at count bounded ⊢
    refine ⟨by omega, ?_⟩
    intro part member
    rcases List.mem_cons.mp member with rfl | member
    · omega
    · have := bounded part member
      omega

theorem readArray_deliverable {r rest : Bytes} {cmd : Command}
    (read : readArray r = .ok (cmd, rest)) : cmd.Deliverable := by
  unfold readArray at read
  cases number : readInt r with
  | error message => simp [number] at read
  | ok parsed =>
    obtain ⟨count, r⟩ := parsed
    simp only [number] at read
    split at read
    · cases read
    split at read
    · cases read
    rename_i bounded
    cases items : readBulkStrings count.toInt.toNat r with
    | error message => simp only [items, reduceCtorEq] at read
    | ok parsed =>
      obtain ⟨bulks, r⟩ := parsed
      cases bulks with
      | nil => simp only [items, reduceCtorEq] at read
      | cons name args =>
        simp only [items] at read
        cases read
        obtain ⟨length, bulk⟩ := readBulkStrings_bounded items
        have limit : count.toInt ≤ (Int64.ofNat maxRESPArrayItems).toInt :=
          Int64.le_iff_toInt_le.mp (Int64.not_lt.mp bounded)
        have limitValue : (Int64.ofNat maxRESPArrayItems).toInt =
            (maxRESPArrayItems : Nat) := by decide
        rw [limitValue] at limit
        rw [List.length_cons] at length
        refine ⟨?_, fun arg member => bulk arg (List.mem_cons_of_mem name member)⟩
        change args.length < maxRESPArrayItems
        omega

theorem readInline_deliverable {r rest : Bytes} {cmd : Command}
    (read : readInline r = .ok (cmd, rest)) : cmd.Deliverable := by
  unfold readInline at read
  cases content : readLine r with
  | error message => simp only [content, reduceCtorEq] at read
  | ok parsed =>
    obtain ⟨line, r⟩ := parsed
    have short := readLine_length content
    obtain ⟨count, length⟩ := fields_bounded line.length [] line
    simp only [content] at read
    cases parts : fields line.length [] line with
    | nil => simp only [parts, reduceCtorEq] at read
    | cons name args =>
      simp only [parts] at read
      cases read
      rw [parts, List.length_cons] at count
      have lines : maxRESPLineBytes < maxRESPArrayItems := by decide
      have bulks : maxRESPLineBytes < maxRESPBulkBytes := by decide
      constructor
      · simp only [Command.numArgs, List.length_map]
        omega
      · intro arg member
        obtain ⟨part, inside, rfl⟩ := List.mem_map.mp member
        have := length part (parts ▸ List.mem_cons_of_mem name inside)
        simp only [List.length_nil, Option.getD_some] at this ⊢
        omega

theorem readCommand_deliverable {r rest : Bytes} {cmd : Command}
    (read : readCommand r = .ok (cmd, rest)) : cmd.Deliverable := by
  cases r with
  | nil => cases read
  | cons byte r =>
    simp only [readCommand] at read
    split at read
    · exact readArray_deliverable read
    · exact readInline_deliverable read

end Dbx.Protocol
