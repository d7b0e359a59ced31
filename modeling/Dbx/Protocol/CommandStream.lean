import Dbx.Protocol.BufferedParser

/-!
# Streams of commands

Commands written one behind the other, and what the parser delivers of such a
stream: all of them when the stream is whole, and those in front of the cut when
it is not.
-/

set_option autoImplicit false

namespace Dbx.Protocol

open Dbx.Engine

structure ClientCommand where
  name : Bytes
  args : List Bytes
  items : args.length + 1 ≤ maxRESPArrayItems
  bulk : ∀ data ∈ name :: args, data.length ≤ maxRESPBulkBytes

namespace ClientCommand

def frame (sent : ClientCommand) : Bytes := commandFrame sent.name sent.args

def command (sent : ClientCommand) : Command := ⟨sent.name, sent.args.map some⟩

def stream (commands : List ClientCommand) : Bytes := (commands.map frame).flatten

/-- The commands whose frames lie in the first bytes of their stream. -/
def contained : Nat → List ClientCommand → List ClientCommand
  | _, [] => []
  | length, sent :: commands =>
    if sent.frame.length ≤ length then
      sent :: contained (length - sent.frame.length) commands
    else []

/-- The results of calls that deliver these commands and then fail. -/
def results (commands : List ClientCommand) (message : String) : List (Except String Command) :=
  (commands.map command).map Except.ok ++ [.error message]

@[simp] theorem stream_cons (sent : ClientCommand) (commands : List ClientCommand) :
    stream (sent :: commands) = sent.frame ++ stream commands := rfl

theorem readCommand_frame (sent : ClientCommand) (rest : Bytes) :
    readCommand (sent.frame ++ rest) = .ok (sent.command, rest) :=
  readCommand_commandFrame (sent.bulk _ (List.mem_cons_self ..))
    (fun data member => sent.bulk data (List.mem_cons_of_mem _ member)) sent.items rest

end ClientCommand

/-!
## Cut frames

A number that is cut may read as a smaller one, but nothing is left behind it.
-/

theorem parseInt_unsigned {text : Bytes} {number : Int64} (unsigned : (0x2d : UInt8) ∉ text)
    (parsed : parseInt text = some number) : ¬ number < 0 := by
  have signless {value : Nat} (parsed : (if value < 2 ^ 63 then some (Int64.ofInt value)
      else none) = some number) : ¬ number < 0 := by
    split at parsed
    · cases parsed
      rw [Int64.lt_iff_toInt_lt, Int64.toInt_ofInt_of_le (by omega) (by omega), Int64.toInt_zero]
      omega
    · cases parsed
  unfold parseInt at parsed
  split at parsed
  · exact absurd (List.mem_cons_self ..) unsigned
  all_goals
    dsimp only at parsed
    split at parsed
    · cases parsed
    · exact signless parsed

theorem mem_of_mem_trimLineEnd {byte : UInt8} {line : Bytes} (member : byte ∈ trimLineEnd line) :
    byte ∈ line := by
  rw [trimLineEnd, List.mem_reverse] at member
  exact List.mem_reverse.mp ((List.dropWhile_sublist _).subset member)

theorem readInt_cut {number length : Nat} (short : length < (formatNat number ++ crlf).length) :
    (∃ message, readInt ((formatNat number ++ crlf).take length) = .error message) ∨
      ∃ value, readInt ((formatNat number ++ crlf).take length) = .ok (value, []) ∧
        ¬ value < 0 := by
  have bytes : ∀ byte ∈ (formatNat number ++ crlf).take length,
      byte ≠ lineFeed ∧ byte ≠ 0x2d := by
    have front : (formatNat number ++ crlf).take length =
        (formatNat number ++ [carriageReturn]).take length := by
      rw [show formatNat number ++ crlf = formatNat number ++ [carriageReturn] ++ [lineFeed] by
        simp [crlf], List.take_append_of_le_length]
      simp only [crlf, List.length_append, List.length_cons, List.length_nil] at short ⊢
      omega
    intro byte member
    rw [front] at member
    rcases List.mem_append.mp (List.mem_of_mem_take member) with digit | last
    · obtain ⟨low, -⟩ := formatNat_bytes digit
      constructor
      · rintro rfl
        exact absurd low (by decide)
      · rintro rfl
        exact absurd low (by decide)
    · rw [List.mem_singleton.mp last]
      decide
  generalize (formatNat number ++ crlf).take length = line at bytes
  have ended := readLine_ended fun member => (bytes lineFeed member).1 rfl
  have unsigned : (0x2d : UInt8) ∉ trimLineEnd line :=
    fun member => (bytes 0x2d (mem_of_mem_trimLineEnd member)).2 rfl
  unfold readInt
  cases read : readLine line with
  | error message => exact .inl ⟨message, rfl⟩
  | ok found =>
    rw [read] at ended
    split at ended
    · cases ended
    split at ended
    · cases ended
    split at ended
    · cases ended
    cases ended
    dsimp only
    cases parsed : parseInt (trimLineEnd line) with
    | none => exact .inl ⟨_, rfl⟩
    | some value => exact .inr ⟨value, rfl, parseInt_unsigned unsigned parsed⟩

theorem readBulkString_cut {data : Bytes} {length : Nat} (bounded : data.length ≤ maxRESPBulkBytes)
    (short : length < (bulkString data).length) :
    ∃ message, readBulkString ((bulkString data).take length) = .error message := by
  have small : data.length < 2 ^ 63 := bounded.trans_lt (by decide)
  cases length with
  | zero => exact ⟨"EOF", rfl⟩
  | succ length =>
    have frame : bulkString data =
        0x24 :: ((formatNat data.length ++ crlf) ++ (data ++ crlf)) := by
      simp [bulkString]
    rw [frame, List.length_cons, List.length_append] at short
    rw [frame, List.take_succ_cons, readBulkString]
    simp only [ne_eq, not_true, if_false]
    by_cases header : length < (formatNat data.length ++ crlf).length
    · rw [List.take_append_of_le_length (Nat.le_of_lt header)]
      rcases readInt_cut header with ⟨message, read⟩ | ⟨value, read, nonneg⟩
      · rw [read]
        exact ⟨message, rfl⟩
      rw [read]
      simp only [nonneg, if_false]
      split
      · exact ⟨_, rfl⟩
      · rw [ExactRead.read_nil (by omega)]
        exact ⟨_, rfl⟩
    · rw [List.take_append, List.take_of_length_le (Nat.not_lt.mp header),
        readInt_formatNat small]
      have value : (Int64.ofNat data.length).toInt = data.length :=
        Int64.toInt_ofNat_of_lt small
      have nonneg : ¬ Int64.ofNat data.length < 0 := by
        rw [Int64.lt_iff_toInt_lt, value, Int64.toInt_zero]
        omega
      simp only [nonneg, if_false, value, Int.toNat_natCast]
      split
      · exact ⟨_, rfl⟩
      cases read : ExactRead.read (data.length + 2)
          ((data ++ crlf).take (length - (formatNat data.length ++ crlf).length)) with
      | endOfStream => exact ⟨_, rfl⟩
      | unexpectedEnd => exact ⟨_, rfl⟩
      | complete buf rest =>
        obtain ⟨split, full⟩ := ExactRead.read_eq_complete read
        have lengths := congrArg List.length split
        simp only [crlf, List.length_take, List.length_append, List.length_cons,
          List.length_nil] at lengths short header
        omega

theorem readBulkStrings_cut {items : List Bytes} {length : Nat}
    (bounded : ∀ data ∈ items, data.length ≤ maxRESPBulkBytes)
    (short : length < (items.map bulkString).flatten.length) :
    ∃ message, readBulkStrings items.length ((items.map bulkString).flatten.take length) =
      .error message := by
  induction items generalizing length with
  | nil => exact absurd short (Nat.not_lt_zero _)
  | cons data items ih =>
    have first := bounded data (List.mem_cons_self ..)
    rw [List.map_cons, List.flatten_cons, List.length_append] at short
    rw [List.map_cons, List.flatten_cons, List.length_cons, readBulkStrings]
    by_cases inside : length < (bulkString data).length
    · obtain ⟨message, failed⟩ := readBulkString_cut first inside
      rw [List.take_append_of_le_length (Nat.le_of_lt inside), failed]
      exact ⟨message, rfl⟩
    · have behind : length - (bulkString data).length < (items.map bulkString).flatten.length := by
        omega
      obtain ⟨message, failed⟩ :=
        ih (fun other member => bounded other (List.mem_cons_of_mem _ member)) behind
      rw [List.take_append, List.take_of_length_le (Nat.not_lt.mp inside),
        readBulkString_bulkString first]
      simp only [failed]
      exact ⟨message, rfl⟩

theorem ClientCommand.readCommand_cut (sent : ClientCommand) {length : Nat}
    (short : length < sent.frame.length) :
    ∃ message, readCommand (sent.frame.take length) = .error message := by
  have few : sent.args.length + 1 < 2 ^ 63 := sent.items.trans_lt (by decide)
  cases length with
  | zero => exact ⟨"EOF", rfl⟩
  | succ length =>
    have frame : sent.frame = 0x2a :: ((formatNat (sent.args.length + 1) ++ crlf) ++
        ((sent.name :: sent.args).map bulkString).flatten) := by
      simp [ClientCommand.frame, commandFrame]
    rw [frame, List.length_cons, List.length_append] at short
    rw [frame, List.take_succ_cons, readCommand, if_pos rfl, readArray]
    by_cases header : length < (formatNat (sent.args.length + 1) ++ crlf).length
    · rw [List.take_append_of_le_length (Nat.le_of_lt header)]
      rcases readInt_cut header with ⟨message, read⟩ | ⟨value, read, -⟩
      · rw [read]
        exact ⟨_, rfl⟩
      rw [read]
      dsimp only
      split
      · exact ⟨_, rfl⟩
      split
      · exact ⟨_, rfl⟩
      rename_i positive _
      -- No bulk string follows.
      have some : value.toInt.toNat = value.toInt.toNat - 1 + 1 := by
        rw [Int64.not_le, Int64.lt_iff_toInt_lt, Int64.toInt_zero] at positive
        omega
      rw [some, readBulkStrings]
      exact ⟨_, rfl⟩
    · have behind : length - (formatNat (sent.args.length + 1) ++ crlf).length <
          ((sent.name :: sent.args).map bulkString).flatten.length := by
        omega
      obtain ⟨message, failed⟩ := readBulkStrings_cut sent.bulk behind
      have value : (Int64.ofNat (sent.args.length + 1)).toInt = (sent.args.length + 1 : Nat) :=
        Int64.toInt_ofNat_of_lt few
      rw [List.take_append, List.take_of_length_le (Nat.not_lt.mp header), readInt_formatNat few]
      dsimp only
      split
      · exact ⟨_, rfl⟩
      split
      · exact ⟨_, rfl⟩
      rw [value, Int.toNat_natCast]
      rw [List.length_cons] at failed
      rw [failed]
      exact ⟨message, rfl⟩

/-!
## Reading a stream
-/

namespace ClientCommand

theorem readCommands_behind (commands : List ClientCommand) (rest : Bytes) (calls : Nat)
    {p : RESPParser} (sent : p.contents = stream commands ++ rest) :
    ∃ behind : RESPParser, behind.contents = rest ∧
      p.readCommands calls = ((commands.map command).map Except.ok).take calls ++
        behind.readCommands (calls - commands.length) := by
  induction commands generalizing calls p with
  | nil => exact ⟨p, sent, by simp⟩
  | cons first commands ih =>
    have front : p.contents = first.frame ++ (stream commands ++ rest) := by
      rw [sent, stream_cons, List.append_assoc]
    obtain ⟨next, read, left⟩ := RESPParser.readCommand_delivered
      (front ▸ first.readCommand_frame (stream commands ++ rest))
    cases calls with
    | zero =>
      obtain ⟨behind, rest, -⟩ := ih 0 left
      exact ⟨behind, rest, by simp [RESPParser.readCommands]⟩
    | succ calls =>
      obtain ⟨behind, rest, results⟩ := ih calls left
      refine ⟨behind, rest, ?_⟩
      rw [RESPParser.readCommands, read]
      simp only [results, List.map_cons, List.take_succ_cons, List.length_cons,
        Nat.add_sub_add_right, List.cons_append]

theorem readCommands_failed {p : RESPParser} {message : String}
    (failed : readCommand p.contents = .error message) (calls : Nat) :
    p.readCommands calls = [Except.error message].take calls := by
  cases calls with
  | zero => rfl
  | succ calls =>
    rw [RESPParser.readCommands, RESPParser.readCommand_failed failed, List.take_succ_cons,
      List.take_nil]

theorem stream_cut (commands : List ClientCommand) {length : Nat}
    (short : length < (stream commands).length) :
    ∃ (sent : ClientCommand) (inside : Nat), inside < sent.frame.length ∧
      (stream commands).take length =
        stream (contained length commands) ++ sent.frame.take inside := by
  induction commands generalizing length with
  | nil => exact absurd short (Nat.not_lt_zero _)
  | cons first commands ih =>
    rw [stream_cons, List.length_append] at short
    rw [stream_cons, contained]
    by_cases whole : first.frame.length ≤ length
    · have behind : length - first.frame.length < (stream commands).length := by omega
      obtain ⟨sent, inside, cut, same⟩ := ih behind
      refine ⟨sent, inside, cut, ?_⟩
      rw [if_pos whole, List.take_append, List.take_of_length_le whole, same, stream_cons,
        List.append_assoc]
    · refine ⟨first, length, Nat.not_le.mp whole, ?_⟩
      rw [if_neg whole, List.take_append_of_le_length (Nat.le_of_not_le whole)]
      rfl

end ClientCommand

open ClientCommand in
/-- Any number of calls on a stream of commands, whatever chunks it arrives in. A whole
stream gives its commands and then its end. A stream that is cut gives the commands in
front of the cut and then an error. -/
theorem readCommands_stream (commands : List ClientCommand)
    (chunks : List { chunk : Bytes // chunk ≠ [] }) (length calls : Nat)
    (arrived : BufferedReader.unread chunks = (stream commands).take length) :
    ((stream commands).length ≤ length →
      RESPParser.readCommands calls (.ofChunks chunks) = (results commands "EOF").take calls) ∧
    (length < (stream commands).length → ∃ message,
      RESPParser.readCommands calls (.ofChunks chunks) =
        (results (contained length commands) message).take calls) := by
  constructor
  · intro whole
    have sent : (.ofChunks chunks : RESPParser).contents = stream commands ++ [] := by
      rw [BufferedReader.contents_ofChunks, arrived, List.take_of_length_le whole, List.append_nil]
    obtain ⟨behind, ended, delivered⟩ := readCommands_behind commands [] calls sent
    have failed : readCommand behind.contents = .error "EOF" := by
      rw [ended]
      rfl
    rw [delivered, readCommands_failed failed, results, List.take_append, List.length_map,
      List.length_map]
  · intro short
    obtain ⟨next, inside, cut, same⟩ := stream_cut commands short
    obtain ⟨message, failed⟩ := next.readCommand_cut cut
    obtain ⟨behind, left, delivered⟩ := @readCommands_behind (contained length commands)
      (next.frame.take inside) calls (.ofChunks chunks) (arrived.trans same)
    refine ⟨message, ?_⟩
    rw [delivered, readCommands_failed (left ▸ failed), results, List.take_append, List.length_map,
      List.length_map]

-- `PING` and `GET` with a key of two bytes, as three chunks that end inside the second.
theorem readCommands_one_of_two : ∃ message,
    RESPParser.readCommands 5 (.ofChunks [⟨ascii "*1\r\n$4\r\nPI", by decide⟩,
      ⟨ascii "NG\r\n*2\r", by decide⟩, ⟨ascii "\n$3\r\nGET\r\n$2\r\n\r\n\r", by decide⟩]) =
      [.ok ⟨ascii "PING", []⟩, .error message] := by
  let commands : List ClientCommand :=
    [⟨ascii "PING", [], by decide, by decide⟩, ⟨ascii "GET", [ascii "\r\n"], by decide, by decide⟩]
  have kept : (ClientCommand.contained 34 commands).map ClientCommand.command =
      [⟨ascii "PING", []⟩] := by
    decide +kernel
  obtain ⟨message, read⟩ := (readCommands_stream commands
    [⟨ascii "*1\r\n$4\r\nPI", by decide⟩, ⟨ascii "NG\r\n*2\r", by decide⟩,
      ⟨ascii "\n$3\r\nGET\r\n$2\r\n\r\n\r", by decide⟩] 34 5 (by decide +kernel)).2
    (by decide +kernel)
  rw [ClientCommand.results, kept] at read
  exact ⟨message, read⟩

end Dbx.Protocol
