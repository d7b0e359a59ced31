import Dbx.Library.BufferedReader
import Dbx.Protocol.CommandFrame

/-!
# The parser behind its buffer

The parser as it reads a connection: bytes arrive in chunks of any size and go
through a buffer of 64 KiB. Every reading function agrees with its counterpart on
a plain stream, so the chunks do not show in a command.
-/

set_option autoImplicit false

namespace Dbx.Protocol

open Dbx.Engine

-- A source reports its end by a read of its own, as a connection does.
abbrev RESPParser := BufferedReader UInt8 (64 * 1024)

namespace RESPParser

/-- `bufio.Reader.ReadLine`: a line without its end, or a part of a line that fills
the buffer. A return that ends such a part stays in the buffer. -/
def readFragment (p : RESPParser) : Except String (Bytes × Bool × RESPParser) :=
  match p.readSlice lineFeed with
  | .full slice rest =>
    if slice.getLast? = some carriageReturn then
      .ok (slice.dropLast, true, rest.unreadByte carriageReturn)
    else .ok (slice, true, rest)
  | .found slice rest => .ok (chopReturn slice.dropLast, false, rest)
  | .ended slice =>
    if slice = [] then .error "EOF" else .ok (slice, false, .ofChunks [])

theorem readFragment_long {p rest : RESPParser} {fragment : Bytes}
    (read : p.readFragment = .ok (fragment, true, rest)) :
    maxRESPLineBytes ≤ fragment.length + 1 := by
  have cut := p.readSlice_cut lineFeed
  unfold readFragment at read
  split at read
  · rename_i slice behind outcome
    rw [outcome] at cut
    obtain ⟨-, size, -⟩ := cut
    have limit : slice.length = maxRESPLineBytes := size
    split at read
    · cases read
      rw [List.length_dropLast]
      omega
    · cases read
      omega
  · cases read
  · split at read <;> cases read

def readLineFrom (line : Bytes) (p : RESPParser) : Except String (Bytes × RESPParser) :=
  match fragmentRead : p.readFragment with
  | .error message => .error message
  | .ok (fragment, isPrefix, rest) =>
    if maxRESPLineBytes < (line ++ fragment).length then .error "RESP line exceeds limit"
    else
      match isPrefix, fragmentRead with
      | false, _ => .ok (trimLineEnd (line ++ fragment), rest)
      | true, _ => readLineFrom (line ++ fragment) rest
termination_by maxRESPLineBytes - line.length
decreasing_by
  rename_i short read
  have long := readFragment_long read
  have limit : maxRESPLineBytes = 65536 := rfl
  rw [List.length_append] at short ⊢
  omega

def readLine (p : RESPParser) : Except String (Bytes × RESPParser) :=
  readLineFrom [] p

def readInt (p : RESPParser) : Except String (Int64 × RESPParser) :=
  match p.readLine with
  | .error message => .error message
  | .ok (line, p) =>
    match parseInt line with
    | none => .error ("invalid integer: " ++ rawText line)
    | some number => .ok (number, p)

def readBulkString (p : RESPParser) : Except String (Option Bytes × RESPParser) :=
  match p.readByte with
  | none => .error "EOF"
  | some (byte, p) =>
    if byte ≠ 0x24 then .error ("expected bulk string, got " ++ rawText [byte])
    else
      match readInt p with
      | .error message => .error message
      | .ok (length, p) =>
        if length < 0 then .ok (none, p)
        else if Int64.ofNat maxRESPBulkBytes < length then
          .error "RESP bulk string exceeds limit"
        else
          let length := length.toInt.toNat
          match p.readFull (length + 2) with
          | .endOfStream => .error "EOF"
          | .unexpectedEnd => .error "unexpected EOF"
          | .complete buf p =>
            if buf.drop length ≠ [carriageReturn, lineFeed] then
              .error "bulk string missing CRLF terminator"
            else .ok (some (buf.take length), p)

def readBulkStrings : Nat → RESPParser → Except String (List (Option Bytes) × RESPParser)
  | 0, p => .ok ([], p)
  | count + 1, p =>
    match readBulkString p with
    | .error message => .error message
    | .ok (bulk, p) =>
      match readBulkStrings count p with
      | .error message => .error message
      | .ok (bulks, p) => .ok (bulk :: bulks, p)

def readArray (p : RESPParser) : Except String (Command × RESPParser) :=
  match readInt p with
  | .error message => .error ("RESP array count: " ++ message)
  | .ok (count, p) =>
    if count ≤ 0 then .error ("invalid array count: " ++ toString count.toInt)
    else if Int64.ofNat maxRESPArrayItems < count then .error "RESP array count exceeds limit"
    else
      match readBulkStrings count.toInt.toNat p with
      | .error message => .error message
      | .ok ([], _) => .error "empty command"
      | .ok (name :: args, p) => .ok (⟨name.getD [], args⟩, p)

def readInline (p : RESPParser) : Except String (Command × RESPParser) :=
  match readLine p with
  | .error message => .error message
  | .ok (line, p) =>
    match fields line.length [] line with
    | [] => .error "empty inline command"
    | name :: args => .ok (⟨name, args.map some⟩, p)

def readCommand (p : RESPParser) : Except String (Command × RESPParser) :=
  match p.readByte with
  | none => .error "EOF"
  | some (byte, p) => if byte = 0x2a then readArray p else readInline (p.unreadByte byte)

/-- The results of so many calls of `readCommand`, up to the first error. -/
def readCommands : Nat → RESPParser → List (Except String Command)
  | 0, _ => []
  | calls + 1, p =>
    match readCommand p with
    | .error message => [.error message]
    | .ok (cmd, p) => .ok cmd :: readCommands calls p

end RESPParser

theorem readLine_found {content : Bytes} (absent : lineFeed ∉ content) (rest : Bytes) :
    readLine (content ++ lineFeed :: rest) =
      if maxRESPLineBytes < (chopReturn content).length then .error "RESP line exceeds limit"
      else .ok (trimLineEnd (chopReturn content), rest) := by
  have found : (content ++ lineFeed :: rest).takeWhile (fun byte => decide (byte ≠ lineFeed)) =
      content := by
    rw [List.takeWhile_append_of_pos]
    · simp
    · intro byte member
      simpa using ne_of_mem_of_not_mem member absent
  unfold readLine
  simp only [found, List.drop_left]

theorem readLine_ended {content : Bytes} (absent : lineFeed ∉ content) :
    readLine content =
      if content = [] then .error "EOF"
      else if maxRESPLineBytes < content.length then .error "RESP line exceeds limit"
      else if content.length = maxRESPLineBytes ∧ content.getLast? ≠ some carriageReturn then
        .error "EOF"
      else .ok (trimLineEnd content, []) := by
  have all : content.takeWhile (fun byte => decide (byte ≠ lineFeed)) = content := by
    rw [← List.append_nil content, List.takeWhile_append_of_pos]
    · rfl
    · intro byte member
      simpa using ne_of_mem_of_not_mem member absent
  unfold readLine
  simp only [all, List.drop_length]

theorem length_chopReturn (content : Bytes) :
    content.length ≤ (chopReturn content).length + 1 ∧
      (chopReturn content).length ≤ content.length := by
  unfold chopReturn
  split
  · rw [List.length_dropLast]
    omega
  · omega

theorem readLine_long {start : Bytes} (absent : lineFeed ∉ start)
    (long : maxRESPLineBytes + 1 < start.length) (rest : Bytes) :
    readLine (start ++ rest) = .error "RESP line exceeds limit" := by
  by_cases found : lineFeed ∈ rest
  · rw [BufferedReader.split_at_first found, ← List.append_assoc, readLine_found, if_pos]
    · have chopped := (length_chopReturn (start ++ rest.takeWhile (· ≠ lineFeed))).1
      rw [List.length_append] at chopped
      omega
    · intro member
      rcases List.mem_append.mp member with member | member
      · exact absent member
      · simpa using List.all_eq_true.mp List.all_takeWhile lineFeed member
  · rw [readLine_ended, if_neg, if_pos]
    · rw [List.length_append]
      omega
    · apply List.ne_nil_of_length_pos
      rw [List.length_append]
      omega
    · simp [absent, found]

theorem chopReturn_append {start content : Bytes} (some : content ≠ []) :
    chopReturn (start ++ content) = start ++ chopReturn content := by
  unfold chopReturn
  rw [List.getLast?_append_of_ne_nil _ some]
  split
  · rw [List.dropLast_append_of_ne_nil some]
  · rfl

namespace RESPParser

def flat {β : Type} (result : Except String (β × RESPParser)) : Except String (β × Bytes) :=
  result.map fun read => (read.1, read.2.contents)

@[simp] theorem flat_error {β : Type} (message : String) :
    flat (.error message : Except String (β × RESPParser)) = .error message := rfl

@[simp] theorem flat_ok {β : Type} (value : β) (rest : RESPParser) :
    flat (.ok (value, rest)) = .ok (value, rest.contents) := rfl

theorem readLineFrom_failed {p : RESPParser} {message : String}
    (read : p.readFragment = .error message) (line : Bytes) :
    readLineFrom line p = .error message := by
  rw [readLineFrom]
  split
  · rename_i found
    rw [read] at found
    cases found
    rfl
  · rename_i found
    rw [read] at found
    cases found

theorem readLineFrom_fragment {p rest : RESPParser} {fragment : Bytes} {isPrefix : Bool}
    (read : p.readFragment = .ok (fragment, isPrefix, rest)) (line : Bytes) :
    readLineFrom line p =
      if maxRESPLineBytes < (line ++ fragment).length then .error "RESP line exceeds limit"
      else if isPrefix then readLineFrom (line ++ fragment) rest
      else .ok (trimLineEnd (line ++ fragment), rest) := by
  rw [readLineFrom]
  split
  · rename_i found
    rw [read] at found
    cases found
  · rename_i found
    rw [read] at found
    cases found
    cases isPrefix <;> rfl

/-- The second part of a line. The first one has filled the buffer, up to a return
that is left in front of the second. -/
theorem readLineFrom_second {line : Bytes} {p : RESPParser} (absent : lineFeed ∉ line)
    (parts : line.length = maxRESPLineBytes ∧ line.getLast? ≠ some carriageReturn ∨
      line.length + 1 = maxRESPLineBytes ∧ p.contents.head? = some carriageReturn) :
    flat (readLineFrom line p) = Protocol.readLine (line ++ p.contents) := by
  have limit : maxRESPLineBytes = 64 * 1024 := rfl
  have cut := p.readSlice_cut lineFeed
  cases outcome : p.readSlice lineFeed with
  | found slice rest =>
    rw [outcome] at cut
    obtain ⟨content, rfl, missing, -, split⟩ := cut
    have read : p.readFragment = .ok (chopReturn content, false, rest) := by
      simp [readFragment, outcome]
    have joined : chopReturn (line ++ content) = line ++ chopReturn content := by
      by_cases some : content = []
      · subst some
        rcases parts with ⟨-, last⟩ | ⟨-, first⟩
        · simp [chopReturn, last]
        · rw [split] at first
          cases first
      · exact chopReturn_append some
    rw [readLineFrom_fragment read, split, ← List.append_assoc,
      readLine_found (by simp [absent, missing]), joined]
    split <;> rfl
  | full slice rest =>
    rw [outcome] at cut
    obtain ⟨missing, size, -, split⟩ := cut
    rw [split, ← List.append_assoc, readLine_long (by simp [absent, missing])
      (by rw [List.length_append]; omega)]
    by_cases last : slice.getLast? = some carriageReturn
    · have read : p.readFragment = .ok (slice.dropLast, true, rest.unreadByte carriageReturn) := by
        simp [readFragment, outcome, last]
      rw [readLineFrom_fragment read, if_pos]
      · rfl
      · rw [List.length_append, List.length_dropLast]
        omega
    · have read : p.readFragment = .ok (slice, true, rest) := by
        simp [readFragment, outcome, last]
      rw [readLineFrom_fragment read, if_pos]
      · rfl
      · rw [List.length_append]
        omega
  | ended slice =>
    rw [outcome] at cut
    obtain ⟨missing, -, split⟩ := cut
    rw [split, readLine_ended (by simp [absent, missing])]
    by_cases none : slice = []
    · have read : p.readFragment = .error "EOF" := by simp [readFragment, outcome, none]
      rcases parts with ⟨length, last⟩ | ⟨-, first⟩
      · rw [readLineFrom_failed read, none, List.append_nil, if_neg, if_neg, if_pos ⟨length, last⟩]
        · rfl
        · omega
        · apply List.ne_nil_of_length_pos
          omega
      · rw [split, none] at first
        cases first
    · have read : p.readFragment = .ok (slice, false, .ofChunks []) := by
        simp [readFragment, outcome, none]
      have some := List.length_pos_iff.mpr none
      rw [readLineFrom_fragment read, if_neg (by simp [none] : line ++ slice ≠ [])]
      by_cases long : maxRESPLineBytes < (line ++ slice).length
      · rw [if_pos long, if_pos long]
        rfl
      -- What fits is the return alone.
      rw [if_neg long, if_neg Bool.false_ne_true, if_neg long, if_neg]
      · rfl
      · rw [List.length_append] at long
        rintro ⟨-, last⟩
        rcases parts with ⟨length, -⟩ | ⟨length, first⟩
        · omega
        obtain ⟨byte, rfl⟩ := List.length_eq_one_iff.mp (by omega : slice.length = 1)
        rw [split] at first
        simp_all

section

variable (p : RESPParser)

theorem readLine_flat : flat p.readLine = Protocol.readLine p.contents := by
  have limit : maxRESPLineBytes = 64 * 1024 := rfl
  have cut := p.readSlice_cut lineFeed
  rw [readLine]
  cases outcome : p.readSlice lineFeed with
  | found slice rest =>
    rw [outcome] at cut
    obtain ⟨content, rfl, missing, short, split⟩ := cut
    have read : p.readFragment = .ok (chopReturn content, false, rest) := by
      simp [readFragment, outcome]
    rw [readLineFrom_fragment read, split, readLine_found missing, List.nil_append]
    split <;> rfl
  | full slice rest =>
    rw [outcome] at cut
    obtain ⟨missing, size, clear, split⟩ := cut
    by_cases last : slice.getLast? = some carriageReturn
    · have read : p.readFragment = .ok (slice.dropLast, true, rest.unreadByte carriageReturn) := by
        simp [readFragment, outcome, last]
      have back : (rest.unreadByte carriageReturn).contents = carriageReturn :: rest.contents :=
        BufferedReader.contents_unreadByte (by rw [clear]; decide) carriageReturn
      have whole : slice = slice.dropLast ++ [carriageReturn] :=
        (List.dropLast_append_getLast? _ last).symm
      rw [readLineFrom_fragment read, if_neg, if_pos rfl, List.nil_append, readLineFrom_second,
        back, split]
      · conv_rhs => rw [whole, List.append_assoc, List.singleton_append]
      · exact fun member => missing (List.mem_of_mem_dropLast member)
      · right
        rw [back, List.length_dropLast]
        exact ⟨by omega, rfl⟩
      · rw [List.nil_append, List.length_dropLast]
        omega
    · have read : p.readFragment = .ok (slice, true, rest) := by
        simp [readFragment, outcome, last]
      rw [readLineFrom_fragment read, if_neg, if_pos rfl, List.nil_append,
        readLineFrom_second missing (.inl ⟨size, last⟩), split]
      rw [List.nil_append]
      omega
  | ended slice =>
    rw [outcome] at cut
    obtain ⟨missing, short, split⟩ := cut
    rw [split, readLine_ended missing]
    by_cases none : slice = []
    · have read : p.readFragment = .error "EOF" := by simp [readFragment, outcome, none]
      rw [readLineFrom_failed read, if_pos none]
      rfl
    · have read : p.readFragment = .ok (slice, false, .ofChunks []) := by
        simp [readFragment, outcome, none]
      rw [readLineFrom_fragment read, List.nil_append, if_neg (by omega),
        if_neg Bool.false_ne_true, if_neg none, if_neg (by omega), if_neg (by omega)]
      rfl

theorem readInt_flat : flat p.readInt = Protocol.readInt p.contents := by
  have line := readLine_flat p
  rw [Protocol.readInt, readInt, ← line]
  cases p.readLine with
  | error message => rfl
  | ok read =>
    obtain ⟨line, rest⟩ := read
    simp only [flat_ok]
    cases parseInt line <;> rfl

theorem readBulkString_flat : flat p.readBulkString = Protocol.readBulkString p.contents := by
  unfold readBulkString
  cases first : p.readByte with
  | none => rw [BufferedReader.readByte_none (by decide) first]; rfl
  | some found =>
    obtain ⟨byte, rest⟩ := found
    have number := readInt_flat rest
    rw [(BufferedReader.readByte_some first).1, Protocol.readBulkString, ← number]
    dsimp only
    split
    · rfl
    cases readInt rest with
    | error message => rfl
    | ok read =>
      obtain ⟨length, behind⟩ := read
      simp only [flat_ok]
      split
      · rfl
      split
      · rfl
      rw [← BufferedReader.readFull_flat]
      cases behind.readFull (length.toInt.toNat + 2) with
      | endOfStream | unexpectedEnd => rfl
      | complete buf behind =>
        simp only [BufferedReader.FullRead.flat]
        split <;> rfl

theorem readBulkStrings_flat (count : Nat) (p : RESPParser) :
    flat (readBulkStrings count p) = Protocol.readBulkStrings count p.contents := by
  induction count generalizing p with
  | zero => rfl
  | succ count ih =>
    rw [readBulkStrings, Protocol.readBulkStrings, ← readBulkString_flat p]
    cases p.readBulkString with
    | error message => rfl
    | ok read =>
      obtain ⟨bulk, rest⟩ := read
      simp only [flat_ok]
      rw [← ih rest]
      cases readBulkStrings count rest <;> rfl

theorem readArray_flat : flat p.readArray = Protocol.readArray p.contents := by
  rw [readArray, Protocol.readArray, ← readInt_flat p]
  cases p.readInt with
  | error message => rfl
  | ok read =>
    obtain ⟨count, rest⟩ := read
    simp only [flat_ok]
    split
    · rfl
    split
    · rfl
    rw [← readBulkStrings_flat]
    cases readBulkStrings count.toInt.toNat rest with
    | error message => rfl
    | ok read =>
      obtain ⟨bulks, rest⟩ := read
      cases bulks <;> rfl

theorem readInline_flat : flat p.readInline = Protocol.readInline p.contents := by
  rw [readInline, Protocol.readInline, ← readLine_flat p]
  cases p.readLine with
  | error message => rfl
  | ok read =>
    obtain ⟨line, rest⟩ := read
    simp only [flat_ok]
    cases fields line.length [] line <;> rfl

/-- A command is read off the contents of the stream, whatever the chunks. -/
theorem readCommand_flat : flat p.readCommand = Protocol.readCommand p.contents := by
  unfold readCommand
  cases first : p.readByte with
  | none => rw [BufferedReader.readByte_none (by decide) first]; rfl
  | some found =>
    obtain ⟨byte, rest⟩ := found
    obtain ⟨whole, room⟩ := BufferedReader.readByte_some first
    rw [whole, Protocol.readCommand]
    dsimp only
    split
    · exact readArray_flat rest
    · rw [readInline_flat, BufferedReader.contents_unreadByte room]

end

theorem readCommand_failed {p : RESPParser} {message : String}
    (read : Protocol.readCommand p.contents = .error message) : p.readCommand = .error message := by
  rw [← readCommand_flat] at read
  cases result : p.readCommand with
  | error other =>
    rw [result] at read
    cases read
    rfl
  | ok found =>
    rw [result] at read
    cases read

theorem readCommand_delivered {p : RESPParser} {cmd : Command} {rest : Bytes}
    (read : Protocol.readCommand p.contents = .ok (cmd, rest)) :
    ∃ behind : RESPParser, p.readCommand = .ok (cmd, behind) ∧ behind.contents = rest := by
  rw [← readCommand_flat] at read
  cases result : p.readCommand with
  | error message =>
    rw [result] at read
    cases read
  | ok found =>
    rw [result] at read
    cases read
    exact ⟨found.2, rfl, rfl⟩

end RESPParser

end Dbx.Protocol
