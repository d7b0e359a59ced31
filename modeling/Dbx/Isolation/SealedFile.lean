import Dbx.Library.Files
import Dbx.Persistence.Frame
import Dbx.Protocol.Command

/-!
# Sealed files

Metadata, graph caches and snapshots are replaced by one helper: it writes a
temporary file, removes the old file and renames the temporary one into its place.
A crash lets the operations of a call happen up to some point.
-/

set_option autoImplicit false

namespace Dbx.Isolation

open Dbx.Persistence Dbx.Protocol Files

/-- `"DBXENC1\n"`. -/
def sealedMagic : Bytes := ascii "DBXENC1\n"

def Envelope.seal (enc : Option Encryptor) (nonce : Nonce) (plaintext : Bytes) : Bytes :=
  match enc with
  | none => plaintext
  | some enc => sealedMagic ++ enc.encrypt nonce plaintext

/-- A file without the magic is returned as it is, also where there is a key. -/
def Envelope.openSealed (enc : Option Encryptor) (data : Bytes) : Except String Bytes :=
  match enc with
  | none => .ok data
  | some enc =>
    if sealedMagic.length ≤ data.length ∧ data.take sealedMagic.length = sealedMagic then
      match enc.decrypt (data.drop sealedMagic.length) with
      | none => .error "cipher: message authentication failed"
      | some plaintext => .ok plaintext
    else .ok data

theorem Envelope.openSealed_seal (enc : Option Encryptor) (nonce : Nonce) (plaintext : Bytes) :
    Envelope.openSealed enc (Envelope.seal enc nonce plaintext) = .ok plaintext := by
  cases enc with
  | none => rfl
  | some enc =>
    have head : sealedMagic.length ≤ (sealedMagic ++ enc.encrypt nonce plaintext).length := by
      rw [List.length_append]
      exact Nat.le_add_right _ _
    unfold Envelope.openSealed Envelope.seal
    simp only [head, List.take_left, and_self, if_true, List.drop_left, enc.decrypt_encrypt]

def tmpPath (path : Bytes) : Bytes := path ++ ascii ".tmp"

theorem tmpPath_ne (path : Bytes) : tmpPath path ≠ path := by
  intro same
  have lengths := congrArg List.length same
  rw [tmpPath, List.length_append, show (ascii ".tmp").length = 4 from rfl] at lengths
  omega

/-- The operations that change a name or a content. Opening the temporary file
again, `Sync` and `Close` come between the second and the third. -/
def writeSealedFile (path : Bytes) (payload : Bytes) : Script Bytes Bytes :=
  .op (.write (tmpPath path) []) <| .op (.write (tmpPath path) payload) <|
    .op (.remove path) <| .op (.rename (tmpPath path) path) .done

def readSealedFile (enc : Option Encryptor) (path : Bytes) (dir : Dir Bytes Bytes) :
    Except String Bytes :=
  match dir path with
  | none => .error ("open " ++ rawText path ++ ": no such file or directory")
  | some data => Envelope.openSealed enc data

/-- A call, with the number of operations that a crash lets happen, none if the
call returns. -/
structure SealedWrite where
  plaintext : Bytes
  nonce : Nonce
  stop : Option Nat

def SealedWrite.apply (enc : Option Encryptor) (path : Bytes) (dir : Dir Bytes Bytes)
    (write : SealedWrite) : Dir Bytes Bytes :=
  let script := writeSealedFile path (Envelope.seal enc write.nonce write.plaintext)
  match write.stop with
  | none => script.run dir
  | some operations => script.cut operations dir

def runWrites (enc : Option Encryptor) (path : Bytes) (writes : List SealedWrite)
    (dir : Dir Bytes Bytes) : Dir Bytes Bytes :=
  writes.foldl (SealedWrite.apply enc path) dir

def SealedWrite.Removes (write : SealedWrite) : Prop :=
  ∀ operations, write.stop = some operations → 3 ≤ operations

def SealedWrite.Renames (write : SealedWrite) : Prop :=
  ∀ operations, write.stop = some operations → 4 ≤ operations

instance (write : SealedWrite) : Decidable write.Removes :=
  match stopped : write.stop with
  | none => .isTrue fun _ some => by rw [stopped] at some; cases some
  | some operations => decidable_of_iff (3 ≤ operations) (by
      simp [SealedWrite.Removes, stopped])

instance (write : SealedWrite) : Decidable write.Renames :=
  match stopped : write.stop with
  | none => .isTrue fun _ some => by rw [stopped] at some; cases some
  | some operations => decidable_of_iff (4 ≤ operations) (by
      simp [SealedWrite.Renames, stopped])

/-- The last of the calls that came to its removal came to its rename as well. -/
def Replaced (writes : List SealedWrite) : Prop :=
  ∀ write, (writes.filter fun write => write.Removes).getLast? = some write → write.Renames

section Calls

variable (enc : Option Encryptor) (path : Bytes)

theorem SealedWrite.apply_target (write : SealedWrite) (dir : Dir Bytes Bytes) :
    write.apply enc path dir path =
      if write.Renames then some (Envelope.seal enc write.nonce write.plaintext)
      else if write.Removes then none else dir path := by
  have apart := tmpPath_ne path
  obtain ⟨plaintext, nonce, stop⟩ := write
  match stop with
  | none =>
    simp [SealedWrite.apply, writeSealedFile, Script.run, Op.apply, SealedWrite.Renames, apart]
  | some 0 => simp [SealedWrite.apply, writeSealedFile, Renames, Removes]
  | some 1 => simp [SealedWrite.apply, writeSealedFile, Script.cut, Renames, Removes, apart.symm]
  | some 2 => simp [SealedWrite.apply, writeSealedFile, Script.cut, Renames, Removes, apart.symm]
  | some 3 => simp [SealedWrite.apply, writeSealedFile, Script.cut, Renames, Removes]
  | some (operations + 4) =>
    simp [SealedWrite.apply, writeSealedFile, Script.cut, Op.apply, Renames, apart]

theorem runWrites_target (writes : List SealedWrite) (dir : Dir Bytes Bytes) :
    runWrites enc path writes dir path =
      match (writes.filter fun write => write.Removes).getLast? with
      | none => dir path
      | some write =>
        if write.Renames then some (Envelope.seal enc write.nonce write.plaintext) else none := by
  induction writes using List.reverseRecOn with
  | nil => rfl
  | append_singleton writes write ih =>
    have last : runWrites enc path (writes ++ [write]) dir =
        write.apply enc path (runWrites enc path writes dir) := by
      rw [runWrites, List.foldl_append]
      rfl
    rw [last, write.apply_target enc path, ih, List.filter_append]
    by_cases removes : write.Removes
    · simp [removes]
    have still : ¬ write.Renames := by
      intro renames
      exact removes fun operations stopped => Nat.le_of_succ_le (renames operations stopped)
    simp [removes, still]

end Calls

/-- Once a call has returned, whatever crashes interrupt later calls on the path,
the file can be read and holds the plaintext of that call or of a later one, as
long as no crash comes between the removal and the rename, or a later call makes up
for it. In that gap there is no file to read. -/
theorem sealed_replacement_atomic_iff (enc : Option Encryptor) (path : Bytes)
    (dir : Dir Bytes Bytes) (earlier later : List SealedWrite) (completed : SealedWrite)
    (returned : completed.stop = none) :
    (∃ write ∈ completed :: later,
        readSealedFile enc path (runWrites enc path (earlier ++ completed :: later) dir) =
          .ok write.plaintext) ↔
      Replaced later := by
  have renames : completed.Renames := fun operations stopped => by
    rw [returned] at stopped
    cases stopped
  -- The file right behind the call that returned.
  let after := completed.apply enc path (runWrites enc path earlier dir)
  have installed : after path = some (Envelope.seal enc completed.nonce completed.plaintext) := by
    exact (completed.apply_target enc path _).trans (if_pos renames)
  have split : runWrites enc path (earlier ++ completed :: later) dir =
      runWrites enc path later after := by
    rw [runWrites, List.foldl_append]
    rfl
  rw [split]
  have target := runWrites_target enc path later after
  cases last : (later.filter fun write => write.Removes).getLast? with
  | none =>
    have replaced : Replaced later := by
      intro write found
      rw [last] at found
      cases found
    rw [last] at target
    refine ⟨fun _ => replaced, fun _ => ⟨completed, List.mem_cons_self, ?_⟩⟩
    rw [readSealedFile, target.trans installed]
    exact Envelope.openSealed_seal enc completed.nonce completed.plaintext
  | some write =>
    have member : write ∈ later := List.mem_of_mem_filter (List.mem_of_getLast? last)
    rw [last] at target
    by_cases done : write.Renames
    · have replaced : Replaced later := by
        intro other found
        rw [last] at found
        cases found
        exact done
      refine ⟨fun _ => replaced, fun _ => ⟨write, List.mem_cons_of_mem _ member, ?_⟩⟩
      simp only [if_pos done] at target
      rw [readSealedFile, target]
      exact Envelope.openSealed_seal enc write.nonce write.plaintext
    · simp only [if_neg done] at target
      constructor
      · intro ⟨other, _, read⟩
        rw [readSealedFile, target] at read
        cases read
      · intro replaced
        exact absurd (replaced write last) done

def someNonce : Nonce := .zero

/-- One write returns, and a crash stops the next one behind its removal. -/
theorem removed_and_not_replaced :
    readSealedFile none (ascii "index.meta")
        (runWrites none (ascii "index.meta") [⟨[1], someNonce, none⟩, ⟨[2], someNonce, some 3⟩]
          fun _ => none) =
      .error "open index.meta: no such file or directory" := by
  rfl

/-- A crash in front of the removal leaves the file of the call before. -/
theorem old_content_survives :
    Replaced [⟨[2], someNonce, some 2⟩] ∧
      ∃ write ∈ [(⟨[1], someNonce, none⟩ : SealedWrite), ⟨[2], someNonce, some 2⟩],
        readSealedFile none (ascii "index.meta")
            (runWrites none (ascii "index.meta")
              ([] ++ ⟨[1], someNonce, none⟩ :: [⟨[2], someNonce, some 2⟩]) fun _ => none) =
          .ok write.plaintext :=
  have replaced : Replaced [⟨[2], someNonce, some 2⟩] := by
    intro write found
    cases found
  ⟨replaced, (sealed_replacement_atomic_iff none (ascii "index.meta") (fun _ => none) []
    [⟨[2], someNonce, some 2⟩] ⟨[1], someNonce, none⟩ rfl).mpr replaced⟩

end Dbx.Isolation
