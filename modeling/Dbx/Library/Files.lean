import Mathlib.Logic.Function.Basic

/-!
# Scripts of file operations

A directory as a function from names to contents, and sequences of operations on
it that a crash may cut between any two of them.
-/

set_option autoImplicit false

namespace Files

variable {ν κ : Type} [DecidableEq ν]

abbrev Dir (ν κ : Type) := ν → Option κ

inductive Op (ν κ : Type) where
  | write (name : ν) (content : κ)
  | remove (name : ν)
  | rename (source target : ν)

/-- A rename replaces its target. Without a source it fails and changes nothing. -/
def Op.apply (dir : Dir ν κ) : Op ν κ → Dir ν κ
  | .write name content => Function.update dir name (some content)
  | .remove name => Function.update dir name none
  | .rename source target =>
    if (dir source).isSome then
      Function.update (Function.update dir source none) target (dir source)
    else dir

@[simp] theorem Op.apply_write (dir : Dir ν κ) (name : ν) (content : κ) :
    Op.apply dir (.write name content) = Function.update dir name (some content) := rfl

@[simp] theorem Op.apply_remove (dir : Dir ν κ) (name : ν) :
    Op.apply dir (.remove name) = Function.update dir name none := rfl

/-- Operations in sequence, with a branch on whether a name exists when it is reached. -/
inductive Script (ν κ : Type) where
  | done
  | op (first : Op ν κ) (rest : Script ν κ)
  | stat (name : ν) (present absent : Script ν κ)

def Script.run : Script ν κ → Dir ν κ → Dir ν κ
  | .done, dir => dir
  | .op first rest, dir => rest.run (Op.apply dir first)
  | .stat name present absent, dir =>
    if (dir name).isSome then present.run dir else absent.run dir

/-- The directory after a crash that lets the given number of operations happen. -/
def Script.cut : Script ν κ → Nat → Dir ν κ → Dir ν κ
  | .done, _, dir => dir
  | .op _ _, 0, dir => dir
  | .op first rest, operations + 1, dir => rest.cut operations (Op.apply dir first)
  | .stat name present absent, operations, dir =>
    if (dir name).isSome then present.cut operations dir else absent.cut operations dir

@[simp] theorem Script.cut_op_zero (first : Op ν κ) (rest : Script ν κ) (dir : Dir ν κ) :
    (Script.op first rest).cut 0 dir = dir := rfl

@[simp] theorem Script.cut_op_succ (first : Op ν κ) (rest : Script ν κ) (operations : Nat)
    (dir : Dir ν κ) :
    (Script.op first rest).cut (operations + 1) dir =
      rest.cut operations (Op.apply dir first) := rfl

end Files
