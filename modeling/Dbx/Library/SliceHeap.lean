import Mathlib.Data.Nat.Notation

/-!
# Heaps in slices

A binary heap in an array, under any pair of comparisons.
-/

set_option autoImplicit false

namespace SliceHeap

variable {α : Type}

/-- Whether a parent stays above a child, and whether a right child is taken before a left. -/
structure Order (α : Type) where
  keeps : α → α → Bool
  prefers : α → α → Bool

variable (order : Order α)

def up (heap : Array α) (position : Nat) : Array α :=
  if inside : 0 < position ∧ position < heap.size then
    let parent := (position - 1) / 2
    if order.keeps heap[parent] heap[position] then heap
    else up (heap.swapIfInBounds parent position) parent
  else heap
termination_by position

def down (heap : Array α) (position : Nat) : Array α :=
  if inside : 2 * position + 1 < heap.size then
    let left := 2 * position + 1
    let child := if heap[left + 1]?.any fun right => order.prefers right heap[left] then left + 1
      else left
    if heap[child]?.any fun below => order.keeps heap[position] below then heap
    else down (heap.swapIfInBounds position child) child
  else heap
termination_by heap.size - position
decreasing_by
  simp only [Array.size_swapIfInBounds]
  split <;> omega

def push (heap : Array α) (item : α) : Array α :=
  up order (heap.push item) heap.size

def pop (heap : Array α) : Option (α × Array α) :=
  if inside : 0 < heap.size then
    let rest := heap.pop
    some (heap[0], if 0 < rest.size then down order (rest.setIfInBounds 0 heap.back) 0 else rest)
  else none

end SliceHeap
