import Mathlib.Data.List.Basic

/-!
# Glob patterns

Patterns in which one letter, the star, stands for any word and every other letter for itself.
-/

set_option autoImplicit false

namespace Dbx.Glob

variable {α : Type*}

inductive Matches (star : α) : List α → List α → Prop where
  | nil : Matches star [] []
  | star {pattern word : List α} (any : List α) :
      Matches star pattern word → Matches star (star :: pattern) (any ++ word)
  | letter {c : α} {pattern word : List α} :
      c ≠ star → Matches star pattern word → Matches star (c :: pattern) (c :: word)

variable {star : α} {text pattern word : List α}

theorem Matches.append {pattern' word' : List α} (first : Matches star pattern word)
    (second : Matches star pattern' word') :
    Matches star (pattern ++ pattern') (word ++ word') := by
  induction first with
  | nil => exact second
  | star any _ ih =>
    rw [List.cons_append, List.append_assoc]
    exact .star any ih
  | letter plain _ ih => exact .letter plain ih

-- A star in the pattern also stands for the word of one star.
theorem matches_self (word : List α) : Matches star word word := by
  induction word with
  | nil => exact .nil
  | cons c word ih =>
    by_cases starred : c = star
    · subst starred
      exact .star [c] ih
    · exact .letter starred ih

theorem matches_iff_eq (plain : star ∉ text) : Matches star text word ↔ text = word := by
  refine ⟨fun matched => ?_, fun same => same ▸ matches_self text⟩
  induction matched with
  | nil => rfl
  | star => exact absurd List.mem_cons_self plain
  | letter _ _ ih => rw [ih (List.not_mem_of_not_mem_cons plain)]

theorem matches_append_star : text <+: word → Matches star (text ++ [star]) word := by
  rintro ⟨rest, rfl⟩
  have any : Matches star [star] rest := by simpa using Matches.star rest .nil
  exact (matches_self text).append any

theorem isPrefix_of_matches (plain : star ∉ text) (matched : Matches star (text ++ [star]) word) :
    text <+: word := by
  induction text generalizing word with
  | nil => exact List.nil_prefix
  | cons c text ih =>
    cases matched with
    | star => exact absurd List.mem_cons_self plain
    | letter _ rest =>
      exact List.cons_prefix_cons.mpr ⟨rfl, ih (List.not_mem_of_not_mem_cons plain) rest⟩

end Dbx.Glob
