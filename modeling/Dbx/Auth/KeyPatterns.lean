import Dbx.Auth.ACL
import Dbx.Library.Glob

/-!
# What the key patterns of a user grant

The patterns are meant as globs. The check compares their bytes before a final star with the
beginning of the key, so the two readings part where a pattern has no star at its end or has one
before it.
-/

set_option autoImplicit false

namespace Dbx.Auth

variable {user : User} {pattern key : Bytes}

def User.Names (user : User) (key : Bytes) : Prop :=
  ∃ pattern ∈ user.allowedKeys, Glob.Matches 0x2a pattern key

theorem matchKeyPattern_iff : matchKeyPattern pattern key = true ↔ trimStar pattern <+: key := by
  rw [matchKeyPattern, Bool.or_eq_true, decide_eq_true_iff, List.isPrefixOf_iff_prefix]
  refine or_iff_right_of_imp fun all => ?_
  subst all
  exact List.nil_prefix

theorem canAccessKey_iff : canAccessKey user key = true ↔
    user.enabled = true ∧ ∃ pattern ∈ user.allowedKeys, trimStar pattern <+: key := by
  have each (pattern : Bytes) :
      (decide (pattern = ascii "*") || matchKeyPattern pattern key) = true ↔
        trimStar pattern <+: key := by
    rw [← matchKeyPattern_iff, matchKeyPattern, ← Bool.or_assoc, Bool.or_self]
  simp only [canAccessKey, Bool.and_eq_true, List.any_eq_true, each]

theorem trimStar_append_star (text : Bytes) : trimStar (text ++ [0x2a]) = text := by
  simp [trimStar]

theorem trimStar_of_unstarred (unstarred : pattern.getLast? ≠ some 0x2a) :
    trimStar pattern = pattern := if_neg unstarred

theorem starred_or_unstarred (pattern : Bytes) :
    (∃ text, pattern = text ++ [0x2a]) ∨ pattern.getLast? ≠ some 0x2a := by
  by_cases starred : pattern.getLast? = some 0x2a
  · obtain ⟨text, rfl⟩ := List.getLast?_eq_some_iff.mp starred
    exact .inl ⟨text, rfl⟩
  · exact .inr starred

-- The check is too wide only for a pattern without a star at its end that the key goes beyond.
theorem matches_of_trimStar (begins : trimStar pattern <+: key)
    (exact : pattern.getLast? ≠ some 0x2a → pattern <+: key → pattern = key) :
    Glob.Matches 0x2a pattern key := by
  rcases starred_or_unstarred pattern with ⟨text, rfl⟩ | unstarred
  · rw [trimStar_append_star] at begins
    exact Glob.matches_append_star begins
  · rw [trimStar_of_unstarred unstarred] at begins
    exact exact unstarred begins ▸ Glob.matches_self pattern

-- And too narrow only for a pattern with a star before its last byte.
theorem trimStar_of_matches (matched : Glob.Matches 0x2a pattern key)
    (inner : 0x2a ∉ pattern.dropLast) : trimStar pattern <+: key := by
  rcases starred_or_unstarred pattern with ⟨text, rfl⟩ | unstarred
  · rw [List.dropLast_concat] at inner
    rw [trimStar_append_star]
    exact Glob.isPrefix_of_matches inner matched
  · have plain : 0x2a ∉ pattern := by
      intro member
      obtain ⟨rest, last, rfl⟩ := List.eq_nil_or_concat' pattern |>.resolve_left
        (List.ne_nil_of_mem member)
      rw [List.dropLast_concat] at inner
      rw [List.getLast?_concat] at unstarred
      rcases List.mem_append.mp member with inside | final
      · exact inner inside
      · exact unstarred (congrArg some (List.mem_singleton.mp final).symm)
    rw [trimStar_of_unstarred unstarred, (Glob.matches_iff_eq plain).mp matched]

/-- For an enabled user a pattern without a final star that the key goes beyond, and a pattern with
a star before its last byte that matches the key, are each made up for by another pattern. -/
structure PatternsMeant (user : User) (key : Bytes) : Prop where
  disabled : user.enabled = false → ¬ user.Names key
  beyond : user.enabled = true → ∀ pattern ∈ user.allowedKeys, pattern.getLast? ≠ some 0x2a →
    pattern <+: key → pattern ≠ key → user.Names key
  inner : user.enabled = true → ∀ pattern ∈ user.allowedKeys, 0x2a ∈ pattern.dropLast →
    Glob.Matches 0x2a pattern key → ∃ other ∈ user.allowedKeys, trimStar other <+: key

theorem canAccessKey_iff_names (user : User) (key : Bytes) :
    (canAccessKey user key = true ↔ user.Names key) ↔ PatternsMeant user key := by
  rw [canAccessKey_iff]
  constructor
  · intro meant
    refine ⟨fun disabled named => ?_, fun enabled pattern member unstarred begins _ => ?_,
      fun _ pattern member _ matched => (meant.mpr ⟨pattern, member, matched⟩).2⟩
    · exact Bool.false_ne_true (disabled.symm.trans (meant.mpr named).1)
    · rw [← trimStar_of_unstarred unstarred] at begins
      exact meant.mp ⟨enabled, pattern, member, begins⟩
  · intro ⟨disabled, beyond, inner⟩
    refine ⟨fun ⟨enabled, pattern, member, begins⟩ => ?_, fun named => ?_⟩
    · by_cases named : user.Names key
      · exact named
      refine ⟨pattern, member, matches_of_trimStar begins fun unstarred whole => ?_⟩
      by_contra other
      exact named (beyond enabled pattern member unstarred whole other)
    · have enabled : user.enabled = true := by
        by_contra off
        exact disabled (Bool.eq_false_of_not_eq_true off) named
      obtain ⟨pattern, member, matched⟩ := named
      by_cases starred : 0x2a ∈ pattern.dropLast
      · exact ⟨enabled, inner enabled pattern member starred matched⟩
      · exact ⟨enabled, pattern, member, trimStar_of_matches matched starred⟩

def reader : User := ⟨ascii "reader", [], true, permRead, [ascii "report"], true⟩

theorem exact_pattern_grants_more :
    canAccessKey reader (ascii "report:salaries") = true ∧
      ¬ reader.Names (ascii "report:salaries") := by
  refine ⟨by decide, fun ⟨pattern, member, matched⟩ => ?_⟩
  obtain rfl := List.mem_singleton.mp member
  exact absurd ((Glob.matches_iff_eq (by decide)).mp matched) (by decide)

end Dbx.Auth
