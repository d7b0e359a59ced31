import Mathlib.Algebra.BigOperators.Group.Finset.Basic
import Mathlib.Algebra.Order.BigOperators.Group.Finset
import Mathlib.Algebra.Ring.Int.Defs
import Mathlib.Algebra.Ring.Nat
import Mathlib.Data.List.AList

/-!
# Keyed stores

Association lists with distinct keys as the model of an unordered map: keeping
the entries that satisfy a predicate, folding over all entries with a step that
touches only the key it is given, and sums over all entries.
-/

set_option autoImplicit false

namespace KeyedStore

variable {κ ν μ σ ω : Type} [DecidableEq κ]

def filter (keep : κ → ν → Bool) (store : AList fun _ : κ => ν) : AList fun _ : κ => ν :=
  ⟨store.entries.filter fun entry => keep entry.1 entry.2,
    store.nodupKeys.sublist List.filter_sublist⟩

private theorem dlookup_cons_other {key head : κ} (value : ν)
    (entries : List (Sigma fun _ : κ => ν)) (other : key ≠ head) :
    List.dlookup key (⟨head, value⟩ :: entries) = List.dlookup key entries :=
  List.dlookup_cons_ne entries ⟨head, value⟩ other

private theorem dlookup_filter (keep : κ → ν → Bool) (key : κ)
    {entries : List (Sigma fun _ : κ => ν)} (distinct : entries.NodupKeys) :
    List.dlookup key (entries.filter fun entry => keep entry.1 entry.2) =
      (List.dlookup key entries).filter (keep key) := by
  induction entries with
  | nil => rfl
  | cons entry entries ih =>
    obtain ⟨head, value⟩ := entry
    obtain ⟨fresh, rest⟩ := List.nodupKeys_cons.mp distinct
    by_cases same : key = head
    · subst same
      have absent : List.dlookup key entries = none := List.dlookup_eq_none.mpr fresh
      by_cases kept : keep key value
      · simp [kept, Option.filter]
      · simp [kept, ih rest, absent, Option.filter]
    · by_cases kept : keep head value
      · rw [List.filter_cons, if_pos kept, dlookup_cons_other _ _ same,
          dlookup_cons_other _ _ same, ih rest]
      · rw [List.filter_cons, if_neg kept, dlookup_cons_other _ _ same, ih rest]

theorem lookup_filter (keep : κ → ν → Bool) (key : κ) (store : AList fun _ : κ => ν) :
    (filter keep store).lookup key = (store.lookup key).filter (keep key) :=
  dlookup_filter keep key store.nodupKeys

theorem lookup_replace {store : AList fun _ : κ => ν} {key : κ} (value : ν)
    (present : key ∈ store) : (store.replace key value).lookup key = some value := by
  change key ∈ store.entries.keys at present
  change (store.entries.kreplace key value).dlookup key = some value
  generalize store.entries = entries at present ⊢
  induction entries with
  | nil => cases present
  | cons entry entries ih =>
    by_cases here : key = entry.1
    · have first : (entry :: entries).kreplace key value = ⟨key, value⟩ :: entries :=
        List.lookmap_cons_some _ _ (if_pos here)
      rw [first, List.dlookup_cons_eq]
    · rw [List.keys_cons, List.mem_cons, or_iff_right here] at present
      have later : (entry :: entries).kreplace key value = entry :: entries.kreplace key value :=
        List.lookmap_cons_none _ _ (if_neg here)
      rw [later, List.dlookup_cons_ne _ _ here]
      exact ih present

def mapValues (change : ν → μ) (store : AList fun _ : κ => ν) : AList fun _ : κ => μ :=
  ⟨store.entries.map fun entry => ⟨entry.1, change entry.2⟩, by
    have keys : (store.entries.map fun entry =>
        (⟨entry.1, change entry.2⟩ : Sigma fun _ : κ => μ)).keys = store.entries.keys := by
      simp [List.keys]
    have distinct := store.nodupKeys
    unfold List.NodupKeys at distinct ⊢
    rwa [keys]⟩

theorem lookup_mapValues (change : ν → μ) (key : κ) (store : AList fun _ : κ => ν) :
    (mapValues change store).lookup key = (store.lookup key).map change := by
  change List.dlookup key (store.entries.map fun entry =>
    (⟨entry.1, change entry.2⟩ : Sigma fun _ : κ => μ)) =
      (List.dlookup key store.entries).map change
  induction store.entries with
  | nil => rfl
  | cons entry entries ih =>
    obtain ⟨head, value⟩ := entry
    by_cases same : key = head
    · subst same
      simp
    · rw [List.map_cons, dlookup_cons_other _ _ same, dlookup_cons_other _ _ same, ih]

/-- Folding a step that rewrites one key of an observed state. What is observed
at a key afterwards comes from that key's own entry, whatever the order. -/
theorem foldl_observed (observe : σ → κ → Option ω) (step : σ → κ → ν → σ)
    (outcome : κ → ν → Option ω → Option ω)
    (same : ∀ state key value,
      observe (step state key value) key = outcome key value (observe state key))
    (other : ∀ state key value key', key' ≠ key →
      observe (step state key value) key' = observe state key')
    {entries : List (Sigma fun _ : κ => ν)} (distinct : entries.NodupKeys) (state : σ) (key : κ) :
    observe (entries.foldl (fun current entry => step current entry.1 entry.2) state) key =
      match List.dlookup key entries with
      | none => observe state key
      | some value => outcome key value (observe state key) := by
  induction entries generalizing state with
  | nil => rfl
  | cons entry entries ih =>
    obtain ⟨head, value⟩ := entry
    obtain ⟨fresh, rest⟩ := List.nodupKeys_cons.mp distinct
    rw [List.foldl_cons, ih rest]
    by_cases equal : key = head
    · subst equal
      have absent : List.dlookup key entries = none := List.dlookup_eq_none.mpr fresh
      simp [absent, same]
    · rw [dlookup_cons_other _ _ equal]
      simp only [other _ _ _ _ equal]

def total (charge : κ → ν → Int) (store : AList fun _ : κ => ν) : Int :=
  (store.entries.map fun entry => charge entry.1 entry.2).sum

def charged (charge : κ → ν → Int) (store : AList fun _ : κ => ν) (key : κ) : Int :=
  (store.lookup key).elim 0 (charge key)

theorem total_eq_sum (charge : κ → ν → Int) {store : AList fun _ : κ => ν} {keys : Finset κ}
    (covers : store.keys.toFinset ⊆ keys) :
    total charge store = ∑ key ∈ keys, charged charge store key := by
  have listed : (store.entries.map fun entry => charge entry.1 entry.2) =
      store.keys.map (charged charge store) := by
    change _ = (store.entries.map Sigma.fst).map (charged charge store)
    rw [List.map_map]
    refine List.map_congr_left fun entry member => ?_
    have found : store.lookup entry.1 = some entry.2 := AList.mem_lookup_iff.mpr member
    simp only [Function.comp_apply, charged, found, Option.elim_some]
  have absent : ∀ key ∈ keys, key ∉ store.keys.toFinset → charged charge store key = 0 := by
    intro key _ missing
    have unknown : store.lookup key = none := by
      rw [AList.lookup_eq_none, AList.mem_keys]
      simpa using missing
    simp only [charged, unknown, Option.elim_none]
  rw [total, listed, ← List.sum_toFinset _ store.keys_nodup, Finset.sum_subset covers absent]

section Changes

variable {charge change : κ → ν → Int} {growth : κ → μ → Int} {before after : AList fun _ : κ => ν}
  {changes : AList fun _ : κ => μ}

private theorem totals_eq_sums (charge change : κ → ν → Int) (growth : κ → μ → Int)
    (before after : AList fun _ : κ => ν) (changes : AList fun _ : κ => μ) :
    ∃ keys : Finset κ,
      total charge before + total growth changes =
          ∑ key ∈ keys, (charged charge before key + charged growth changes key) ∧
        total change after = ∑ key ∈ keys, charged change after key := by
  let keys := before.keys.toFinset ∪ after.keys.toFinset ∪ changes.keys.toFinset
  have first : before.keys.toFinset ⊆ keys := fun key member => by simp [keys, member]
  have second : after.keys.toFinset ⊆ keys := fun key member => by simp [keys, member]
  have third : changes.keys.toFinset ⊆ keys := fun key member => by simp [keys, member]
  refine ⟨keys, ?_, total_eq_sum change second⟩
  rw [total_eq_sum charge first, total_eq_sum growth third, Finset.sum_add_distrib]

theorem total_le_add (each : ∀ key, charged change after key ≤
      charged charge before key + charged growth changes key) :
    total change after ≤ total charge before + total growth changes := by
  obtain ⟨keys, left, right⟩ := totals_eq_sums charge change growth before after changes
  rw [left, right]
  exact Finset.sum_le_sum fun key _ => each key

theorem add_le_total (each : ∀ key, charged charge before key + charged growth changes key ≤
      charged change after key) :
    total charge before + total growth changes ≤ total change after := by
  obtain ⟨keys, left, right⟩ := totals_eq_sums charge change growth before after changes
  rw [left, right]
  exact Finset.sum_le_sum fun key _ => each key

theorem total_le (each : ∀ key, charged change after key ≤ charged charge before key) :
    total change after ≤ total charge before := by
  have bound := @total_le_add κ ν Unit _ charge change (fun _ _ => 0) before after ∅
    fun key => by simpa [charged] using each key
  simpa [total] using bound

theorem total_congr (each : ∀ key, charged change after key = charged charge before key) :
    total change after = total charge before :=
  le_antisymm (total_le fun key => (each key).le) (total_le fun key => (each key).ge)

end Changes

theorem total_filter (charge : κ → ν → Int) (keep : κ → ν → Bool) (store : AList fun _ : κ => ν) :
    total charge (filter keep store) =
      total (fun key value => if keep key value then charge key value else 0) store := by
  refine total_congr fun key => ?_
  simp only [charged, lookup_filter]
  cases store.lookup key with
  | none => rfl
  | some value => cases kept : keep key value <;> simp [kept, Option.filter]

theorem charged_erase (charge : κ → ν → Int) (store : AList fun _ : κ => ν) (erased key : κ) :
    charged charge (store.erase erased) key =
      if key = erased then 0 else charged charge store key := by
  unfold charged
  split
  · rename_i same
    rw [same, AList.lookup_erase]
    rfl
  · rename_i other
    rw [AList.lookup_erase_ne other]

theorem total_erase (charge : κ → ν → Int) (store : AList fun _ : κ => ν) (key : κ) :
    total charge store = total charge (store.erase key) + charged charge store key := by
  let keys := insert key store.keys.toFinset
  have all : store.keys.toFinset ⊆ keys := Finset.subset_insert ..
  have rest : (store.erase key).keys.toFinset ⊆ keys := by
    intro other member
    rw [List.mem_toFinset, ← AList.mem_keys, AList.mem_erase] at member
    exact all (List.mem_toFinset.mpr (AList.mem_keys.mp member.2))
  have member : key ∈ keys := Finset.mem_insert_self ..
  rw [total_eq_sum charge all, total_eq_sum charge rest, ← Finset.sum_erase_add keys _ member,
    ← Finset.sum_erase_add keys (charged charge (store.erase key)) member, charged_erase,
    if_pos rfl, Int.add_zero]
  congr 1
  refine Finset.sum_congr rfl fun other kept => ?_
  rw [charged_erase, if_neg (Finset.ne_of_mem_erase kept)]

end KeyedStore
