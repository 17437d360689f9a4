import Mathlib.Data.Finmap
import Mathlib.Data.List.MinMax
import Mathlib.Data.Finset.Sort

set_option relaxedAutoImplicit false
set_option autoImplicit false

/-!
# Hash maps with an arbitrary iteration order

A hash map is a `Finmap`: what it stores, and nothing about how it is laid out.  An operation
that walks over the entries takes an `IterOrder` besides, which lists the entries of every map
in some order; a statement about every iteration order is then a statement about every
`IterOrder`.

`Finmap.popMins` removes an entry of least weight again and again until the map is smaller than
a bound.  Ties between entries of the same weight are broken by the iteration order.

## Main definitions

* `Finmap.len` — the number of entries.
* `Finmap.IterOrder` — a way of listing the entries of a map.
* `Finmap.minKey` — the key of the first entry of least weight.
* `Finmap.popMins` — remove least entries until fewer than `cap` are left.

## Main results

* `Finmap.minKey_congr` — with pairwise distinct weights the order does not matter.
* `Finmap.popMins_congr` — nor does it for the whole loop.
* `Finmap.lookup_popMins` — an entry is either kept unchanged or removed.
* `Finmap.len_popMins` — the loop leaves fewer than `cap` entries, and removes no more than that
  takes.
* `Finmap.weight_le_of_popMins` — no removed entry weighs more than one that is left.
-/

namespace Finmap

variable {κ ν : Type} [DecidableEq κ]

/-! ## Sizes -/

/-- The number of entries of a map. -/
def len (m : Finmap fun _ : κ => ν) : ℕ := m.keys.card

/-- The keys of a map after an insertion. -/
lemma keys_insert' (m : Finmap fun _ : κ => ν) (k : κ) (v : ν) :
    (m.insert k v).keys = Insert.insert k m.keys := by
  ext k'
  simp [mem_keys, mem_insert]

/-- Overwriting a resident key keeps the keys. -/
lemma keys_insert_of_mem {m : Finmap fun _ : κ => ν} {k : κ} (h : k ∈ m) (v : ν) :
    (m.insert k v).keys = m.keys := by
  rw [keys_insert', Finset.insert_eq_self.mpr (mem_keys.mpr h)]

/-- A new key adds one entry. -/
lemma len_insert_of_notMem {m : Finmap fun _ : κ => ν} {k : κ} (h : k ∉ m) (v : ν) :
    (m.insert k v).len = m.len + 1 := by
  rw [len, keys_insert', Finset.card_insert_of_notMem (by simpa [mem_keys] using h), len]

/-- Removing a resident key removes one entry. -/
lemma len_erase_of_mem {m : Finmap fun _ : κ => ν} {k : κ} (h : k ∈ m) :
    (m.erase k).len = m.len - 1 := by
  rw [len, keys_erase, Finset.card_erase_of_mem (mem_keys.mpr h), len]

/-- Looking up after an insertion, by cases on the key. -/
lemma lookup_insert_eq_ite (m : Finmap fun _ : κ => ν) (k k' : κ) (v : ν) :
    (m.insert k v).lookup k' = if k' = k then some v else m.lookup k' := by
  split_ifs with h
  · rw [h, lookup_insert]
  · rw [lookup_insert_of_ne _ h]

/-! ## Tables from lists -/

/-- Insert the entries of a list one after another; a later entry replaces an earlier one. -/
def ofEntries (l : List (Σ _ : κ, ν)) : Finmap fun _ : κ => ν :=
  l.foldl (fun m e => m.insert e.1 e.2) ∅

/-- Inserting a list into a map, with pairwise distinct keys: the list decides its own keys. -/
private lemma lookup_foldl_insert (k : κ) (v : ν) :
    ∀ (l : List (Σ _ : κ, ν)) (m : Finmap fun _ : κ => ν), (l.map Sigma.fst).Nodup →
      ((l.foldl (fun m e => m.insert e.1 e.2) m).lookup k = some v ↔
        ⟨k, v⟩ ∈ l ∨ k ∉ l.map Sigma.fst ∧ m.lookup k = some v)
  | [], m, _ => by simp
  | ⟨k', v'⟩ :: l, m, h => by
    rw [List.map_cons, List.nodup_cons] at h
    rw [List.foldl_cons, lookup_foldl_insert k v l _ h.2, lookup_insert_eq_ite]
    by_cases hk : k = k'
    · subst hk
      have hnot : (⟨k, v⟩ : Σ _ : κ, ν) ∉ l := fun hm => h.1 (List.mem_map.mpr ⟨_, hm, rfl⟩)
      simp only [hnot, h.1, not_false_eq_true, if_true, Option.some.injEq, true_and, false_or,
        List.mem_cons, Sigma.mk.injEq, heq_eq_eq, List.map_cons, not_true_eq_false, false_and,
        or_false]
      exact eq_comm
    · simp [hk]

/-- A table with pairwise distinct keys holds exactly its list. -/
lemma lookup_ofEntries {l : List (Σ _ : κ, ν)} (h : (l.map Sigma.fst).Nodup) {k : κ} {v : ν} :
    (ofEntries l).lookup k = some v ↔ ⟨k, v⟩ ∈ l := by
  simp [ofEntries, lookup_foldl_insert k v l ∅ h]

/-! ## Iteration orders -/

/-- One way of walking over the entries of every map. -/
structure IterOrder (κ ν : Type) where
  /-- The entries in the order in which they are visited. -/
  visit : (Finmap fun _ : κ => ν) → List (Σ _ : κ, ν)
  /-- Every entry is visited exactly once. -/
  visit_coe : ∀ m, (visit m : Multiset (Σ _ : κ, ν)) = m.entries

namespace IterOrder

/-- The same walk from the other end. -/
def reverse (o : IterOrder κ ν) : IterOrder κ ν where
  visit m := (o.visit m).reverse
  visit_coe m := by rw [Multiset.coe_reverse, o.visit_coe]

/-- The visited entries are the entries of the map. -/
lemma mem_visit (o : IterOrder κ ν) {m : Finmap fun _ : κ => ν} {k : κ} {v : ν} :
    ⟨k, v⟩ ∈ o.visit m ↔ m.lookup k = some v := by
  rw [← Multiset.mem_coe, o.visit_coe]
  exact lookup_eq_some_iff.symm

omit [DecidableEq κ] in
/-- No key is visited twice. -/
lemma nodup_visit (o : IterOrder κ ν) (m : Finmap fun _ : κ => ν) :
    ((o.visit m).map Sigma.fst).Nodup := by
  have h := m.nodupKeys
  rw [← o.visit_coe] at h
  exact Multiset.coe_nodupKeys.mp h

/-- Renaming the keys of a map along an injection renames its entries, in whichever order the
map is walked. -/
lemma lookup_ofEntries_map {κ' : Type} [DecidableEq κ'] {f : κ → κ'}
    (hf : Function.Injective f) (o : IterOrder κ ν) (m : Finmap fun _ : κ => ν) (k' : κ') (v : ν) :
    (ofEntries ((o.visit m).map fun e => (⟨f e.1, e.2⟩ : Σ _ : κ', ν))).lookup k' = some v ↔
      ∃ k, f k = k' ∧ m.lookup k = some v := by
  have hnodup : (((o.visit m).map fun e => (⟨f e.1, e.2⟩ : Σ _ : κ', ν)).map Sigma.fst).Nodup := by
    have h := (o.nodup_visit m).map hf
    rwa [List.map_map] at h ⊢
  rw [lookup_ofEntries hnodup, List.mem_map]
  constructor
  · rintro ⟨⟨k, v'⟩, hmem, heq⟩
    cases heq
    exact ⟨k, rfl, o.mem_visit.mp hmem⟩
  · rintro ⟨k, rfl, hk⟩
    exact ⟨⟨k, v⟩, o.mem_visit.mpr hk, rfl⟩

omit [DecidableEq κ] in
@[simp] lemma visit_empty (o : IterOrder κ ν) : o.visit ∅ = [] :=
  (Multiset.coe_eq_zero _).mp (o.visit_coe ∅)

@[simp] lemma visit_insert_empty (o : IterOrder κ ν) (k : κ) (v : ν) :
    o.visit ((∅ : Finmap fun _ : κ => ν).insert k v) = [⟨k, v⟩] := by
  have h := o.visit_coe ((∅ : Finmap fun _ : κ => ν).insert k v)
  rw [entries_insert_of_notMem notMem_empty] at h
  exact Multiset.coe_eq_singleton.mp h

/-- A map with an entry has something to visit. -/
lemma visit_ne_nil (o : IterOrder κ ν) {m : Finmap fun _ : κ => ν} (h : 0 < m.len) :
    o.visit m ≠ [] := by
  obtain ⟨k, hk⟩ := Finset.card_pos.mp h
  obtain ⟨v, hv⟩ := mem_iff.mp (mem_keys.mp hk)
  intro he
  have := (o.mem_visit (k := k) (v := v)).mpr hv
  simp [he] at this

/-- Walking in the order of the keys. -/
def sorted (r : κ → κ → Prop) [DecidableRel r] [IsTrans κ r] [Std.Antisymm r] [Std.Total r] :
    IterOrder κ ν where
  visit m := (m.keys.sort r).filterMap fun k => (m.lookup k).map fun v => ⟨k, v⟩
  visit_coe m := by
    refine (Multiset.Nodup.ext (Multiset.coe_nodup.mpr ?_) m.nodup_entries).mpr ?_
    · refine List.Nodup.filterMap ?_ (Finset.sort_nodup _ _)
      intro k k' e he he'
      obtain ⟨v, -, rfl⟩ := Option.map_eq_some_iff.mp he
      obtain ⟨v', -, h⟩ := Option.map_eq_some_iff.mp he'
      exact (congrArg Sigma.fst h).symm
    · rintro ⟨k, v⟩
      rw [Multiset.mem_coe, List.mem_filterMap, ← lookup_eq_some_iff]
      constructor
      · rintro ⟨k', -, hk'⟩
        obtain ⟨v', hv', h⟩ := Option.map_eq_some_iff.mp hk'
        cases h
        exact hv'
      · intro h
        refine ⟨k, (Finset.mem_sort r).mpr (mem_keys.mpr (mem_of_lookup_eq_some h)), ?_⟩
        rw [Option.map_eq_some_iff]
        exact ⟨v, h, rfl⟩

end IterOrder

/-! ## Least entries -/

section MinKey

variable {β : Type}

/-- The weights of the entries of a map are pairwise distinct. -/
def WeightsDistinct (w : ν → β) (m : Finmap fun _ : κ => ν) : Prop :=
  ∀ k k' v v', m.lookup k = some v → m.lookup k' = some v' → w v = w v' → k = k'

/-- Removing an entry keeps the weights distinct. -/
lemma WeightsDistinct.erase {w : ν → β} {m : Finmap fun _ : κ => ν} (h : WeightsDistinct w m)
    (k : κ) : WeightsDistinct w (m.erase k) := by
  have hsub : ∀ a v, (m.erase k).lookup a = some v → m.lookup a = some v := by
    intro a v ha
    by_cases hak : a = k
    · rw [hak, lookup_erase] at ha
      cases ha
    · rwa [lookup_erase_ne hak] at ha
  exact fun a b v v' ha hb hw => h a b v v' (hsub a v ha) (hsub b v' hb) hw

variable [LinearOrder β]

/-- The key of the first visited entry whose weight is least. -/
def minKey (o : IterOrder κ ν) (w : ν → β) (m : Finmap fun _ : κ => ν) : Option κ :=
  ((o.visit m).argmin fun e => w e.2).map Sigma.fst

/-- The least key is resident, and no entry weighs less. -/
lemma minKey_spec {o : IterOrder κ ν} {w : ν → β} {m : Finmap fun _ : κ => ν} {k : κ}
    (h : minKey o w m = some k) :
    ∃ v, m.lookup k = some v ∧ ∀ k' v', m.lookup k' = some v' → w v ≤ w v' := by
  obtain ⟨⟨k₀, v⟩, he, rfl⟩ := Option.map_eq_some_iff.mp h
  have hm : (⟨k₀, v⟩ : Σ _ : κ, ν) ∈ (o.visit m).argmin fun e => w e.2 := he
  refine ⟨v, o.mem_visit.mp (List.argmin_mem hm), fun k' v' hv' => ?_⟩
  exact List.le_of_mem_argmin (f := fun e : Σ _ : κ, ν => w e.2) (o.mem_visit.mpr hv') hm

/-- A map with an entry has a least key. -/
lemma minKey_isSome (o : IterOrder κ ν) (w : ν → β) {m : Finmap fun _ : κ => ν}
    (h : 0 < m.len) : (minKey o w m).isSome := by
  rw [Option.isSome_iff_ne_none]
  intro hn
  rw [minKey, Option.map_eq_none_iff, List.argmin_eq_none] at hn
  exact o.visit_ne_nil h hn

/-- With pairwise distinct weights the least key does not depend on the iteration order. -/
theorem minKey_congr {w : ν → β} {m : Finmap fun _ : κ => ν} (h : WeightsDistinct w m)
    (o o' : IterOrder κ ν) : minKey o w m = minKey o' w m := by
  rcases Nat.eq_zero_or_pos m.len with h0 | hpos
  · have hnil : ∀ o : IterOrder κ ν, o.visit m = [] := by
      intro o
      refine List.eq_nil_iff_forall_not_mem.mpr fun ⟨k, v⟩ hkv => ?_
      have hk : k ∈ m.keys := mem_keys.mpr (mem_of_lookup_eq_some (o.mem_visit.mp hkv))
      rw [Finset.card_eq_zero.mp h0] at hk
      simp at hk
    simp [minKey, hnil]
  · obtain ⟨k, hk⟩ := Option.isSome_iff_exists.mp (minKey_isSome o w hpos)
    obtain ⟨k', hk'⟩ := Option.isSome_iff_exists.mp (minKey_isSome o' w hpos)
    obtain ⟨v, hv, hmin⟩ := minKey_spec hk
    obtain ⟨v', hv', hmin'⟩ := minKey_spec hk'
    rw [hk, hk', h k k' v v' hv hv' (le_antisymm (hmin k' v' hv') (hmin' k v hv))]

/-! ## Removing least entries -/

/-- Remove a least entry up to `fuel` times, as long as `cap` or more entries are left. -/
def popMins (o : IterOrder κ ν) (w : ν → β) (cap : ℕ) :
    ℕ → (Finmap fun _ : κ => ν) → Finmap fun _ : κ => ν
  | 0, m => m
  | fuel + 1, m =>
    if cap ≤ m.len then
      match minKey o w m with
      | some k => popMins o w cap fuel (m.erase k)
      | none => m
    else m

/-- A map with fewer than `cap` entries is left alone. -/
lemma popMins_of_lt (o : IterOrder κ ν) (w : ν → β) {cap : ℕ} {m : Finmap fun _ : κ => ν}
    (h : m.len < cap) (fuel : ℕ) : popMins o w cap fuel m = m := by
  cases fuel with
  | zero => rfl
  | succ fuel => exact if_neg (not_le.mpr h)

/-- An entry is either kept unchanged or removed.

**Proof sketch.** Induction on the fuel: one round erases one key, and erasing leaves the other
lookups alone. -/
theorem lookup_popMins (o : IterOrder κ ν) (w : ν → β) (cap : ℕ) (k : κ) :
    ∀ (fuel : ℕ) (m : Finmap fun _ : κ => ν),
      (popMins o w cap fuel m).lookup k = none ∨
        (popMins o w cap fuel m).lookup k = m.lookup k
  | 0, m => Or.inr rfl
  | fuel + 1, m => by
    rw [popMins]
    split_ifs with hcap
    · cases hk : minKey o w m with
      | none => exact Or.inr rfl
      | some k₀ =>
        dsimp only
        by_cases hkk : k = k₀
        · left
          rcases lookup_popMins o w cap k fuel (m.erase k₀) with h | h
          · exact h
          · rw [h, hkk, lookup_erase]
        · rcases lookup_popMins o w cap k fuel (m.erase k₀) with h | h
          · exact Or.inl h
          · exact Or.inr (by rw [h, lookup_erase_ne hkk])
    · exact Or.inr rfl

/-- The loop removes entries until `cap - 1` are left, and none if there are fewer.

**Proof sketch.** Induction on the fuel, which is at least the size of the map: a round removes
one entry, and a map with `cap ≥ 1` entries has a least one. -/
theorem len_popMins (o : IterOrder κ ν) (w : ν → β) {cap : ℕ} (hcap : 0 < cap) :
    ∀ (fuel : ℕ) (m : Finmap fun _ : κ => ν), m.len ≤ fuel →
      (popMins o w cap fuel m).len = min m.len (cap - 1)
  | 0, m, h => by
    rw [popMins]
    omega
  | fuel + 1, m, h => by
    rw [popMins]
    split_ifs with hle
    · obtain ⟨k, hk⟩ := Option.isSome_iff_exists.mp (minKey_isSome o w (m := m) (by omega))
      obtain ⟨v, hv, -⟩ := minKey_spec hk
      have hlen := len_erase_of_mem (mem_of_lookup_eq_some hv)
      have ih := len_popMins o w hcap fuel (m.erase k) (by omega)
      rw [hk]
      dsimp only
      omega
    · omega

/-- What the loop leaves was there before. -/
lemma lookup_of_popMins {o : IterOrder κ ν} {w : ν → β} {cap fuel : ℕ}
    {m : Finmap fun _ : κ => ν} {k : κ} {v : ν}
    (h : (popMins o w cap fuel m).lookup k = some v) : m.lookup k = some v := by
  rcases lookup_popMins o w cap k fuel m with hnone | hsame
  · rw [hnone] at h
    cases h
  · rw [← hsame, h]

lemma keys_popMins_subset (o : IterOrder κ ν) (w : ν → β) (cap fuel : ℕ)
    (m : Finmap fun _ : κ => ν) : (popMins o w cap fuel m).keys ⊆ m.keys := by
  intro k hk
  obtain ⟨v, hv⟩ := mem_iff.mp (mem_keys.mp hk)
  exact mem_keys.mpr (mem_of_lookup_eq_some (lookup_of_popMins hv))

/-- The number of entries that the loop removes. -/
lemma card_sdiff_popMins (o : IterOrder κ ν) (w : ν → β) {cap : ℕ} (hcap : 0 < cap) {fuel : ℕ}
    {m : Finmap fun _ : κ => ν} (h : m.len ≤ fuel) :
    (m.keys \ (popMins o w cap fuel m).keys).card = m.len - (cap - 1) := by
  have hlen := len_popMins o w hcap fuel m h
  rw [Finset.card_sdiff_of_subset (keys_popMins_subset o w cap fuel m)]
  unfold len at hlen ⊢
  omega

/-- **Least entries go first.** No entry that the loop removes weighs more than one that it
leaves.

**Proof sketch.** Induction on the fuel.  The entry that a round removes is least among all that
are resident, and what the loop leaves in the end is resident; the entries that later rounds
remove are dealt with by induction. -/
theorem weight_le_of_popMins (o : IterOrder κ ν) (w : ν → β) (cap : ℕ) {k k' : κ} {v v' : ν} :
    ∀ (fuel : ℕ) (m : Finmap fun _ : κ => ν), m.lookup k = some v →
      (popMins o w cap fuel m).lookup k = none →
      (popMins o w cap fuel m).lookup k' = some v' → w v ≤ w v'
  | 0, m, hk, hremoved, _ => by
    rw [popMins, hk] at hremoved
    cases hremoved
  | fuel + 1, m, hk, hremoved, hkept => by
    have hk' : m.lookup k' = some v' := lookup_of_popMins hkept
    rw [popMins] at hremoved hkept
    split_ifs at hremoved hkept with hle
    · cases hmin : minKey o w m with
      | none =>
        rw [hmin, hk] at hremoved
        cases hremoved
      | some k₀ =>
        rw [hmin] at hremoved hkept
        by_cases hkk : k = k₀
        · obtain ⟨v₀, hv₀, hleast⟩ := minKey_spec hmin
          rw [← hkk, hk] at hv₀
          cases hv₀
          exact hleast k' v' hk'
        · refine weight_le_of_popMins o w cap fuel (m.erase k₀) ?_ hremoved hkept
          rw [lookup_erase_ne hkk, hk]
    · rw [hk] at hremoved
      cases hremoved

/-- With pairwise distinct weights the loop does not depend on the iteration order. -/
theorem popMins_congr {w : ν → β} (o o' : IterOrder κ ν) (cap : ℕ) :
    ∀ (fuel : ℕ) (m : Finmap fun _ : κ => ν), WeightsDistinct w m →
      popMins o w cap fuel m = popMins o' w cap fuel m
  | 0, _, _ => rfl
  | fuel + 1, m, h => by
    rw [popMins, popMins, minKey_congr h o o']
    split_ifs with hle
    · cases minKey o' w m with
      | none => rfl
      | some k => exact popMins_congr o o' cap fuel (m.erase k) (h.erase k)
    · rfl

end MinKey

end Finmap
