import Mathlib.Data.List.Basic

/-! # A finite map in a list of slots

    A slot is free, or holds a key with its value.  A key is looked up from the first slot
    on.  A new key goes to the first free slot, or to a new slot at the end; a key is
    removed by freeing its slot.  With distinct keys,

    - `lookup_insert` : a key that was not there is added, and the others keep their slots;
    - `lookup_erase` : a key is removed, and the others keep their slots. -/

namespace SlotMap

open Option (some.inj)

variable {K V : Type}

/-- The list with `x` in slot `i`; one slot longer if `i` is the end. -/
def store (i : Nat) (x : Option (K × V)) (l : List (Option (K × V))) : List (Option (K × V)) :=
  if i < l.length then l.set i x else l ++ [x]

def firstFree (l : List (Option (K × V))) : Nat := l.findIdx Option.isNone

def insert (k : K) (v : V) (l : List (Option (K × V))) : List (Option (K × V)) :=
  store (firstFree l) (some (k, v)) l

/-- No key is in two slots. -/
def Distinct (l : List (Option (K × V))) : Prop :=
  ∀ (i j : Nat) (k : K) (v w : V),
    l[i]? = some (some (k, v)) → l[j]? = some (some (k, w)) → i = j

variable {i : Nat} {l : List (Option (K × V))}

lemma getElem?_store (h : i ≤ l.length) (x : Option (K × V))
    (j : Nat) : (store i x l)[j]? = if j = i then some x else l[j]? := by
  unfold store
  by_cases hi : i < l.length
  · rw [if_pos hi, List.getElem?_set]
    by_cases hj : j = i
    · rw [if_pos hj.symm, if_pos hj, if_pos hi]
    · rw [if_neg (Ne.symm hj), if_neg hj]
  obtain rfl : i = l.length := by omega
  rw [if_neg hi, List.getElem?_append]
  by_cases hj : j < l.length
  · rw [if_pos hj, if_neg (by omega)]
  rw [if_neg hj, List.getElem?_singleton, List.getElem?_eq_none (by omega)]
  by_cases he : j = l.length
  · rw [if_pos he, if_pos (by omega)]
  · rw [if_neg he, if_neg (by omega)]

lemma length_store (h : i ≤ l.length)
    (x : Option (K × V)) : (store i x l).length = max l.length (i + 1) := by
  unfold store
  by_cases hi : i < l.length
  · rw [if_pos hi, List.length_set]
    omega
  · rw [if_neg hi, List.length_append, List.length_singleton]
    omega

lemma firstFree_le (l : List (Option (K × V))) : firstFree l ≤ l.length := List.findIdx_le_length

/-- The first free slot holds no key. -/
lemma getElem?_firstFree (l : List (Option (K × V))) (e : K × V) :
    l[firstFree l]? ≠ some (some e) := by
  intro h
  obtain ⟨hlt, he⟩ := List.getElem?_eq_some_iff.mp h
  have hfree : (l[firstFree l]).isNone = true := List.findIdx_getElem
  rw [he] at hfree
  cases hfree

lemma Distinct.store_none (hd : Distinct l) (hi : i ≤ l.length) : Distinct (store i none l) := by
  have hold : ∀ (j : Nat) (e : K × V), (store i none l)[j]? = some (some e) →
      l[j]? = some (some e) := by
    intro j e hj
    rw [getElem?_store hi] at hj
    by_cases hji : j = i
    · rw [if_pos hji] at hj
      cases hj
    · rwa [if_neg hji] at hj
  exact fun j j' k' w w' hj hj' => hd j j' k' w w' (hold j _ hj) (hold j' _ hj')

lemma length_insert_of_free (hi : l[i]? = some none)
    (k : K) (v : V) : (insert k v l).length = l.length := by
  have hlt : firstFree l < l.length :=
    List.findIdx_lt_length_of_exists ⟨none, List.mem_of_getElem? hi, rfl⟩
  rw [insert, length_store (firstFree_le l)]
  omega

variable [DecidableEq K]

def holds (k : K) (x : Option (K × V)) : Bool := x.any (fun e => decide (e.1 = k))

/-- The first slot with the key, and the value there. -/
def lookup (k : K) (l : List (Option (K × V))) : Option (Nat × V) :=
  (l.find? (holds k)).join.map (fun e => (l.findIdx (holds k), e.2))

def erase (k : K) (l : List (Option (K × V))) : List (Option (K × V)) :=
  match lookup k l with
  | none => l
  | some (i, _) => store i none l

lemma holds_some {k : K} {x : Option (K × V)} : holds k x = true ↔ ∃ v, x = some (k, v) := by
  cases x with
  | none => exact ⟨(fun h => by cases h), (by rintro ⟨v, h⟩; cases h)⟩
  | some e =>
    obtain ⟨k', v⟩ := e
    rw [holds, Option.any_some, decide_eq_true_iff]
    refine ⟨?_, ?_⟩
    · rintro rfl
      exact ⟨v, rfl⟩
    · rintro ⟨w, h⟩
      exact (Prod.mk.inj (some.inj h)).1

/-! ## What a lookup finds -/

variable {l : List (Option (K × V))} {k : K}

/-- The key is in the slot that a lookup returns. -/
lemma getElem?_of_lookup {v : V} (h : lookup k l = some (i, v)) : l[i]? = some (some (k, v)) := by
  unfold lookup at h
  cases hf : l.find? (holds k) with
  | none => rw [hf] at h; cases h
  | some x =>
    obtain ⟨w, rfl⟩ := holds_some.mp (List.find?_some hf)
    rw [hf] at h
    obtain ⟨rfl, rfl⟩ := Prod.mk.inj (some.inj h)
    rw [← List.find?_eq_getElem?_findIdx, hf]

lemma lookup_eq_none : lookup k l = none ↔ ∀ (i : Nat) (v : V), l[i]? ≠ some (some (k, v)) := by
  unfold lookup
  cases hf : l.find? (holds k) with
  | none =>
    refine ⟨fun _ i v h => ?_, fun _ => rfl⟩
    exact List.find?_eq_none.mp hf _ (List.mem_of_getElem? h) (holds_some.mpr ⟨v, rfl⟩)
  | some x =>
    obtain ⟨w, rfl⟩ := holds_some.mp (List.find?_some hf)
    refine ⟨(fun h => by cases h), fun h => absurd ?_ (h (l.findIdx (holds k)) w)⟩
    rw [← List.find?_eq_getElem?_findIdx, hf]

lemma lookup_eq_some (hd : Distinct l) {v : V} :
    lookup k l = some (i, v) ↔ l[i]? = some (some (k, v)) := by
  refine ⟨getElem?_of_lookup, fun h => ?_⟩
  cases hf : lookup k l with
  | none => exact absurd h (lookup_eq_none.mp hf i v)
  | some r =>
    obtain ⟨j, w⟩ := r
    have hj := getElem?_of_lookup hf
    obtain rfl := hd i j k v w h hj
    rw [h] at hj
    obtain ⟨-, rfl⟩ := Prod.mk.inj (some.inj (some.inj hj))
    rfl

lemma lookup_congr {l' : List (Option (K × V))} (hd : Distinct l) (hd' : Distinct l')
    (h : ∀ (i : Nat) (v : V), l'[i]? = some (some (k, v)) ↔ l[i]? = some (some (k, v))) :
    lookup k l' = lookup k l := by
  refine Option.ext (fun r => ?_)
  obtain ⟨i, v⟩ := r
  rw [lookup_eq_some hd', lookup_eq_some hd, h]

/-! ## Adding and removing a key -/

lemma Distinct.insert (hd : Distinct l) (hk : lookup k l = none) (v : V) :
    Distinct (insert k v l) := by
  have hno := lookup_eq_none.mp hk
  intro i j k' w w' hi hj
  rw [SlotMap.insert, getElem?_store (firstFree_le l)] at hi hj
  by_cases h1 : i = firstFree l
  · by_cases h2 : j = firstFree l
    · rw [h1, h2]
    rw [if_pos h1] at hi
    rw [if_neg h2] at hj
    obtain ⟨rfl, -⟩ := Prod.mk.inj (some.inj (some.inj hi))
    exact absurd hj (hno j w')
  · rw [if_neg h1] at hi
    split at hj
    · obtain ⟨rfl, -⟩ := Prod.mk.inj (some.inj (some.inj hj))
      exact absurd hi (hno i w)
    · exact hd i j k' w w' hi hj

/-- **A new key** is found in the slot that was free; the other keys are where they were. -/
lemma lookup_insert (hd : Distinct l) (hk : lookup k l = none) (v : V) (k' : K) :
    lookup k' (insert k v l) = if k' = k then some (firstFree l, v) else lookup k' l := by
  have hd' := hd.insert hk v
  by_cases hkk : k' = k
  · subst hkk
    rw [if_pos rfl, lookup_eq_some hd', insert, getElem?_store (firstFree_le l), if_pos rfl]
  rw [if_neg hkk]
  refine lookup_congr hd hd' (fun i w => ?_)
  rw [insert, getElem?_store (firstFree_le l)]
  by_cases hi : i = firstFree l
  · rw [if_pos hi, hi]
    refine ⟨fun h => ?_, fun h => absurd h (getElem?_firstFree l _)⟩
    exact absurd (Prod.mk.inj (some.inj (some.inj h))).1.symm hkk
  · rw [if_neg hi]

lemma lt_of_lookup {v : V} (h : lookup k l = some (i, v)) : i < l.length :=
  (List.getElem?_eq_some_iff.mp (getElem?_of_lookup h)).1

lemma Distinct.erase (hd : Distinct l) (k : K) : Distinct (erase k l) := by
  unfold SlotMap.erase
  cases hk : lookup k l with
  | none => exact hd
  | some r => exact hd.store_none (Nat.le_of_lt (lt_of_lookup hk))

/-- **A removed key** is not found; the other keys are where they were. -/
lemma lookup_erase (hd : Distinct l) (k k' : K) :
    lookup k' (erase k l) = if k' = k then none else lookup k' l := by
  have hd' := hd.erase k
  unfold erase at hd' ⊢
  cases hk : lookup k l with
  | none =>
    dsimp only
    by_cases hkk : k' = k
    · rw [if_pos hkk, hkk, hk]
    · rw [if_neg hkk]
  | some r =>
    obtain ⟨i, v⟩ := r
    rw [hk] at hd'
    dsimp only at hd' ⊢
    have hle := Nat.le_of_lt (lt_of_lookup hk)
    have hi := getElem?_of_lookup hk
    by_cases hkk : k' = k
    · rw [if_pos hkk, lookup_eq_none]
      intro j w hj
      rw [getElem?_store hle] at hj
      by_cases hji : j = i
      · rw [if_pos hji] at hj
        cases hj
      · rw [if_neg hji, hkk] at hj
        exact hji (hd j i k w v hj hi)
    rw [if_neg hkk]
    refine lookup_congr hd hd' (fun j w => ?_)
    rw [getElem?_store hle]
    by_cases hji : j = i
    · rw [if_pos hji, hji, hi]
      refine ⟨(fun h => by cases h), fun h => ?_⟩
      exact absurd (Prod.mk.inj (some.inj (some.inj h))).1.symm hkk
    · rw [if_neg hji]

end SlotMap
