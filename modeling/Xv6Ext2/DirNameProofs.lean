import Xv6Ext2.ByteBlockProofs
import Mathlib.Data.List.TakeWhile

/-! # Names as C strings (string.c)

    A name is the list of its bytes; behind the last one the memory holds a NUL. `strncmp` is only
    used to test for equality, `strncpy` fills the rest of the destination with NULs. -/

namespace DirName

open ByteBlock

/-- The names of a directory's first two entries. -/
def DOT : List UInt8 := [46]
def DOTDOT : List UInt8 := [46, 46]

def cstr (name : List UInt8) : Nat → UInt8 := fun k => name.getD k 0

/-- Length of the string up to its first NUL. -/
def strlen (name : List UInt8) : Nat := (name.takeWhile (fun c => c != 0)).length

/-- `strncmp(p, q, n) == 0`, from byte `k` on. -/
def strncmpEq (p q : Nat → UInt8) : Nat → Nat → Bool
  | 0, _ => true
  | n + 1, k => if p k ≠ 0 ∧ p k = q k then strncmpEq p q n (k + 1) else decide (p k = q k)

/-- Byte `k` that `strncpy` stores. -/
def strncpyByte (t : Nat → UInt8) (k : Nat) : UInt8 :=
  if (List.range k).all (fun j => t j != 0) then t k else 0

variable {p q : Nat → UInt8} {n : Nat}

/-- Against `n` bytes without a NUL, `strncmp` compares all of them. -/
lemma strncmpEq_iff {k : Nat} (hq : ∀ i, k ≤ i → i < k + n → q i ≠ 0) :
    strncmpEq p q n k = true ↔ ∀ i, k ≤ i → i < k + n → p i = q i := by
  induction n generalizing k with
  | zero => exact ⟨fun _ i h1 h2 => by omega, fun _ => rfl⟩
  | succ n ih =>
    have hk := hq k (Nat.le_refl k) (by omega)
    have ih : strncmpEq p q n (k + 1) = true ↔ ∀ i, k + 1 ≤ i → i < k + 1 + n → p i = q i :=
      ih (fun i h1 h2 => hq i (by omega) (by omega))
    rw [strncmpEq]
    by_cases hpk : p k = q k
    · rw [if_pos ⟨hpk ▸ hk, hpk⟩, ih]
      refine ⟨fun h i h1 h2 => ?_, fun h i h1 h2 => h i (by omega) (by omega)⟩
      rcases Nat.eq_or_lt_of_le h1 with rfl | h1
      · exact hpk
      · exact h i h1 (by omega)
    · rw [if_neg (fun h => hpk h.2), decide_eq_true_iff]
      exact ⟨fun h => absurd h hpk, fun h => h k (Nat.le_refl k) (by omega)⟩

/-! ## Strings of bounded length -/

/-- The string at `p`, cut off after `n` bytes. -/
def strn (p : Nat → UInt8) (n : Nat) : List UInt8 :=
  ((List.range n).map p).takeWhile (fun c => c != 0)

lemma strn_succ (p : Nat → UInt8) (n : Nat) :
    strn p (n + 1) = if p 0 = 0 then [] else p 0 :: strn (fun j => p (j + 1)) n := by
  rw [strn, List.range_succ_eq_map, List.map_cons, List.map_map]
  by_cases h : p 0 = 0
  · rw [if_pos h, List.takeWhile_cons_of_neg (by simpa using h)]
  · rw [if_neg h, List.takeWhile_cons_of_pos (by simpa using h)]
    rfl

lemma strn_congr (h : ∀ k < n, p k = q k) : strn p n = strn q n := by
  rw [strn, strn, List.map_congr_left (fun k hk => h k (List.mem_range.mp hk))]

lemma strncmpEq_shift (p q : Nat → UInt8) (n k : Nat) :
    strncmpEq p q n (k + 1) = strncmpEq (fun j => p (j + 1)) (fun j => q (j + 1)) n k := by
  induction n generalizing k with
  | zero => rfl
  | succ n ih => rw [strncmpEq, strncmpEq, ih]

/-- `strncmp` compares the strings up to `n` bytes. -/
lemma strncmpEq_strn (p q : Nat → UInt8) (n : Nat) :
    strncmpEq p q n 0 = true ↔ strn p n = strn q n := by
  induction n generalizing p q with
  | zero => exact ⟨fun _ => rfl, fun _ => rfl⟩
  | succ n ih =>
    rw [strncmpEq, strn_succ, strn_succ, strncmpEq_shift]
    by_cases hp : p 0 = 0
    · rw [if_neg (fun h => h.1 hp), if_pos hp, decide_eq_true_iff, hp]
      by_cases hq : q 0 = 0
      · rw [if_pos hq, hq]
        exact ⟨fun _ => rfl, fun _ => rfl⟩
      · rw [if_neg hq]
        exact ⟨fun h => absurd h.symm hq, fun h => (nomatch h)⟩
    rw [if_neg hp]
    by_cases hq : q 0 = 0
    · rw [if_neg (fun h => hp (h.2.trans hq)), if_pos hq, decide_eq_true_iff]
      exact ⟨fun h => absurd (h.trans hq) hp, fun h => (nomatch h)⟩
    rw [if_neg hq, List.cons.injEq]
    by_cases hpq : p 0 = q 0
    · rw [if_pos ⟨hp, hpq⟩, ih]
      exact ⟨fun h => ⟨hpq, h⟩, fun h => h.2⟩
    · rw [if_neg (fun h => hpq h.2), decide_eq_true_iff]
      exact ⟨fun h => absurd h hpq, fun h => h.1⟩

lemma strncpyByte_succ (t : Nat → UInt8) (k : Nat) :
    strncpyByte t (k + 1) = if t 0 = 0 then 0 else strncpyByte (fun j => t (j + 1)) k := by
  rw [strncpyByte, List.range_succ_eq_map, List.all_cons, List.all_map]
  by_cases h : t 0 = 0
  · rw [if_pos h, if_neg (by simp [h])]
  have hne : (t 0 != 0) = true := by simpa using h
  rw [if_neg h, hne, Bool.true_and]
  rfl

lemma strn_strncpyByte (t : Nat → UInt8) (n : Nat) : strn (strncpyByte t) n = strn t n := by
  induction n generalizing t with
  | zero => rfl
  | succ n ih =>
    rw [strn_succ, strn_succ, show strncpyByte t 0 = t 0 from rfl]
    by_cases h : t 0 = 0
    · rw [if_pos h, if_pos h]
    rw [if_neg h, if_neg h]
    have hrest : (fun j => strncpyByte t (j + 1)) = strncpyByte (fun j => t (j + 1)) := by
      funext j
      rw [strncpyByte_succ, if_neg h]
    rw [hrest, ih]

lemma strn_cut (p : Nat → UInt8) {m : Nat} (h : m ≤ n) :
    strn (fun k => if k < m then p k else 0) n = strn p m := by
  induction m generalizing p n with
  | zero =>
    cases n with
    | zero => rfl
    | succ n => rw [strn_succ, if_neg (Nat.lt_irrefl 0), if_pos rfl]; rfl
  | succ m ih =>
    cases n with
    | zero => exact absurd h (Nat.not_succ_le_zero m)
    | succ n =>
      rw [strn_succ, strn_succ, if_pos (Nat.succ_pos m)]
      by_cases h0 : p 0 = 0
      · rw [if_pos h0, if_pos h0]
      · rw [if_neg h0, if_neg h0, ← ih (fun j => p (j + 1)) (Nat.le_of_succ_le_succ h)]
        simp only [Nat.succ_lt_succ_iff]

lemma strn_cstr {name : List UInt8} (hname : ∀ c ∈ name, c ≠ 0) (h : name.length ≤ n) :
    strn (cstr name) n = name := by
  induction name generalizing n with
  | nil =>
    cases n with
    | zero => rfl
    | succ n => rw [strn_succ]; exact if_pos rfl
  | cons c name ih =>
    cases n with
    | zero => exact absurd h (Nat.not_succ_le_zero _)
    | succ n =>
      have hc : cstr (c :: name) 0 ≠ 0 := hname c List.mem_cons_self
      rw [strn_succ, if_neg hc]
      show c :: strn (cstr name) n = c :: name
      rw [ih (fun d hd => hname d (List.mem_cons_of_mem c hd)) (Nat.le_of_succ_le_succ h)]

lemma strn_of_nul {text : List UInt8} (htext : ∀ c ∈ text, c ≠ 0)
    (hbytes : ∀ k < text.length, p k = cstr text k) (hnul : p text.length = 0)
    (hn : text.length < n) : strn p n = text := by
  induction text generalizing p n with
  | nil =>
    cases n with
    | zero => exact absurd hn (Nat.lt_irrefl 0)
    | succ n => rw [strn_succ]; exact if_pos hnul
  | cons c text ih =>
    cases n with
    | zero => exact absurd hn (Nat.not_lt_zero _)
    | succ n =>
      have h0 : p 0 = c := hbytes 0 (Nat.succ_pos _)
      rw [strn_succ, h0, if_neg (htext c List.mem_cons_self),
        ih (fun d hd => htext d (List.mem_cons_of_mem c hd))
          (fun k hk => hbytes (k + 1) (Nat.succ_lt_succ hk)) hnul (Nat.lt_of_succ_lt_succ hn)]

lemma length_strn_le (p : Nat → UInt8) (n : Nat) : (strn p n).length ≤ n :=
  (List.takeWhile_sublist _).length_le.trans (by rw [List.length_map, List.length_range])

lemma ne_zero_of_mem_strn {c : UInt8} (h : c ∈ strn p n) : c ≠ 0 := by
  have := List.mem_takeWhile_imp h
  simpa using this

end DirName
