import Mathlib.Data.List.Flatten
import Xv6Ext2.Ext2InodeProofs
import Xv6Ext2.Ext2TreeProofs

/-! # What ext2fs_itrunc frees (ext2fs.c)

    `ext2fs_itrunc` goes through the block tree of the inode and gives every block to
    `ext2fs_bfree`.  Here `ext2fs_bfree` is an argument: with the function of the source this
    is `ext2fs_itrunc`, and with `freeBlock`, which takes its block out of a set of allocated
    blocks and writes down the call, it shows which blocks are freed and in which order.

    - `itruncWith_bfree` : the function of the source;
    - `posOrder` : all positions of a tree, each one behind the positions below it;
    - `freeLevel_frees` : the loops free the blocks of a subtree in this order and change
      nothing outside of it;
    - `itrunc_frees_tree` : so every block of the tree is freed once, an index block after the
      blocks it points to, and nothing else is. -/

namespace Ext2Trunc

open ByteBlock BufCache Outcome Ownership FileIo Ext2Alloc Ext2Bmap Ext2Inode

open Function (update update_of_ne update_self)

/-! ## `ext2fs_itrunc` with a function that frees -/

section With

variable {τ : Type} (bfree : List Nat → Nat → Bcache × τ → Except Err (Bcache × τ))

/-- One turn of the loop over the words of block `blk`: the block that word `i` points to is
    freed, and the word cleared in memory. -/
def freeWord (free : Nat → Bcache × τ → Except Err (Bcache × τ)) (blk : Nat) (s : Bcache × τ)
    (i : Nat) : Except Err (Bcache × τ) :=
  if getLE (s.1.view blk) 4 (4 * i) = 0 then .ok s
  else do
    let s ← free (getLE (s.1.view blk) 4 (4 * i)) s
    .ok (bput blk (putLE (s.1.view blk) 4 (4 * i) 0) s.1, s.2)

/-- Free what the words of block `blk` point to, as `freeLevel` does. -/
def freeLevelWith : Nat → List Nat → Nat → Bcache × τ → Except Err (Bcache × τ)
  | 0, _, _, s => .ok s
  | level + 1, held, blk, s => do
      let (_, bc) ← bread held blk s.1
      (List.range EXT2_INDIRECT).foldlM (freeWord (fun w s => do
        let s ← freeLevelWith level (blk :: held) w s
        bfree (blk :: held) w s) blk) (bc, s.2)

/-- `ext2fs_itrunc` for one of the three indirect slots of the inode. -/
def truncLevelWith (level i : Nat) (ip : Dinode) (s : Bcache × τ) :
    Except Err (Dinode × Bcache × τ) :=
  if ip.addrs i = 0 then .ok (ip, s)
  else do
    let s ← freeLevelWith bfree level [] (ip.addrs i) s
    let s ← bfree [] (ip.addrs i) s
    .ok ({ ip with addrs := update ip.addrs i 0 }, s)

def itruncWith (sb : Ext2Super) (inum : Nat) (ip : Dinode) (s : Bcache × τ) :
    Except Err (Dinode × Bcache × τ) := do
  let (ip, s) ← (List.range EXT2_NDIR_BLOCKS).foldlM (fun (x : Dinode × Bcache × τ) i =>
    if x.1.addrs i = 0 then .ok x
    else do
      let s ← bfree [] (x.1.addrs i) x.2
      .ok ({ x.1 with addrs := update x.1.addrs i 0 }, s)) (ip, s)
  let (ip, s) ← truncLevelWith bfree 1 EXT2_IND_BLOCK ip s
  let (ip, s) ← truncLevelWith bfree 2 EXT2_DIND_BLOCK ip s
  let (ip, s) ← truncLevelWith bfree 3 EXT2_TIND_BLOCK ip s
  let ip := { ip with size := 0 }
  let bc ← ext2fsIupdate sb inum ip s.1
  .ok (ip, bc, s.2)

end With

/-- `ext2fs_bfree` of the source. -/
def bfreeOf (sb : Ext2Super) (held : List Nat) (b : Nat) (s : Bcache × Unit) :
    Except Err (Bcache × Unit) := do
  let bc ← ext2fsBfree sb held b s.1
  .ok (bc, ())

lemma bfreeOf_eq (sb : Ext2Super) (held : List Nat) (b : Nat) (s : Bcache × Unit) :
    bfreeOf sb held b s = (ext2fsBfree sb held b s.1).map (fun s => (s, ())) := by
  rw [bfreeOf]
  cases ext2fsBfree sb held b s.1 <;> rfl

/-- With the function of the source the loops are those of `ext2fs_itrunc`. -/
lemma freeLevelWith_bfree (sb : Ext2Super) (level : Nat) :
    ∀ (held : List Nat) (blk : Nat) (s : Bcache),
      freeLevelWith (bfreeOf sb) level held blk (s, ()) =
        (freeLevel sb level held blk s).map (fun s => (s, ())) := by
  induction level with
  | zero => exact fun _ _ _ => rfl
  | succ level ih =>
    intro held blk s
    rw [freeLevelWith, freeLevel]
    cases bread held blk s with
    | error e => rfl
    | ok x =>
      rw [ok_bind, ok_bind]
      refine foldlM_map (g := fun s => (s, ())) (fun s i => ?_) _ x.2
      rw [freeWord]
      dsimp only
      split
      · rfl
      rw [ih, bind_assoc]
      refine map_bind_map fun s₁ => ?_
      rw [bfreeOf_eq]
      exact map_bind_map fun s₂ => rfl

lemma truncLevelWith_bfree (sb : Ext2Super) (level i : Nat) (ip : Dinode) (s : Bcache) :
    truncLevelWith (bfreeOf sb) level i ip (s, ()) =
      (truncLevel sb level i ip s).map (fun x => (x.1, x.2, ())) := by
  rw [truncLevelWith, truncLevel]
  split
  · rfl
  rw [freeLevelWith_bfree]
  refine map_bind_map fun s₁ => ?_
  rw [bfreeOf_eq]
  exact map_bind_map fun s₂ => rfl

/-- `ext2fs_itrunc` of the source. -/
lemma itruncWith_bfree (sb : Ext2Super) (inum : Nat) (ip : Dinode) (s : Bcache) :
    itruncWith (bfreeOf sb) sb inum ip (s, ()) =
      (ext2fsItrunc sb inum ip s).map (fun x => (x.1, x.2, ())) := by
  rw [itruncWith, ext2fsItrunc]
  rw [foldlM_map (g := fun x : Dinode × Bcache => (x.1, x.2, ())) (s := (ip, s)) (fun x i => ?_)]
  · iterate 3
      refine map_bind_map fun x => ?_
      dsimp only
      rw [truncLevelWith_bfree]
    refine map_bind_map fun x => ?_
    dsimp only
    cases ext2fsIupdate sb inum { x.1 with size := 0 } x.2 <;> rfl
  · dsimp only
    split
    · rfl
    · rw [bfreeOf_eq]
      exact map_bind_map fun s₁ => rfl

/-- The allocated blocks, and the blocks that were given to `ext2fs_bfree` so far. -/
structure Allocated where
  used  : Set Nat
  calls : List Nat

def Allocated.remove (a : Allocated) (b : Nat) : Allocated := ⟨a.used \ {b}, a.calls ++ [b]⟩

/-- `ext2fs_bfree` as the removal of a block from the set of allocated blocks. -/
def freeBlock (_ : List Nat) (b : Nat) (s : Bcache × Allocated) : Except Err (Bcache × Allocated) :=
  .ok (s.1, s.2.remove b)

/-! ## The positions of a tree -/

/-- The positions below `(root, is)`, down to `level` levels, in the order of the loops. -/
def posBelow (root : Nat) : Nat → List Nat → List Pos
  | 0, _ => []
  | level + 1, is =>
    (List.range 256).flatMap (fun i => posBelow root level (i :: is) ++ [(root, i :: is)])

/-- The positions from `(root, is)` down. -/
def posFrom (root level : Nat) (is : List Nat) : List Pos :=
  posBelow root level is ++ [(root, is)]

def posOrder : List Pos := (List.range 15).flatMap (fun root => posFrom root (levels root) [])

lemma posBelow_succ (root level : Nat) (is : List Nat) : posBelow root (level + 1) is =
      (List.range 256).flatMap (fun i => posFrom root level (i :: is)) := rfl

variable {is : List Nat}

/-- They are the extensions of `is` by up to `level` indices. -/
lemma mem_posFrom {root level : Nat} {p : Pos} : p ∈ posFrom root level is ↔
      ∃ js, js.length ≤ level ∧ (∀ j ∈ js, j < 256) ∧ p = (root, js ++ is) := by
  induction level generalizing is with
  | zero =>
    rw [posFrom, posBelow, List.nil_append, List.mem_singleton]
    constructor
    · rintro rfl
      exact ⟨[], Nat.le_refl 0, fun j hj => absurd hj List.not_mem_nil, rfl⟩
    · rintro ⟨js, hlen, -, rfl⟩
      rw [List.length_eq_zero_iff.mp (Nat.le_zero.mp hlen)]
      rfl
  | succ level ih =>
    rw [posFrom, posBelow_succ, List.mem_append, List.mem_singleton, List.mem_flatMap]
    constructor
    · rintro (⟨i, hi, hp⟩ | rfl)
      · obtain ⟨js, hlen, hlt, rfl⟩ := ih.mp hp
        refine ⟨js ++ [i], ?_, fun j hj => ?_, ?_⟩
        · rw [List.length_append]
          exact Nat.succ_le_succ hlen
        · rcases List.mem_append.mp hj with hj | hj
          · exact hlt j hj
          · rw [List.mem_singleton.mp hj]
            exact List.mem_range.mp hi
        · rw [List.append_assoc]
          rfl
      · exact ⟨[], Nat.zero_le _, fun j hj => absurd hj List.not_mem_nil, rfl⟩
    · rintro ⟨js, hlen, hlt, rfl⟩
      rcases List.eq_nil_or_concat' js with rfl | ⟨ks, i, rfl⟩
      · exact .inr rfl
      refine .inl ⟨i, List.mem_range.mpr (hlt i (by simp)), ih.mpr ⟨ks, ?_, fun j hj => ?_, ?_⟩⟩
      · rw [List.length_append] at hlen
        exact Nat.le_of_succ_le_succ hlen
      · exact hlt j (List.mem_append_left _ hj)
      · rw [List.append_assoc]
        rfl

lemma mem_posOrder {p : Pos} : p ∈ posOrder ↔ ValidPos p := by
  rw [posOrder, List.mem_flatMap]
  constructor
  · rintro ⟨root, hroot, hp⟩
    obtain ⟨js, hlen, hlt, rfl⟩ := mem_posFrom.mp hp
    rw [List.append_nil]
    exact ⟨List.mem_range.mp hroot, hlen, hlt⟩
  · rintro ⟨hroot, hlen, hlt⟩
    exact ⟨p.1, List.mem_range.mpr hroot, mem_posFrom.mpr ⟨p.2, hlen, hlt, by rw [List.append_nil]⟩⟩

lemma append_cons_inj {js js' : List Nat} {i i' : Nat} (h : js ++ i :: is = js' ++ i' :: is) :
    js = js' ∧ i = i' := by
  obtain ⟨h1, h2⟩ := List.append_inj' h rfl
  exact ⟨h1, (List.cons.inj h2).1⟩

lemma posFrom_nodup (root level : Nat) (is : List Nat) : (posFrom root level is).Nodup := by
  induction level generalizing is with
  | zero => exact List.nodup_singleton _
  | succ level ih =>
    rw [posFrom, posBelow_succ]
    refine List.Nodup.append ?_ (List.nodup_singleton _) ?_
    · refine List.nodup_flatMap.mpr ⟨fun i _ => ih (i :: is), ?_⟩
      refine List.nodup_range.imp (fun {i i'} hne p hp hp' => hne ?_)
      obtain ⟨js, -, -, rfl⟩ := mem_posFrom.mp hp
      obtain ⟨js', -, -, heq⟩ := mem_posFrom.mp hp'
      exact (append_cons_inj (Prod.mk.inj heq).2).2
    · intro p hp hself
      rw [List.mem_singleton] at hself
      obtain ⟨i, -, hp⟩ := List.mem_flatMap.mp hp
      obtain ⟨js, -, -, heq⟩ := mem_posFrom.mp hp
      have hlen := congrArg List.length (Prod.mk.inj (hself.symm.trans heq)).2
      rw [List.length_append, List.length_cons] at hlen
      omega

lemma posOrder_nodup : posOrder.Nodup := by
  refine List.nodup_flatMap.mpr ⟨fun root _ => posFrom_nodup root (levels root) [], ?_⟩
  refine List.nodup_range.imp (fun {root root'} hne p hp hp' => hne ?_)
  obtain ⟨js, -, -, rfl⟩ := mem_posFrom.mp hp
  obtain ⟨js', -, -, heq⟩ := mem_posFrom.mp hp'
  exact (Prod.mk.inj heq).1

lemma sublist_flatMap {α β : Type} (f : α → List β) {a : α} {l : List α} (h : a ∈ l) :
    (f a).Sublist (l.flatMap f) := by
  have hone := (List.singleton_sublist.mpr h).flatMap f
  rwa [List.flatMap_singleton] at hone

lemma posFrom_sublist (root level : Nat) (is js : List Nat) (hjs : ∀ j ∈ js, j < 256) :
    (posFrom root level (js ++ is)).Sublist (posFrom root (level + js.length) is) := by
  induction js generalizing level with
  | nil => exact List.Sublist.refl _
  | cons j js ih =>
    have hchild : (posFrom root level (j :: (js ++ is))).Sublist (posFrom root (level + 1) (js ++ is)) := by
      rw [posFrom.eq_def root (level + 1), posBelow_succ]
      refine List.Sublist.trans ?_ (List.sublist_append_left _ _)
      exact sublist_flatMap (fun i => posFrom root level (i :: (js ++ is)))
        (List.mem_range.mpr (hjs j List.mem_cons_self))
    refine hchild.trans ?_
    rw [List.length_cons, Nat.add_comm js.length 1, ← Nat.add_assoc]
    exact ih (level + 1) (fun k hk => hjs k (List.mem_cons_of_mem j hk))

lemma below_before {root i : Nat} (h : ValidPos (root, i :: is)) :
    [(root, i :: is), (root, is)].Sublist posOrder := by
  obtain ⟨m, hm⟩ : ∃ m, levels root = m + 1 + is.length :=
    ⟨levels root - is.length - 1, by have : is.length + 1 ≤ levels root := h.2.1; omega⟩
  have hpair : [(root, i :: is), (root, is)].Sublist (posFrom root (m + 1) is) := by
    have hmem : (root, i :: is) ∈ posBelow root (m + 1) is := by
      rw [posBelow_succ, List.mem_flatMap]
      exact ⟨i, List.mem_range.mpr h.index_lt, mem_posFrom.mpr
        ⟨[], Nat.zero_le _, fun j hj => absurd hj List.not_mem_nil, rfl⟩⟩
    exact List.Sublist.append (List.singleton_sublist.mpr hmem) (List.Sublist.refl [(root, is)])
  have hup : (posFrom root (m + 1) is).Sublist (posFrom root (levels root) []) := by
    have := posFrom_sublist root (m + 1) [] is h.parent.2.2
    rwa [List.append_nil, ← hm] at this
  have hroot : root ∈ List.range 15 := List.mem_range.mpr h.1
  exact (hpair.trans hup).trans (sublist_flatMap (fun root => posFrom root (levels root) []) hroot)

/-! ## The blocks at these positions -/

section Blocks

variable (addrs : Nat → Nat) (v : Disk)

/-- The blocks at the positions `ps`, without the null pointers. -/
def blocksAt (ps : List Pos) : List Nat := (ps.map (treePtr addrs v)).filter (· ≠ 0)

/-- The blocks from the position `(root, is)` down. -/
def Under (root : Nat) (is : List Nat) (b : Nat) : Prop :=
  b ≠ 0 ∧ ∃ js, treePtr addrs v (root, js ++ is) = b

variable {addrs v}

lemma blocksAt_append (ps qs : List Pos) :
    blocksAt addrs v (ps ++ qs) = blocksAt addrs v ps ++ blocksAt addrs v qs := by
  rw [blocksAt, List.map_append, List.filter_append]
  rfl

lemma mem_blocksAt {ps : List Pos} {b : Nat} :
    b ∈ blocksAt addrs v ps ↔ b ≠ 0 ∧ ∃ p ∈ ps, treePtr addrs v p = b := by
  rw [blocksAt, List.mem_filter, List.mem_map]
  simp only [ne_eq, decide_not, Bool.not_eq_true', decide_eq_false_iff_not]
  exact and_comm

variable {root : Nat} {is : List Nat}

/-- Under a null pointer there are only null pointers. -/
lemma treePtr_below_null (h : treePtr addrs v (root, is) = 0)
    (js : List Nat) : treePtr addrs v (root, js ++ is) = 0 := by
  induction js with
  | nil => exact h
  | cons j js ih =>
    by_cases hv : ValidPos (root, j :: (js ++ is))
    · rw [List.cons_append, treePtr_cons hv, if_pos ih]
    · exact if_neg hv

lemma blocksAt_null {level : Nat} (h : treePtr addrs v (root, is) = 0) :
    blocksAt addrs v (posFrom root level is) = [] := by
  refine List.eq_nil_iff_forall_not_mem.mpr (fun b hb => ?_)
  obtain ⟨hb0, p, hp, rfl⟩ := mem_blocksAt.mp hb
  obtain ⟨js, -, -, rfl⟩ := mem_posFrom.mp hp
  exact hb0 (treePtr_below_null h js)

lemma blocksAt_posFrom {level : Nat} (h : treePtr addrs v (root, is) ≠ 0) :
    blocksAt addrs v (posFrom root level is) =
      blocksAt addrs v (posBelow root level is) ++ [treePtr addrs v (root, is)] := by
  rw [posFrom, blocksAt_append]
  congr 1
  exact List.filter_cons_of_pos (by simpa using h)

lemma blocksAt_nodup (hd : Distinct (treePtr addrs v)) {ps : List Pos} (hps : ps.Nodup) :
    (blocksAt addrs v ps).Nodup := by
  rw [blocksAt, List.filter_map]
  refine List.Nodup.map_on (fun p hp q _ heq => hd p q ?_ heq) (hps.filter _)
  simpa using (List.mem_filter.mp hp).2

lemma Under.of_cons {i b : Nat} (h : Under addrs v root (i :: is) b) : Under addrs v root is b := by
  obtain ⟨hb, js, hjs⟩ := h
  exact ⟨hb, js ++ [i], by rw [List.append_assoc]; exact hjs⟩

lemma under_self (h : treePtr addrs v (root, is) ≠ 0) :
    Under addrs v root is (treePtr addrs v (root, is)) := ⟨h, [], rfl⟩

end Blocks

/-! ## The loops -/

section Free

variable {addrs : Nat → Nat} {v : Disk} (hd : Distinct (treePtr addrs v))

include hd

variable {root i : Nat} {is : List Nat}

lemma Under.disjoint {j b : Nat} (h : Under addrs v root (i :: is) b)
    (h' : Under addrs v root (j :: is) b) : i = j := by
  obtain ⟨hb, js, rfl⟩ := h
  obtain ⟨-, js', heq⟩ := h'
  exact (append_cons_inj (Prod.mk.inj (hd _ _ hb heq.symm)).2).2

lemma not_under_self (h : treePtr addrs v (root, is) ≠ 0) :
    ¬Under addrs v root (i :: is) (treePtr addrs v (root, is)) := by
  rintro ⟨-, js, heq⟩
  have hlen := congrArg List.length (Prod.mk.inj (hd _ _ h heq.symm)).2
  rw [List.length_append, List.length_cons] at hlen
  omega

omit hd in
/-- What is known after `n` turns of the loop over the words of the index block at `(root, is)`
    that began in state `s`: the words from `n` on and what is under them are as they were. -/
structure Turns (addrs : Nat → Nat) (v : Disk) (root level : Nat) (is : List Nat)
    (s : Bcache × Allocated) (n : Nat) (s' : Bcache × Allocated) : Prop where
  calls : s'.2 = (blocksAt addrs v ((List.range n).flatMap
    (fun i => posFrom root level (i :: is)))).foldl Allocated.remove s.2
  out   : ∀ b, ¬Under addrs v root is b → s'.1.view b = s.1.view b
  words : ∀ i, n ≤ i → i < 256 → getLE (s'.1.view (treePtr addrs v (root, is))) 4 (4 * i) =
    treePtr addrs v (root, i :: is)
  under : ∀ i, n ≤ i → ∀ b, Under addrs v root (i :: is) b → s'.1.view b = v b

/-- One turn, if `free` frees a subtree. -/
lemma freeWord_turn {level : Nat} {s s₁ : Bcache × Allocated}
    {free : Nat → Bcache × Allocated → Except Err (Bcache × Allocated)} (hi : i < 256)
    (hblk : treePtr addrs v (root, is) ≠ 0) (hfree : treePtr addrs v (root, i :: is) ≠ 0 → ∃ s',
      free (treePtr addrs v (root, i :: is)) s₁ = .ok s' ∧
      s'.2 = (blocksAt addrs v (posFrom root level (i :: is))).foldl Allocated.remove s₁.2 ∧
      ∀ b, ¬Under addrs v root (i :: is) b → s'.1.view b = s₁.1.view b)
    (h : Turns addrs v root level is s i s₁) :
    ∃ s', freeWord free (treePtr addrs v (root, is)) s₁ i = .ok s' ∧
      Turns addrs v root level is s (i + 1) s' := by
  rw [freeWord, h.words i (Nat.le_refl i) hi]
  have hcalls : blocksAt addrs v ((List.range (i + 1)).flatMap
      (fun i => posFrom root level (i :: is))) =
      blocksAt addrs v ((List.range i).flatMap (fun i => posFrom root level (i :: is))) ++
        blocksAt addrs v (posFrom root level (i :: is)) := by
    rw [List.range_succ, List.flatMap_append, List.flatMap_singleton, blocksAt_append]
  split
  · next hw =>
    refine ⟨s₁, rfl, ?_, h.out, fun j hj => h.words j (by omega), fun j hj => h.under j (by omega)⟩
    rw [hcalls, blocksAt_null hw, List.append_nil]
    exact h.calls
  · next hw =>
    obtain ⟨s₂, hrun, hcalls₂, hout⟩ := hfree hw
    rw [hrun, ok_bind]
    have hself := not_under_self hd (i := i) hblk
    refine ⟨_, rfl, ?_, fun b hb => ?_, fun j hj hj' => ?_, fun j hj b hb => ?_⟩
    · rwa [hcalls, List.foldl_append, ← h.calls]
    · have hne : b ≠ treePtr addrs v (root, is) := fun e => hb (e ▸ under_self hblk)
      rw [bput_view, update_of_ne hne, hout b (fun hu => hb hu.of_cons), h.out b hb]
    · -- the other words of the index block stay
      rw [bput_view, update_self, getLE_congr (fun k _ hk => fillBlock_in (by
        unfold BSIZE; omega)), getLE_putLE_of_disjoint (by omega), hout _ hself,
        h.words j (by omega) hj']
    · have hne : b ≠ treePtr addrs v (root, is) := fun e => not_under_self hd hblk (e ▸ hb)
      rw [bput_view, update_of_ne hne, hout b (fun hu => absurd (hu.disjoint hd hb) (by omega)), h.under j (by omega) b hb]

/-- **The loops below an index block** free the blocks under it in the order of `posBelow`, and
    leave all other blocks as they are. -/
lemma freeLevel_frees (level : Nat) : ∀ (root : Nat) (is held : List Nat) (s : Bcache × Allocated),
    ValidPos (root, is) → is.length + level ≤ levels root → treePtr addrs v (root, is) ≠ 0 →
    (∀ b ∈ held, ¬Under addrs v root is b) → (∀ b, Under addrs v root is b → s.1.view b = v b) →
    ∃ s', freeLevelWith freeBlock level held (treePtr addrs v (root, is)) s = .ok s' ∧
      s'.2 = (blocksAt addrs v (posBelow root level is)).foldl Allocated.remove s.2 ∧
      ∀ b, ¬Under addrs v root is b → s'.1.view b = s.1.view b := by
  induction level with
  | zero =>
    intro root is held s _ _ _ _ _
    exact ⟨s, rfl, rfl, fun b _ => rfl⟩
  | succ level ih =>
    intro root is held s hvalid hlevel hblk hheld hview
    have hnotheld : treePtr addrs v (root, is) ∉ held := fun hmem => hheld _ hmem (under_self hblk)
    have hchild : ∀ i < 256, ValidPos (root, i :: is) :=
      fun i hi => validPos_cons hvalid (by omega) hi
    rw [freeLevelWith, bread_of_notMem hnotheld, ok_bind]
    dsimp only
    have hstart : Turns addrs v root level is s 0
        (s.1.touch (treePtr addrs v (root, is)), s.2) := by
      refine ⟨rfl, fun b _ => congrFun (touch_view _ _) b, fun i _ hi => ?_, fun i _ b hb => ?_⟩
      · rw [touch_view, hview _ (under_self hblk), treePtr_cons (hchild i hi), if_neg hblk]
      · rw [touch_view]
        exact hview b hb.of_cons
    have hheld' : ∀ i, ∀ b ∈ treePtr addrs v (root, is) :: held, ¬Under addrs v root (i :: is) b := by
      intro i b hb hu
      rcases List.mem_cons.mp hb with rfl | hb
      · exact not_under_self hd hblk hu
      · exact hheld b hb hu.of_cons
    have hturn : ∀ i < EXT2_INDIRECT, ∀ s₁, Turns addrs v root level is s i s₁ →
        ∃ s', freeWord (fun w s => do
          let s ← freeLevelWith freeBlock level (treePtr addrs v (root, is) :: held) w s
          freeBlock (treePtr addrs v (root, is) :: held) w s) (treePtr addrs v (root, is)) s₁ i =
            .ok s' ∧ Turns addrs v root level is s (i + 1) s' := by
      intro i hi s₁ h₁
      refine freeWord_turn hd hi hblk (fun hw => ?_) h₁
      obtain ⟨s₂, hrun₂, hcalls₂, hout₂⟩ := ih root (i :: is) (treePtr addrs v (root, is) :: held)
        s₁ (hchild i hi) (by rw [List.length_cons]; omega) hw (hheld' i)
        (h₁.under i (Nat.le_refl i))
      refine ⟨(s₂.1, s₂.2.remove (treePtr addrs v (root, i :: is))), ?_, ?_, hout₂⟩
      · rw [hrun₂]
        rfl
      · rw [blocksAt_posFrom hw, List.foldl_append, ← hcalls₂]
        rfl
    obtain ⟨s', hrun, hend⟩ := foldlM_range_ok hturn hstart
    exact ⟨s', hrun, hend.calls, hend.out⟩

end Free

/-! ## The slots of the inode -/

section Slots

variable {ip : Dinode} {s : Bcache × Allocated}

/-- What is known when the first `n` slots of the inode have been cleared. -/
structure Cleared (ip : Dinode) (s : Bcache × Allocated) (n : Nat) (x : Dinode × Bcache × Allocated) :
    Prop where
  zero  : ∀ r < n, x.1.addrs r = 0
  rest  : ∀ r, n ≤ r → x.1.addrs r = ip.addrs r
  calls : x.2.2 = (blocksAt ip.addrs s.1.view ((List.range n).flatMap
    (fun root => posFrom root (levels root) []))).foldl Allocated.remove s.2
  under : ∀ r, n ≤ r → ∀ b, Under ip.addrs s.1.view r [] b → x.2.1.view b = s.1.view b

/-- One slot of the inode. -/
lemma truncLevel_frees (hd : Distinct (treePtr ip.addrs s.1.view)) {n : Nat} (hn : n < 15)
    {x : Dinode × Bcache × Allocated} (h : Cleared ip s n x) :
    ∃ x', truncLevelWith freeBlock (levels n) n x.1 x.2 = .ok x' ∧ Cleared ip s (n + 1) x' := by
  have hptr : treePtr ip.addrs s.1.view (n, []) = ip.addrs n := treePtr_nil hn
  have hcalls : blocksAt ip.addrs s.1.view ((List.range (n + 1)).flatMap
      (fun root => posFrom root (levels root) [])) =
      blocksAt ip.addrs s.1.view ((List.range n).flatMap
        (fun root => posFrom root (levels root) [])) ++
        blocksAt ip.addrs s.1.view (posFrom n (levels n) []) := by
    rw [List.range_succ, List.flatMap_append, List.flatMap_singleton, blocksAt_append]
  rw [truncLevelWith, h.rest n (Nat.le_refl n), ← hptr]
  split
  · next h0 =>
    refine ⟨x, rfl, fun r hr => ?_, fun r hr => h.rest r (by omega), ?_,
      fun r hr => h.under r (by omega)⟩
    · rcases Nat.lt_succ_iff_lt_or_eq.mp hr with hr | rfl
      · exact h.zero r hr
      · rw [h.rest r (Nat.le_refl r), ← hptr, h0]
    · rw [hcalls, blocksAt_null h0, List.append_nil]
      exact h.calls
  · next h0 =>
    obtain ⟨s', hrun, hfreed, hout⟩ := freeLevel_frees hd (levels n) n [] [] x.2 (validPos_nil hn)
      (by rw [List.length_nil]; omega) h0 (fun b hb => absurd hb List.not_mem_nil)
      (h.under n (Nat.le_refl n))
    rw [hrun, ok_bind]
    refine ⟨_, rfl, fun r hr => ?_, fun r hr => ?_, ?_, fun r hr b hb => ?_⟩
    · show update x.1.addrs n 0 r = 0
      by_cases hrn : r = n
      · rw [hrn, update_self]
      · rw [update_of_ne hrn, h.zero r (by omega)]
    · show update x.1.addrs n 0 r = ip.addrs r
      rw [update_of_ne (by omega), h.rest r (by omega)]
    · rw [hcalls, List.foldl_append, ← h.calls, blocksAt_posFrom h0, List.foldl_append, ← hfreed]
      rfl
    · -- the trees of different slots are disjoint
      have hother : ¬Under ip.addrs s.1.view n [] b := by
        rintro ⟨-, js, hjs⟩
        obtain ⟨hb0, js', hjs'⟩ := hb
        have := (Prod.mk.inj (hd _ _ (hjs.trans_ne hb0) (hjs.trans hjs'.symm))).1
        omega
      exact (hout b hother).trans (h.under r (by omega) b hb)

/-- The loop over the direct blocks does the same for the first twelve slots. -/
lemma directLoop_eq (x : Dinode × Bcache × Allocated) {i : Nat} (hi : i < 12) :
    (if x.1.addrs i = 0 then .ok x
      else do
        let s ← freeBlock [] (x.1.addrs i) x.2
        .ok ({ x.1 with addrs := update x.1.addrs i 0 }, s)) =
      truncLevelWith freeBlock (levels i) i x.1 x.2 := by
  rw [levels, if_pos hi, truncLevelWith]
  rfl

/-- The blocks that are left when a list of blocks is removed, and the calls. -/
lemma foldl_remove (l : List Nat) (a : Allocated) :
    l.foldl Allocated.remove a = ⟨a.used \ {b | b ∈ l}, a.calls ++ l⟩ := by
  induction l generalizing a with
  | nil => simp
  | cons b l ih =>
    rw [List.foldl_cons, ih, Allocated.remove]
    congr 1
    · ext c
      simp only [Set.mem_sdiff, Set.mem_singleton_iff, Set.mem_ofPred_eq, List.mem_cons]
      tauto
    · rw [List.append_assoc]
      rfl

lemma itruncWith_cleared (sb : Ext2Super) (inum : Nat) (hg : checkGeometry sb = .ok ())
    (hd : Distinct (treePtr ip.addrs s.1.view)) : ∃ x bc, Cleared ip s 15 x ∧
      itruncWith freeBlock sb inum ip s = .ok ({ x.1 with size := 0 }, bc, x.2.2) := by
  have hstart : Cleared ip s 0 (ip, s) :=
    ⟨fun r hr => absurd hr (Nat.not_lt_zero r), fun _ _ => rfl, rfl, fun _ _ _ _ => rfl⟩
  have hdirect : ∀ i < EXT2_NDIR_BLOCKS, ∀ x, Cleared ip s i x →
      ∃ x', (if x.1.addrs i = 0 then .ok x
        else do
          let s ← freeBlock [] (x.1.addrs i) x.2
          .ok ({ x.1 with addrs := update x.1.addrs i 0 }, s)) = .ok x' ∧
        Cleared ip s (i + 1) x' := by
    intro i hi x hx
    have hi' : i < 12 := hi
    rw [directLoop_eq x hi']
    exact truncLevel_frees hd (by omega) hx
  obtain ⟨x₁, hrun₁, h₁⟩ := foldlM_range_ok hdirect hstart
  obtain ⟨x₂, hrun₂, h₂⟩ := truncLevel_frees hd (by decide) h₁
  obtain ⟨x₃, hrun₃, h₃⟩ := truncLevel_frees hd (by decide) h₂
  obtain ⟨x₄, hrun₄, h₄⟩ := truncLevel_frees hd (by decide) h₃
  replace hrun₂ : truncLevelWith freeBlock 1 EXT2_IND_BLOCK x₁.1 x₁.2 = .ok x₂ := hrun₂
  replace hrun₃ : truncLevelWith freeBlock 2 EXT2_DIND_BLOCK x₂.1 x₂.2 = .ok x₃ := hrun₃
  replace hrun₄ : truncLevelWith freeBlock 3 EXT2_TIND_BLOCK x₃.1 x₃.2 = .ok x₄ := hrun₄
  obtain ⟨bc, hup⟩ : ∃ bc, ext2fsIupdate sb inum { x₄.1 with size := 0 } x₄.2.1 = .ok bc :=
    ⟨_, ext2fsIupdate_eq hg inum _⟩
  refine ⟨x₄, bc, h₄, ?_⟩
  rw [itruncWith, hrun₁, ok_bind]
  dsimp only
  rw [hrun₂, ok_bind, hrun₃, ok_bind, hrun₄, ok_bind, hup]
  rfl

variable {addrs : Nat → Nat} {v : Disk}

/-- The blocks at the positions of the tree are the blocks of the tree. -/
lemma mem_blocksAt_posOrder {b : Nat} :
    b ∈ blocksAt addrs v posOrder ↔ b ≠ 0 ∧ ∃ p, treePtr addrs v p = b := by
  rw [mem_blocksAt]
  refine and_congr_right (fun hb => ⟨fun ⟨p, _, hp⟩ => ⟨p, hp⟩, fun ⟨p, hp⟩ => ⟨p, ?_, hp⟩⟩)
  refine mem_posOrder.mpr ?_
  by_contra hv
  exact hb (hp.symm.trans (if_neg hv))

lemma blocksAt_below_before {root i : Nat} (h : treePtr addrs v (root, i :: is) ≠ 0) :
    [treePtr addrs v (root, i :: is), treePtr addrs v (root, is)].Sublist
      (blocksAt addrs v posOrder) := by
  have hv : ValidPos (root, i :: is) := by
    by_contra hv
    exact h (if_neg hv)
  have hup : treePtr addrs v (root, is) ≠ 0 := fun h0 => h (treePtr_below_null h0 [i])
  have hsub := ((below_before hv).map (treePtr addrs v)).filter (· ≠ 0)
  rwa [List.map_cons, List.map_cons, List.map_nil, List.filter_cons_of_pos (by simpa using h),
    List.filter_cons_of_pos (by simpa using hup), List.filter_nil] at hsub

/-- **Main result.**  If no block stands at two places of the tree, `ext2fs_itrunc` returns and
    has given exactly the blocks of the tree to `ext2fs_bfree`, each one once and each index
    block after the blocks it points to; the inode is left empty. -/
theorem itrunc_frees_tree (sb : Ext2Super) (inum : Nat) (ip : Dinode) (s : Bcache × Allocated)
    (hg : checkGeometry sb = .ok ()) (hd : Distinct (treePtr ip.addrs s.1.view)) :
    ∃ ip' bc freed, itruncWith freeBlock sb inum ip s =
        .ok (ip', bc, ⟨s.2.used \ {b | b ≠ 0 ∧ ∃ p, treePtr ip.addrs s.1.view p = b},
          s.2.calls ++ freed⟩) ∧ freed.Nodup ∧
      (∀ b, b ∈ freed ↔ b ≠ 0 ∧ ∃ p, treePtr ip.addrs s.1.view p = b) ∧
      (∀ root i is, treePtr ip.addrs s.1.view (root, i :: is) ≠ 0 →
        [treePtr ip.addrs s.1.view (root, i :: is), treePtr ip.addrs s.1.view (root, is)].Sublist
          freed) ∧ (∀ i < EXT2_N_BLOCKS, ip'.addrs i = 0) ∧ ip'.size = 0 := by
  obtain ⟨x, bc, hx, hrun⟩ := itruncWith_cleared sb inum hg hd
  have hset : {b | b ∈ blocksAt ip.addrs s.1.view posOrder} =
      {b | b ≠ 0 ∧ ∃ p, treePtr ip.addrs s.1.view p = b} := Set.ext (fun _ => mem_blocksAt_posOrder)
  refine ⟨{ x.1 with size := 0 }, bc, blocksAt ip.addrs s.1.view posOrder, ?_,
    blocksAt_nodup hd posOrder_nodup, fun _ => mem_blocksAt_posOrder,
    fun _ _ _ hne => blocksAt_below_before hne, hx.zero, rfl⟩
  rw [hrun, hx.calls, ← hset, foldl_remove]
  rfl

end Slots

/-! ## A file with an indirect block -/

/-- The block 5, and the block 7 under the indirect block 6. -/
def twoBlocks : Dinode := ⟨T_FILE, 0, 0, 1, 2048, fun i => if i = 0 then 5 else if i = 12 then 6 else 0⟩

def twoBlocksDisk : Disk := fun b => if b = 6 then putLE (fun _ => 0) 4 0 7 else fun _ => 0

lemma twoBlocks_tree : treePtr twoBlocks.addrs twoBlocksDisk = fun p =>
    if p = (0, []) then 5 else if p = (12, []) then 6 else if p = (12, [0]) then 7 else 0 := by
  refine treePtr_unique (fun root hroot => ?_) (fun root i is hv => ?_) (fun p hp => ?_)
  · revert root
    decide
  · have hword : ∀ i < 256, getLE (twoBlocksDisk 6) 4 (4 * i) = if i = 0 then 7 else 0 := by
      decide +kernel
    obtain ⟨hroot, hlen, hlt⟩ := hv
    by_cases h0 : (root, is) = (0, [])
    · obtain ⟨rfl, rfl⟩ := Prod.mk.inj h0
      exact absurd (show 1 ≤ 0 from hlen) (by decide)
    by_cases h12 : (root, is) = (12, [])
    · obtain ⟨rfl, rfl⟩ := Prod.mk.inj h12
      have := hword i (hlt i List.mem_cons_self)
      simp [this]
    by_cases h120 : (root, is) = (12, [0])
    · obtain ⟨rfl, rfl⟩ := Prod.mk.inj h120
      exact absurd (show 2 ≤ 1 from hlen) (by decide)
    rw [if_neg h0, if_neg h12, if_neg h120, if_neg (fun e => by cases (Prod.mk.inj e).2),
      if_neg (fun e => by cases (Prod.mk.inj e).2), if_pos rfl]
    refine if_neg (fun e => h12 ?_)
    obtain ⟨rfl, htail⟩ := Prod.mk.inj e
    rw [(List.cons.inj htail).2]
  · have hvalid : ∀ q : Pos, ValidPos q → p ≠ q := fun q hq e => hp (e ▸ hq)
    rw [if_neg (hvalid (0, []) (by decide)), if_neg (hvalid (12, []) (by decide)),
      if_neg (hvalid (12, [0]) (by decide))]

/-- The file is given free in the order 5, 7, 6. -/
theorem itrunc_frees_tree_twoBlocks : Distinct (treePtr twoBlocks.addrs twoBlocksDisk) ∧
    ∃ ip' bc freed, itruncWith freeBlock Ext2Layout.smallSuper 12 twoBlocks
        (⟨twoBlocksDisk, fun _ => none⟩, ⟨{5, 6, 7, 8}, []⟩) =
        .ok (ip', bc, ⟨{5, 6, 7, 8} \ {b | b ≠ 0 ∧ ∃ p, treePtr twoBlocks.addrs twoBlocksDisk p = b},
          [] ++ freed⟩) ∧ freed.Nodup ∧ [7, 6].Sublist freed := by
  have hd : Distinct (treePtr twoBlocks.addrs twoBlocksDisk) := by
    intro p q hp hpq
    rw [twoBlocks_tree] at hp hpq
    dsimp only at hp hpq
    split_ifs at hp hpq <;> simp_all
  have htree := itrunc_frees_tree Ext2Layout.smallSuper 12 twoBlocks
    (⟨twoBlocksDisk, fun _ => none⟩, ⟨{5, 6, 7, 8}, []⟩) (by decide) hd
  obtain ⟨ip', bc, freed, hrun, hnodup, -, horder, -, -⟩ := htree
  refine ⟨hd, ip', bc, freed, hrun, hnodup, ?_⟩
  have h7 : treePtr twoBlocks.addrs twoBlocksDisk (12, [0]) = 7 := by rw [twoBlocks_tree]; decide
  have h6 : treePtr twoBlocks.addrs twoBlocksDisk (12, []) = 6 := by rw [twoBlocks_tree]; decide
  have hpair : [treePtr twoBlocks.addrs twoBlocksDisk (12, [0]),
      treePtr twoBlocks.addrs twoBlocksDisk (12, [])].Sublist freed :=
    horder 12 0 [] (h7.trans_ne (by decide))
  rwa [h7, h6] at hpair

end Ext2Trunc
