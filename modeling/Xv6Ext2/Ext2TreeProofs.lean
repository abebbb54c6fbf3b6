import Mathlib.Data.Finset.Card
import Mathlib.Data.Finset.Range
import Xv6Ext2.Ext2BmapProofs
import Xv6Ext2.OwnershipProofs
import Xv6Ext2.RunsProofs

/-! # The block tree of an ext2 inode

    A position in the tree is a slot of the inode and a list of indices in the indirect blocks under
    it.  `treePtr` is the pointer at a position.  `TreeInv` says that no block stands at two
    positions and that every block with a clear bit in the bitmap block is fresh.

    - `TreeInv.balloc`, `TreeInv.install` : allocating a block and storing its number
      at an empty position change the pointer at this position only;
    - `bmap_follows_map_iff` : where the indices of `ext2fs_bmap` are the digits of the
      format, different blocks of a file have different pointers and different disk
      blocks, in any sequence of calls. -/

namespace Ext2Bmap

open ByteBlock BufCache Outcome Runs Ownership Ext2Alloc Ext2Layout

open Function (update update_of_ne update_self)

/-- A slot of the inode, and the indices below it from the last one back. -/
abbrev Pos := Nat × List Nat

/-- The number of indirect blocks under a slot of the inode. -/
def levels (root : Nat) : Nat := if root < 12 then 0 else root - 11

def ValidPos (p : Pos) : Prop := p.1 < 15 ∧ p.2.length ≤ levels p.1 ∧ ∀ i ∈ p.2, i < 256

instance : DecidablePred ValidPos := fun _ => inferInstanceAs (Decidable (_ ∧ _ ∧ _))

/-- The pointer reached from slot `root`; under a null pointer there are only null pointers. -/
def ptr (addrs : Nat → Nat) (v : Disk) (root : Nat) : List Nat → Nat
  | [] => addrs root
  | i :: is =>
    if ptr addrs v root is = 0 then 0 else getLE (v (ptr addrs v root is)) 4 (4 * i)

/-- The pointers of the tree, by position. -/
def treePtr (addrs : Nat → Nat) (v : Disk) (p : Pos) : Nat :=
  if ValidPos p then ptr addrs v p.1 p.2 else 0

variable {root : Nat} {is : List Nat}

lemma ValidPos.suffix {js : List Nat} (h : ValidPos (root, js ++ is)) : ValidPos (root, is) := by
  obtain ⟨h1, h2, h3⟩ := h
  refine ⟨h1, ?_, fun i hi => h3 i (List.mem_append_right js hi)⟩
  exact Nat.le_trans (by simp) h2

variable {i : Nat}

lemma ValidPos.parent (h : ValidPos (root, i :: is)) : ValidPos (root, is) :=
  ValidPos.suffix (show ValidPos (root, [i] ++ is) from h)

lemma ValidPos.index_lt (h : ValidPos (root, i :: is)) : i < 256 := h.2.2 i List.mem_cons_self

lemma validPos_nil (h : root < 15) : ValidPos (root, []) :=
  ⟨h, Nat.zero_le _, fun _ hi => nomatch hi⟩

lemma validPos_cons (h : ValidPos (root, is))
    (hl : is.length < levels root) (hi : i < 256) : ValidPos (root, i :: is) := by
  refine ⟨h.1, hl, fun j hj => ?_⟩
  rcases List.mem_cons.mp hj with rfl | hj
  · exact hi
  · exact h.2.2 j hj

variable {p : Pos}

variable {addrs : Nat → Nat} {v : Disk}

lemma treePtr_of_valid (h : ValidPos p) : treePtr addrs v p = ptr addrs v p.1 p.2 := if_pos h

lemma treePtr_nil (h : root < 15) :
    treePtr addrs v (root, []) = addrs root := treePtr_of_valid (validPos_nil h)

lemma treePtr_cons (h : ValidPos (root, i :: is)) : treePtr addrs v (root, i :: is) =
      if treePtr addrs v (root, is) = 0 then 0
      else getLE (v (treePtr addrs v (root, is))) 4 (4 * i) := by
  rw [treePtr_of_valid h, treePtr_of_valid h.parent]
  rfl

/-- The tree is the only family of pointers with its two equations. -/
lemma treePtr_unique {own : Pos → Nat} (hnil : ∀ root < 15, own (root, []) = addrs root)
    (hcons : ∀ root i is, ValidPos (root, i :: is) → own (root, i :: is) =
      if own (root, is) = 0 then 0 else getLE (v (own (root, is))) 4 (4 * i))
    (hout : ∀ p, ¬ValidPos p → own p = 0) : treePtr addrs v = own := by
  funext p
  obtain ⟨root, is⟩ := p
  by_cases hv : ValidPos (root, is)
  · induction is with
    | nil => rw [treePtr_nil hv.1, hnil root hv.1]
    | cons i is ih => rw [treePtr_cons hv, hcons root i is hv, ih hv.parent]
  · rw [treePtr, if_neg hv, hout _ hv]

variable {v' : Disk}

lemma treePtr_congr
    (h : ∀ p, treePtr addrs v p ≠ 0 → v' (treePtr addrs v p) = v (treePtr addrs v p)) :
    treePtr addrs v' = treePtr addrs v := by
  refine treePtr_unique (fun root hr => treePtr_nil hr) (fun root i is hv => ?_)
    (fun p hp => if_neg hp)
  rw [treePtr_cons hv]
  by_cases h0 : treePtr addrs v (root, is) = 0
  · rw [if_pos h0, if_pos h0]
  · rw [if_neg h0, if_neg h0, h _ h0]

/-! ## Storing a pointer -/

section Install

variable {addrs : Nat → Nat} {v : Disk} {b : Nat} (hb0 : b ≠ 0)
  (hzero : ∀ i < 256, getLE (v b) 4 (4 * i) = 0)
include hb0 hzero

lemma treePtr_inode (hr : root < 15) (hempty : addrs root = 0) :
    treePtr (update addrs root b) v = update (treePtr addrs v) (root, []) b := by
  refine treePtr_unique (fun r hr' => ?_) (fun r i is hv => ?_) (fun p hp => ?_)
  · by_cases h : r = root
    · rw [h, update_self, update_self]
    · rw [update_of_ne h, update_of_ne (fun e => h (Prod.mk.inj e).1), treePtr_nil hr']
  · have hself : (r, i :: is) ≠ (root, []) := fun e => nomatch (Prod.mk.inj e).2
    rw [update_of_ne hself, treePtr_cons hv]
    by_cases h : (r, is) = (root, [])
    · -- below the new block there is nothing yet
      rw [h, update_self, if_neg hb0, hzero i hv.index_lt, treePtr_nil hr, if_pos hempty]
    · rw [update_of_ne h]
  · have hself : p ≠ (root, []) := fun e => hp (e ▸ validPos_nil hr)
    rw [update_of_ne hself, treePtr, if_neg hp]

lemma treePtr_word {i blk : Nat} (hb : b < 2 ^ 32) (hne : b ≠ blk)
    (hd : Distinct (treePtr addrs v)) (hv : ValidPos (root, i :: is))
    (hblk : treePtr addrs v (root, is) = blk)
    (hblk0 : blk ≠ 0) (hempty : treePtr addrs v (root, i :: is) = 0) : treePtr addrs
        (update v blk (fillBlock (v blk) (putLE (v blk) 4 (4 * i) b))) =
      update (treePtr addrs v) (root, i :: is) b := by
  have hi := hv.index_lt
  refine treePtr_unique (fun r hr => ?_) (fun r j js hj => ?_) (fun p hp => ?_)
  · have hself : (r, []) ≠ (root, i :: is) := fun e => nomatch (Prod.mk.inj e).2
    rw [update_of_ne hself, treePtr_nil hr]
  · have hj' := hj.index_lt
    by_cases hpar : (r, js) = (root, i :: is)
    · -- below the new block there is nothing yet
      have hself : (r, j :: js) ≠ (root, i :: is) := by
        intro e
        obtain ⟨-, h1⟩ := Prod.mk.inj hpar
        obtain ⟨-, h2⟩ := List.cons.inj (Prod.mk.inj e).2
        rw [h1] at h2
        exact absurd (congrArg List.length h2) (by simp)
      rw [update_of_ne hself, hpar, update_self, if_neg hb0,
        update_of_ne hne, hzero j hj', treePtr_cons hj, hpar, if_pos hempty]
    rw [update_of_ne hpar]
    by_cases hx : treePtr addrs v (r, js) = blk
    · -- the block that holds the word stands at one position only
      have hpos : (r, js) = (root, is) := by
        refine hd _ _ (by rw [hx]; exact hblk0) ?_
        rw [hx, hblk]
      obtain ⟨rfl, rfl⟩ := Prod.mk.inj hpos
      rw [hblk, if_neg hblk0, update_self, getLE_fillBlock (by unfold BSIZE; omega)]
      by_cases hji : j = i
      · rw [hji, update_self, getLE_putLE, Nat.mod_eq_of_lt (show b < 256 ^ 4 from hb)]
      · rw [update_of_ne (fun e => hji (List.cons.inj (Prod.mk.inj e).2).1),
          getLE_putLE_of_disjoint (by omega), treePtr_cons hj, hblk, if_neg hblk0]
    · have hself : (r, j :: js) ≠ (root, i :: is) := by
        intro e
        obtain ⟨h1, h2⟩ := Prod.mk.inj e
        obtain ⟨-, h3⟩ := List.cons.inj h2
        exact hx (by rw [h1, h3, hblk])
      rw [update_of_ne hself, update_of_ne hx, treePtr_cons hj]
  · have hself : p ≠ (root, i :: is) := fun e => hp (e ▸ hv)
    rw [update_of_ne hself, treePtr, if_neg hp]

end Install

/-! ## The invariant -/

/-- The tree of inode `inum` shares no block, and a clear bit of the bitmap block stands, in the
    numbering of `ext2fs_balloc`, for a block other than block 0, the descriptors and the blocks of
    the tree. -/
structure TreeInv (sb : Ext2Super) (inum : Nat) (addrs : Nat → Nat) (v : Disk) : Prop where
  distinct  : Distinct (treePtr addrs v)
  bitmap_ne : bitmapOf sb v inum ≠ 2
  off_tree  : ∀ p, treePtr addrs v p ≠ 0 →
    treePtr addrs v p ≠ 2 ∧ treePtr addrs v p ≠ bitmapOf sb v inum
  fresh     : ∀ f < 8 * BSIZE, scanBit (v (bitmapOf sb v inum)) f = false →
    (bitmapOf sb v inum + f) % 2 ^ 32 ≠ 0 ∧ (bitmapOf sb v inum + f) % 2 ^ 32 ≠ 2 ∧
    ∀ p, treePtr addrs v p ≠ (bitmapOf sb v inum + f) % 2 ^ 32

/-- The number of clear bits in the bitmap block of inode `inum`; the memory behind its buffer does
    not count. -/
def freeBits (sb : Ext2Super) (inum : Nat) (v : Disk) : Nat :=
  ((Finset.range (8 * BSIZE)).filter (fun f => scanBit (v (bitmapOf sb v inum)) f = false)).card

/-- The null pointers on the way to a position: the blocks that a call has to allocate. -/
def missing (own : Pos → Nat) (root : Nat) : List Nat → Nat
  | [] => if own (root, []) = 0 then 1 else 0
  | i :: is => missing own root is + if own (root, i :: is) = 0 then 1 else 0

structure NewBlock (sb : Ext2Super) (inum : Nat) (addrs : Nat → Nat) (v : Disk) (b : Nat) :
    Prop where
  ne_zero   : b ≠ 0
  lt        : b < 2 ^ 32
  ne_desc   : b ≠ 2
  ne_bitmap : b ≠ bitmapOf sb v inum
  off_tree  : ∀ p, treePtr addrs v p ≠ b
  zeroed    : ∀ i < 256, getLE (v b) 4 (4 * i) = 0
  taken     : ∀ f < 8 * BSIZE, scanBit (v (bitmapOf sb v inum)) f = false →
    (bitmapOf sb v inum + f) % 2 ^ 32 ≠ b

/-- The bits still clear after bit `f` was set. -/
lemma scanBit_fill_setBit {d : Block} {f g : Nat} (hg : g < 8 * BSIZE) :
    scanBit (fillBlock d (setBit d (scanIdx f))) g = false ↔ g ≠ f ∧ scanBit d g = false := by
  rw [scanBit, blockBit_fillBlock (scanIdx_lt hg), blockBit_setBit, Bool.or_eq_false_iff,
    decide_eq_false_iff_not, and_comm]
  refine and_congr_left (fun _ => not_congr ⟨fun he => ?_, fun he => congrArg scanIdx he.symm⟩)
  rw [← scanIdx_scanIdx g, ← he, scanIdx_scanIdx]

lemma freeBits_pos {sb : Ext2Super} {inum f : Nat} {v : Disk} (h : 0 < freeBits sb inum v)
    (hf : FirstClear (v (bitmapOf sb v inum)) f) : f < 8 * BSIZE := by
  obtain ⟨g, hg⟩ := Finset.card_pos.mp h
  obtain ⟨hlt, hclear⟩ := Finset.mem_filter.mp hg
  by_contra hout
  have hset := hf.before g (by have := Finset.mem_range.mp hlt; omega)
  rw [hclear] at hset
  cases hset

variable {s s' : Bcache}

variable {sb : Ext2Super} {inum b : Nat} {held : List Nat}

lemma TreeInv.balloc (h : TreeInv sb inum addrs s.view) (hroom : 0 < freeBits sb inum s.view)
    (hr : ext2fsBalloc sb held inum s = .ok (b, s')) :
    treePtr addrs s'.view = treePtr addrs s.view ∧ TreeInv sb inum addrs s'.view ∧
      NewBlock sb inum addrs s'.view b ∧
      freeBits sb inum s'.view + 1 = freeBits sb inum s.view := by
  obtain ⟨-, -, -, f, hf, -, hb, hne, -, hs'⟩ := ext2fsBalloc_ok hr
  have hf8 := freeBits_pos hroom hf
  obtain ⟨hb0, hb2, hbt⟩ := h.fresh f hf8 hf.clear
  rw [← hb] at hb0 hb2 hbt
  obtain ⟨hd, h2, hoff, hfresh⟩ := h
  obtain ⟨bb, hbb⟩ : ∃ bb, bb = bitmapOf sb s.view inum := ⟨_, rfl⟩
  rw [← hbb] at hb hne h2 hoff hfresh hs' hf
  have hother : ∀ c, c ≠ bb → c ≠ b → s'.view c = s.view c :=
    fun c h1 h2 => hs' ▸ allocated_view_of_ne hne h1 h2
  have htree : treePtr addrs s'.view = treePtr addrs s.view :=
    treePtr_congr (fun p hp => hother _ (hoff p hp).2 (hbt p))
  have hbit : bitmapOf sb s'.view inum = bb := by
    rw [bitmapOf, hother 2 h2.symm hb2.symm]
    exact hbb.symm
  have hview : s'.view bb = fillBlock (s.view bb) (setBit (s.view bb) (scanIdx f)) := by
    rw [hs', allocated_view s _ hne, update_of_ne hne.symm, update_self]
  refine ⟨htree, ⟨htree ▸ hd, hbit ▸ h2, fun p hp => ?_, fun g hg hclear => ?_⟩,
    ⟨hb0, hb ▸ Nat.mod_lt _ (by decide), hb2, hbit ▸ hne, fun p => htree ▸ hbt p,
      fun i hi => ?_, fun g hg hclear => ?_⟩, ?_⟩
  · rw [htree] at hp ⊢
    rw [hbit]
    exact hoff p hp
  · rw [hbit, hview] at hclear
    rw [hbit, htree]
    exact hfresh g hg ((scanBit_fill_setBit hg).mp hclear).2
  · rw [hs', allocated_view s _ hne, update_self,
      getLE_fillBlock (by unfold BSIZE; omega), getLE_zero (fun _ _ _ => rfl)]
  · rw [hbit, hview] at hclear
    have hgf := ((scanBit_fill_setBit hg).mp hclear).1
    rw [hbit, hb]
    unfold BSIZE at hf8 hg
    omega
  · -- one clear bit less
    have hmem : f ∈ (Finset.range (8 * BSIZE)).filter (fun f => scanBit (s.view bb) f = false) :=
      Finset.mem_filter.mpr ⟨Finset.mem_range.mpr hf8, hf.clear⟩
    rw [freeBits, freeBits, hbit, hview, ← hbb, ← Finset.card_erase_add_one hmem]
    refine congrArg (Finset.card · + 1) (Finset.ext (fun g => ?_))
    rw [Finset.mem_erase, Finset.mem_filter, Finset.mem_filter, and_left_comm]
    exact and_congr_right (fun hg => scanBit_fill_setBit (Finset.mem_range.mp hg))

variable {addrs' : Nat → Nat}

lemma TreeInv.install (h : TreeInv sb inum addrs v) (hnew : NewBlock sb inum addrs v b)
    (htree : treePtr addrs' v' = update (treePtr addrs v) p b) (hdesc : v' 2 = v 2)
    (hbitmap : v' (bitmapOf sb v inum) = v (bitmapOf sb v inum)) : TreeInv sb inum addrs' v' := by
  have hbit : bitmapOf sb v' inum = bitmapOf sb v inum := by
    unfold bitmapOf
    rw [hdesc]
  obtain ⟨hd, h2, hoff, hfresh⟩ := h
  refine ⟨htree ▸ hd.install hnew.off_tree, hbit ▸ h2, fun q hq => ?_, fun f hf hclear => ?_⟩
  · rw [htree] at hq ⊢
    rw [hbit]
    by_cases hqp : q = p
    · rw [hqp, update_self]
      exact ⟨hnew.ne_desc, hnew.ne_bitmap⟩
    · rw [update_of_ne hqp] at hq ⊢
      exact hoff q hq
  · rw [hbit, hbitmap] at hclear
    obtain ⟨hf0, hf2, hft⟩ := hfresh f hf hclear
    rw [hbit]
    refine ⟨hf0, hf2, fun q => ?_⟩
    rw [htree]
    by_cases hqp : q = p
    · rw [hqp, update_self]
      exact Ne.symm (hnew.taken f hf hclear)
    · rw [update_of_ne hqp]
      exact hft q

/-! ## Following pointers -/

lemma missing_pos {own : Pos → Nat} (h : own (root, is) = 0) : ∀ js, 0 < missing own root (js ++ is)
  | [] => by
    cases is with
    | nil => simp [missing, h]
    | cons i is => simp [missing, h]
  | _ :: js => Nat.lt_of_lt_of_le (missing_pos h js) (Nat.le_add_right _ _)

/-- A pointer stored further down is not on the way. -/
lemma missing_update (own : Pos → Nat) (b : Nat) {ks : List Nat} :
    ∀ js, js.length < ks.length → missing (update own (root, ks) b) root js = missing own root js
  | [], h => by
    rw [missing, missing, update_of_ne (fun e => by cases e; cases h)]
  | _ :: js, h => by
    rw [missing, missing, missing_update own b js (by simp at h; omega),
      update_of_ne (fun e => by cases e; exact absurd h (Nat.lt_irrefl _))]

/-- One null pointer less. -/
lemma missing_install {own : Pos → Nat} (h : own (root, is) = 0) (hb : b ≠ 0) :
    ∀ js, missing (update own (root, is) b) root (js ++ is) + 1 = missing own root (js ++ is)
  | [] => by
    cases is with
    | nil => simp [missing, h, hb]
    | cons i is => simp [missing, missing_update own b is, h, hb]
  | j :: js => by
    have hself : (root, j :: (js ++ is)) ≠ (root, is) := fun e => by
      have := congrArg List.length (Prod.mk.inj e).2
      simp at this
      omega
    rw [List.cons_append, missing, missing, update_of_ne hself, ← missing_install h hb js]
    omega

/-- Position `p` now holds `addr`, the pointers that were there are still there, and for what lies
    below `p` there is room if there was. -/
structure Reached (sb : Ext2Super) (inum : Nat) (addrs : Nat → Nat) (v : Disk)
    (addrs' : Nat → Nat) (v' : Disk) (p : Pos) (addr : Nat) : Prop where
  inv     : TreeInv sb inum addrs' v'
  holds   : treePtr addrs' v' p = addr
  ne_zero : addr ≠ 0
  keeps   : ∀ q, treePtr addrs v q ≠ 0 → treePtr addrs' v' q = treePtr addrs v q
  room    : ∀ js, missing (treePtr addrs v) p.1 (js ++ p.2) ≤ freeBits sb inum v →
    missing (treePtr addrs' v') p.1 (js ++ p.2) ≤ freeBits sb inum v'

variable {sb : Ext2Super} {inum : Nat}

lemma Reached.trans {addrs'' : Nat → Nat} {v'' : Disk} {a : Nat} {ks : List Nat}
    (h : Reached sb inum addrs v addrs' v' (root, is) a)
    (h' : Reached sb inum addrs' v' addrs'' v'' (root, ks ++ is) b) :
    Reached sb inum addrs v addrs'' v'' (root, ks ++ is) b := by
  refine ⟨h'.inv, h'.holds, h'.ne_zero, fun r hr => ?_, fun js hjs => h'.room js ?_⟩
  · have hr' := h.keeps r hr
    rw [← hr']
    exact h'.keeps r (by rw [hr']; exact hr)
  · have := h.room (js ++ ks)
    simp only [List.append_assoc] at this
    exact this hjs

/-- A block was allocated and stored at an empty position. -/
lemma Reached.installed (hinv : TreeInv sb inum addrs' v')
    (htree : treePtr addrs' v' = update (treePtr addrs v) (root, is) b) (hb : b ≠ 0)
    (hempty : treePtr addrs v (root, is) = 0)
    (hbits : freeBits sb inum v' + 1 = freeBits sb inum v) :
    Reached sb inum addrs v addrs' v' (root, is) b := by
  refine ⟨hinv, by rw [htree, update_self], hb, fun q hq => ?_, fun js hjs => ?_⟩
  · rw [htree, update_of_held hempty hq]
  · have := missing_install hempty hb js
    rw [htree]
    dsimp only at hjs ⊢
    omega

variable {addr : Nat}

lemma inodeSlot_reached (hi : i < 15) (h : TreeInv sb inum addrs s.view) {js : List Nat}
    (hroom : missing (treePtr addrs s.view) i js ≤ freeBits sb inum s.view)
    (hr : inodeSlot sb inum i addrs s = .ok (addr, addrs', s')) :
    Reached sb inum addrs s.view addrs' s'.view (i, []) addr := by
  rw [inodeSlot] at hr
  split at hr
  · next h0 =>
    obtain ⟨⟨b, s1⟩, hb, hret⟩ := bind_eq_ok.mp hr
    obtain ⟨rfl, hrest⟩ := ok_pair_inj hret
    obtain ⟨rfl, rfl⟩ := Prod.mk.inj hrest
    have hempty : treePtr addrs s.view (i, []) = 0 := (treePtr_nil hi).trans h0
    have hpos := missing_pos hempty js
    rw [List.append_nil] at hpos
    obtain ⟨htree, hinv, hnew, hbits⟩ := h.balloc (by omega) hb
    have hin := treePtr_inode hnew.ne_zero hnew.zeroed hi h0
    exact .installed (hinv.install hnew hin rfl rfl) (htree ▸ hin) hnew.ne_zero hempty hbits
  · next h0 =>
    obtain ⟨rfl, hrest⟩ := ok_pair_inj hr
    obtain ⟨rfl, rfl⟩ := Prod.mk.inj hrest
    exact ⟨h, treePtr_nil hi, h0, fun _ _ => rfl, fun _ => id⟩

lemma wordSlot_reached {blk : Nat} (h : TreeInv sb inum addrs s.view) {js : List Nat}
    (hroom : missing (treePtr addrs s.view) root (js ++ i :: is) ≤ freeBits sb inum s.view)
    (hv : ValidPos (root, i :: is)) (hblk : treePtr addrs s.view (root, is) = blk)
    (hblk0 : blk ≠ 0) (hr : wordSlot sb held inum blk i s = .ok (addr, s')) :
    Reached sb inum addrs s.view addrs s'.view (root, i :: is) addr := by
  obtain ⟨⟨a, s1⟩, h1, hr⟩ := bind_eq_ok.mp hr
  obtain ⟨-, rfl, rfl⟩ := bread_ok h1
  have hword : treePtr addrs s.view (root, i :: is) = getLE (s.view blk) 4 (4 * i) := by
    rw [treePtr_cons hv, hblk, if_neg hblk0]
  dsimp only at hr
  split at hr
  · next h0 =>
    obtain ⟨⟨b, s2⟩, hb, hr⟩ := bind_eq_ok.mp hr
    obtain ⟨rfl, rfl⟩ := ok_pair_inj hr
    have hpos := missing_pos (hword.trans h0) js
    have hfree : 0 < freeBits sb inum s.view := by omega
    rw [← touch_view s blk] at h hfree
    obtain ⟨htree, hinv, hnew, hbits⟩ := h.balloc hfree hb
    rw [touch_view] at htree hbits
    have hblk2 : treePtr addrs s2.view (root, is) = blk := by rw [htree, hblk]
    have hempty : treePtr addrs s2.view (root, i :: is) = 0 := by rw [htree, hword, h0]
    have hne : b ≠ blk := fun e => hnew.off_tree (root, is) (hblk2.trans e.symm)
    have hin := treePtr_word hnew.ne_zero hnew.zeroed hnew.lt hne hinv.distinct
      hv hblk2 hblk0 hempty
    obtain ⟨hblkD, hblkB⟩ := hinv.off_tree (root, is) (by rw [hblk2]; exact hblk0)
    rw [hblk2] at hblkD hblkB
    rw [← bput_view] at hin
    have hdesc : (bput blk (putLE (s2.view blk) 4 (4 * i) b) s2).view 2 = s2.view 2 := by
      rw [bput_view, update_of_ne hblkD.symm]
    have hbitmap : (bput blk (putLE (s2.view blk) 4 (4 * i) b) s2).view (bitmapOf sb s2.view inum) =
        s2.view (bitmapOf sb s2.view inum) := by
      rw [bput_view, update_of_ne hblkB.symm]
    refine .installed (hinv.install hnew hin hdesc hbitmap) (htree ▸ hin) hnew.ne_zero
      (hword.trans h0) ?_
    rw [← hbits, freeBits, freeBits, bitmapOf, hdesc]
    exact congrArg (fun d => (Finset.filter (fun f => scanBit d f = false) _).card + 1) hbitmap
  · next h0 =>
    obtain ⟨rfl, rfl⟩ := ok_pair_inj hr
    rw [touch_view]
    exact ⟨h, hword, h0, fun _ _ => rfl, fun _ => id⟩

lemma followWords_reached : ∀ (js is held : List Nat) (blk addr : Nat) (s s' : Bcache),
      TreeInv sb inum addrs s.view → ValidPos (root, js.reverse ++ is) →
      missing (treePtr addrs s.view) root (js.reverse ++ is) ≤ freeBits sb inum s.view →
      treePtr addrs s.view (root, is) = blk → blk ≠ 0 →
      followWords sb inum js held blk s = .ok (addr, s') →
      Reached sb inum addrs s.view addrs s'.view (root, js.reverse ++ is) addr := by
  intro js
  induction js with
  | nil =>
    intro is held blk addr s s' h hv _ hblk hblk0 hr
    obtain ⟨rfl, rfl⟩ := ok_pair_inj hr
    exact ⟨h, hblk, hblk0, fun _ _ => rfl, fun _ => id⟩
  | cons j js ih =>
    intro is held blk addr s s' h hv hroom hblk hblk0 hr
    obtain ⟨⟨b, s1⟩, h1, hr⟩ := bind_eq_ok.mp hr
    rw [List.reverse_cons, List.append_assoc] at hv hroom ⊢
    have hreach := wordSlot_reached h hroom (ValidPos.suffix hv) hblk hblk0 h1
    exact hreach.trans (ih (j :: is) (blk :: held) b addr s1 s' hreach.inv hv
      (hreach.room _ hroom) hreach.holds hreach.ne_zero hr)

/-! ## Calls of `ext2fs_bmap` -/

/-- The position of block `bn` of a file, in the format. -/
def posOf (bn : Nat) : Pos :=
  match ext2Path bn with
  | some (root, is) => (root, is.reverse)
  | none => (EXT2_N_BLOCKS, [])

variable {bn : Nat}

lemma ext2Path_valid (hbn : bn < EXT2_MAXFILE) :
    ∃ root is, ext2Path bn = some (root, is) ∧ ValidPos (root, is.reverse) := by
  have hmax : bn < 16843020 := hbn
  rw [ext2Path]
  split
  · exact ⟨_, _, rfl, validPos_nil (by omega)⟩
  split
  · next h2 =>
    exact ⟨_, _, rfl, validPos_cons (validPos_nil (by decide)) (by decide) h2⟩
  by_cases h3 : bn - 268 < 256 ^ 2
  · rw [if_pos h3]
    exact ⟨_, _, rfl, validPos_cons (validPos_cons (validPos_nil (by decide))
      (by decide) (by omega)) (show 1 < 2 by decide) (Nat.mod_lt _ (by decide))⟩
  have h4 : bn - 65804 < 256 ^ 3 := by omega
  rw [if_neg h3, if_pos h4]
  exact ⟨_, _, rfl, validPos_cons (validPos_cons (validPos_cons
    (validPos_nil (by decide)) (by decide) (by omega)) (show 1 < 3 by decide)
    (Nat.mod_lt _ (by decide))) (show 2 < 3 by decide) (Nat.mod_lt _ (by decide))⟩

/-- Different numbers have different digits. -/
lemma posOf_injective {bn' : Nat} (h : bn < EXT2_MAXFILE) (h' : bn' < EXT2_MAXFILE)
    (he : posOf bn = posOf bn') : bn = bn' := by
  have hmax : bn < 16843020 := h
  have hmax' : bn' < 16843020 := h'
  obtain ⟨root, is, hp, -⟩ := ext2Path_valid h
  obtain ⟨root', is', hp', -⟩ := ext2Path_valid h'
  rw [posOf, hp, posOf, hp'] at he
  obtain ⟨rfl, hrev⟩ := Prod.mk.inj he
  obtain rfl := List.reverse_inj.mp hrev
  rw [← hp', ext2Path, ext2Path] at hp
  split_ifs at hp <;>
    simp only [Option.some.injEq, Prod.mk.injEq, List.cons.injEq, and_true, true_and,
      reduceCtorEq, and_false] at hp <;> omega

/-- The bitmap block has a clear bit for each block that a call for block `bn` has to allocate. -/
def Room (sb : Ext2Super) (inum : Nat) (addrs : Nat → Nat) (v : Disk) (bn : Nat) : Prop :=
  missing (treePtr addrs v) (posOf bn).1 (posOf bn).2 ≤ freeBits sb inum v

lemma ext2fsBmap_reached
    (hbn : bn < EXT2_MAXFILE) (hdig : DigitsAgree bn) (h : TreeInv sb inum addrs s.view)
    (hroom : Room sb inum addrs s.view bn)
    (hr : ext2fsBmap sb inum bn addrs s = .ok (addr, addrs', s')) :
    Reached sb inum addrs s.view addrs' s'.view (posOf bn) addr := by
  obtain ⟨root, is, hp, hv⟩ := ext2Path_valid hbn
  rw [ext2fsBmap_eq_followPath, (bmapPath_eq_ext2Path_iff hbn).mpr hdig, hp] at hr
  obtain ⟨⟨blk, addrs1, s1⟩, h1, hr⟩ := bind_eq_ok.mp hr
  obtain ⟨⟨b, s2⟩, h2, hret⟩ := bind_eq_ok.mp hr
  obtain ⟨rfl, hrest⟩ := ok_pair_inj hret
  obtain ⟨rfl, rfl⟩ := Prod.mk.inj hrest
  rw [Room, posOf, hp] at hroom
  have hslot := inodeSlot_reached hv.1 h hroom h1
  have hwords := followWords_reached is [] [] blk b s1 s2 hslot.inv (by simpa using hv)
    (hslot.room _ (by simpa using hroom)) hslot.holds hslot.ne_zero h2
  have htrans := hslot.trans hwords
  rw [List.append_nil] at htrans
  rwa [posOf, hp]

/-- Where the leaf pointer of a block stands. -/
inductive Slot where
  | inode (i : Nat)
  | word (blk i : Nat)
  deriving DecidableEq

/-- The leaf pointer that the code's indices select for block `bn`. -/
def leafSlot (addrs : Nat → Nat) (v : Disk) (bn : Nat) : Option Slot :=
  match bmapPath bn with
  | none => none
  | some (root, is) =>
    match is.reverse with
    | [] => some (.inode root)
    | i :: js => some (.word (ptr addrs v root js) i)

/-- In a tree without shared blocks the leaf pointers of different blocks are different. -/
lemma leafSlot_injective {bn' : Nat}
    (hd : Distinct (treePtr addrs v)) (h : bn < EXT2_MAXFILE) (h' : bn' < EXT2_MAXFILE)
    (hdig : DigitsAgree bn) (hdig' : DigitsAgree bn') (hheld : treePtr addrs v (posOf bn) ≠ 0)
    (he : leafSlot addrs v bn = leafSlot addrs v bn') : bn = bn' := by
  refine posOf_injective h h' ?_
  obtain ⟨root, is, hp, hv⟩ := ext2Path_valid h
  obtain ⟨root', is', hp', hv'⟩ := ext2Path_valid h'
  rw [leafSlot, (bmapPath_eq_ext2Path_iff h).mpr hdig, hp, leafSlot,
    (bmapPath_eq_ext2Path_iff h').mpr hdig', hp'] at he
  rw [posOf, hp] at hheld ⊢
  rw [posOf, hp']
  obtain ⟨js, hjs⟩ : ∃ js, js = is.reverse := ⟨_, rfl⟩
  obtain ⟨js', hjs'⟩ : ∃ js', js' = is'.reverse := ⟨_, rfl⟩
  dsimp only at he hheld ⊢
  rw [← hjs] at he hheld hv ⊢
  rw [← hjs'] at he hv' ⊢
  cases js with
  | nil =>
    cases js' with
    | nil =>
      obtain rfl := Slot.inode.inj (Option.some.inj he)
      rfl
    | cons i' is' => exact nomatch he
  | cons i is =>
    cases js' with
    | nil => exact nomatch he
    | cons i' is' =>
      obtain ⟨hblk, rfl⟩ := Slot.word.inj (Option.some.inj he)
      -- the two indirect blocks are one block, so they stand at one position
      have hpar : treePtr addrs v (root, is) ≠ 0 := by
        intro h0
        rw [treePtr_cons hv, if_pos h0] at hheld
        exact hheld rfl
      have hpos : (root, is) = (root', is') := by
        refine hd _ _ hpar ?_
        rwa [treePtr_of_valid hv.parent, treePtr_of_valid hv'.parent]
      obtain ⟨rfl, rfl⟩ := Prod.mk.inj hpos
      rfl

/-- The tree and what the calls so far have returned. -/
structure BmapState where
  addrs : Nat → Nat
  bc    : Bcache
  got   : List (Nat × Nat)

def bmapStep (sb : Ext2Super) (inum : Nat) (t : BmapState) (bn : Nat) :
    Except Err BmapState := do
  let (addr, addrs, bc) ← ext2fsBmap sb inum bn t.addrs t.bc
  .ok ⟨addrs, bc, (bn, addr) :: t.got⟩

/-- The tree still holds everything that was returned. -/
structure BmapInv (sb : Ext2Super) (inum : Nat) (t : BmapState) : Prop where
  tree : TreeInv sb inum t.addrs t.bc.view
  got  : ∀ r ∈ t.got, r.1 < EXT2_MAXFILE ∧ DigitsAgree r.1 ∧ r.2 ≠ 0 ∧
    treePtr t.addrs t.bc.view (posOf r.1) = r.2

lemma bmapInv_step (t : BmapState) (bn : Nat) (t' : BmapState) (h : BmapInv sb inum t)
    (hbn : bn < EXT2_MAXFILE ∧ DigitsAgree bn ∧ Room sb inum t.addrs t.bc.view bn)
    (hr : bmapStep sb inum t bn = .ok t') : BmapInv sb inum t' := by
  obtain ⟨⟨addr, addrs, bc⟩, h1, hr⟩ := bind_eq_ok.mp hr
  obtain rfl := Except.ok.inj hr
  have hreach := ext2fsBmap_reached hbn.1 hbn.2.1 h.tree hbn.2.2 h1
  refine ⟨hreach.inv, fun r hr => ?_⟩
  rcases List.mem_cons.mp hr with rfl | hr
  · exact ⟨hbn.1, hbn.2.1, hreach.ne_zero, hreach.holds⟩
  obtain ⟨h1, h2, h3, h4⟩ := h.got r hr
  refine ⟨h1, h2, h3, ?_⟩
  rw [hreach.keeps _ (by rw [h4]; exact h3), h4]

/-- **Main result.**  `ext2fs_bmap` uses the indices of `bmapPath`, and these are the digits of the
    format exactly for the numbers of `DigitsAgree`.  In any sequence of calls on such numbers that
    find clear bits in the bitmap block, from a tree without shared blocks where these bits stand
    for fresh blocks, different blocks of the file have different leaf pointers and disk blocks. -/
theorem bmap_follows_map_iff (sb : Ext2Super) (inum : Nat) :
    (∀ (bn : Nat) (addrs : Nat → Nat) (s : Bcache),
      ext2fsBmap sb inum bn addrs s = followPath sb inum (bmapPath bn) addrs s) ∧
    (∀ bn < EXT2_MAXFILE, bmapPath bn = ext2Path bn ↔ DigitsAgree bn) ∧
    ∀ (bns : List Nat) (t u : BmapState), t.got = [] → TreeInv sb inum t.addrs t.bc.view →
      AllSteps (bmapStep sb inum) (fun t bn => bn < EXT2_MAXFILE ∧ DigitsAgree bn ∧
        Room sb inum t.addrs t.bc.view bn) bns t → exec (bmapStep sb inum) bns t = .ok u →
      ∀ r ∈ u.got, ∀ r' ∈ u.got, r.1 ≠ r'.1 →
        r.2 ≠ r'.2 ∧ leafSlot u.addrs u.bc.view r.1 ≠ leafSlot u.addrs u.bc.view r'.1 := by
  refine ⟨ext2fsBmap_eq_followPath sb inum, fun bn hbn => bmapPath_eq_ext2Path_iff hbn,
    fun bns t u hgot htree hbns hr r hmem r' hmem' hne => ?_⟩
  have ht : BmapInv sb inum t := ⟨htree, fun r hr => nomatch (hgot ▸ hr : r ∈ [])⟩
  have hu := exec_invariant bmapInv_step bns t u ht hbns hr
  obtain ⟨h1, h2, h3, h4⟩ := hu.got r hmem
  obtain ⟨h1', h2', h3', h4'⟩ := hu.got r' hmem'
  refine ⟨fun e => hne ?_, fun e => hne ?_⟩
  · refine posOf_injective h1 h1' (hu.tree.distinct _ _ (by rw [h4]; exact h3) ?_)
    rw [h4, h4', e]
  · exact leafSlot_injective hu.tree.distinct h1 h1' h2 h2' (by rw [h4]; exact h3) e

/-- An empty file on an image whose bitmap is block 4: blocks 12 to 8195 of the allocator's
    numbering are free. -/
def emptyTree : BmapState where
  addrs := fun _ => 0
  bc    := ⟨fun b k => if b = 2 ∧ k = 0 then 4 else if b = 4 ∧ k = 0 then 255 else 0, fun _ => none⟩
  got   := []

lemma emptyTree_inv : TreeInv smallSuper 1 emptyTree.addrs emptyTree.bc.view := by
  have hnull : ∀ p, treePtr emptyTree.addrs emptyTree.bc.view p = 0 := by
    refine congrFun (treePtr_unique (fun _ _ => rfl) (fun _ _ _ _ => rfl) (fun _ _ => rfl))
  have hbb : bitmapOf smallSuper emptyTree.bc.view 1 = 4 := by decide
  refine ⟨fun p q hp => absurd (hnull p) hp, by decide, fun p hp => absurd (hnull p) hp,
    fun f hf8 hclear => ?_⟩
  rw [hbb] at hclear ⊢
  have hne0 : 8 ≤ f := by
    by_contra hlt
    have : ∀ g < 8, scanBit (emptyTree.bc.view 4) g = true := by decide
    rw [this f (by omega)] at hclear
    exact nomatch hclear
  unfold BSIZE at *
  exact ⟨by omega, by omega, fun p => by rw [hnull p]; omega⟩

lemma missing_le (own : Pos → Nat) (root : Nat) : ∀ is, missing own root is ≤ is.length + 1
  | [] => by rw [missing]; split <;> simp
  | i :: is => by
    have := missing_le own root is
    rw [missing, List.length_cons]
    split <;> omega

lemma room_of_clear {addrs : Nat → Nat} {v : Disk} (hlen : (posOf bn).2.length ≤ 1)
    (hclear : ∀ f ∈ [100, 101], scanBit (v (bitmapOf sb v inum)) f = false) :
    Room sb inum addrs v bn := by
  have hsub : ({100, 101} : Finset Nat) ⊆ (Finset.range (8 * BSIZE)).filter
      (fun f => scanBit (v (bitmapOf sb v inum)) f = false) := by
    intro f hf
    have hmem : f = 100 ∨ f = 101 := by simpa using hf
    refine Finset.mem_filter.mpr ⟨Finset.mem_range.mpr ?_, hclear f (by simpa using hmem)⟩
    unfold BSIZE
    omega
  exact (missing_le _ _ _).trans ((Nat.succ_le_succ hlen).trans (Finset.card_le_card hsub))

/-- The first blocks of the direct and of the indirect range, one call after the other. -/
theorem bmap_follows_map_iff_emptyTree :
    ∃ u, exec (bmapStep smallSuper 1) [0, 12] emptyTree = .ok u ∧ u.got = [(12, 14), (0, 12)] ∧
      leafSlot u.addrs u.bc.view 12 ≠ leafSlot u.addrs u.bc.view 0 := by
  obtain ⟨u, hu, hgot⟩ : ∃ u, exec (bmapStep smallSuper 1) [0, 12] emptyTree = .ok u ∧
      u.got = [(12, 14), (0, 12)] := ⟨_, rfl, by decide⟩
  refine ⟨u, hu, hgot, ?_⟩
  have h := (bmap_follows_map_iff smallSuper 1).2.2 [0, 12] emptyTree u rfl emptyTree_inv
    ⟨⟨by decide, .inl (by decide), room_of_clear (by decide) (by decide)⟩,
      ⟨by decide, .inl (by decide), room_of_clear (by decide) (by decide)⟩, trivial⟩ hu
  exact (h (12, 14) (by rw [hgot]; simp) (0, 12) (by rw [hgot]; simp) (by decide)).2

/-! ## Two blocks with one pointer -/

/-- The pointers of an inode whose double indirect block is block 20. -/
def doubleAddrs (i : Nat) : Nat := if i = 13 then 20 else 0

/-- Block 20 points to block 21, whose first pointer is block 22. -/
def doubleDisk : Disk := fun b k =>
  if k = 0 then if b = 20 then 21 else if b = 21 then 22 else 0 else 0

/-- Blocks 268 and 269 of the file are the first two of the double indirect range; the
    format puts the pointer of block 269 into the second word of block 21, which is
    null, and `ext2fs_bmap` returns block 22 for both. -/
theorem bmap_shares_leaf :
    (∃ r, ext2fsBmap smallSuper 1 268 doubleAddrs ⟨doubleDisk, fun _ => none⟩ = .ok r ∧ r.1 = 22) ∧
    (∃ r, ext2fsBmap smallSuper 1 269 doubleAddrs ⟨doubleDisk, fun _ => none⟩ = .ok r ∧ r.1 = 22) ∧
    leafSlot doubleAddrs doubleDisk 268 = leafSlot doubleAddrs doubleDisk 269 ∧
    treePtr doubleAddrs doubleDisk (posOf 269) = 0 ∧ bmapPath 269 ≠ ext2Path 269 := by
  refine ⟨⟨_, rfl, by decide⟩, ⟨_, rfl, by decide⟩, by decide, by decide, by decide⟩

end Ext2Bmap
