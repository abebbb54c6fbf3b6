import Xv6Ext2.Ext2RecordsProofs

/-! # Reads and writes of ext2 files (ext2fs.c)

    `ext2fs_readi` finds its blocks with `ext2fs_bmap`, which allocates the ones that are
    missing; `ext2fs_writei` refuses a range that ends behind `EXT2_MAXFILE * EXT2_BSIZE`,
    a product of 32 bits.

    - `readi_pure_iff` : a read changes nothing, and gives zeros for holes, exactly if every
      block of the range has all its pointers where the code looks for them, and a hole of
      the format reads as zeros there;
    - `writei_refuses_iff` : a write of a range that the block map can address is refused
      exactly if it ends behind 67383296 bytes. -/

namespace Ext2Io

open ByteBlock BufCache Outcome FileIo Ext2Alloc Ext2Bmap Ext2Inode Ext2Stored Ext2Dir

/-! ## A block that was allocated stays marked -/

/-- The bitmap that serves inode `inum` lies behind the descriptors, and no number that the scan
    can give reaches around to them. -/
structure BitmapApart (sb : Ext2Super) (inum : Nat) (v : Disk) : Prop where
  desc  : 2 < bitmapOf sb v inum
  range : bitmapOf sb v inum + scanLimit sb ≤ 2 ^ 32

/-- The bitmap block `bb` itself has a clear bit; the memory behind its buffer does not count. -/
def FreeBit (bb : Nat) (v : Disk) : Prop := ∃ f < 8 * BSIZE, scanBit (v bb) f = false

/-- From `v` on the descriptors stayed and no bit of the bitmap `bb` was cleared. -/
structure Grown (bb : Nat) (v v' : Disk) : Prop where
  desc : v' 2 = v 2
  bits : ∀ f, scanBit (v bb) f = true → scanBit (v' bb) f = true

lemma Grown.refl (bb : Nat) (v : Disk) : Grown bb v v := ⟨rfl, fun _ h => h⟩

variable {bb : Nat} {v v' v'' : Disk}

lemma Grown.trans (h : Grown bb v v') (h' : Grown bb v' v'') : Grown bb v v'' :=
  ⟨h'.desc.trans h.desc, fun f hf => h'.bits f (h.bits f hf)⟩

/-- A bit of the bitmap `bb` was set. -/
def Marked (bb : Nat) (v v' : Disk) : Prop :=
  ∃ f, scanBit (v bb) f = false ∧ scanBit (v' bb) f = true

lemma Marked.ne (h : Marked bb v v') : v' ≠ v := by
  rintro rfl
  obtain ⟨f, h1, h2⟩ := h
  rw [h1] at h2
  cases h2

lemma Grown.marked (h : Grown bb v' v'') (hm : Marked bb v v') : Marked bb v v'' := by
  obtain ⟨f, h1, h2⟩ := hm
  exact ⟨f, h1, h.bits f h2⟩

lemma Marked.of_grown (h : Grown bb v v') (hm : Marked bb v' v'') : Marked bb v v'' := by
  obtain ⟨f, h1, h2⟩ := hm
  refine ⟨f, ?_, h2⟩
  by_contra hset
  rw [h.bits f (Bool.not_eq_false _ ▸ hset)] at h1
  cases h1

section Steps

variable {sb : Ext2Super} {inum : Nat} {v₀ : Disk}

/-- What a call may do: it keeps the bits, and it changes nothing or sets one, if there is one. -/
structure Effect (sb : Ext2Super) (inum : Nat) (v₀ v v' : Disk) (same : Prop) : Prop where
  grown : Grown (bitmapOf sb v₀ inum) v v'
  cases : (v' = v ∧ same) ∨
    (FreeBit (bitmapOf sb v₀ inum) v → Marked (bitmapOf sb v₀ inum) v v')

lemma Effect.same {same : Prop} (h : same) : Effect sb inum v₀ v v same :=
  ⟨Grown.refl _ v, .inl ⟨rfl, h⟩⟩

/-- Two calls one after the other. -/
lemma Effect.trans {p q r : Prop} (h : Effect sb inum v₀ v v' p)
    (h' : Effect sb inum v₀ v' v'' q) (hr : v' = v → p → q → r) : Effect sb inum v₀ v v'' r := by
  refine ⟨h.grown.trans h'.grown, ?_⟩
  rcases h.cases with ⟨hv, hp⟩ | hm
  · rcases h'.cases with ⟨hv', hq⟩ | hm
    · exact .inl ⟨hv'.trans hv, hr hv hp hq⟩
    · exact .inr (fun hfree => (hm (hv ▸ hfree)).of_grown h.grown)
  · exact .inr (fun hfree => h'.grown.marked (hm hfree))

variable (hb : BitmapApart sb inum v₀)
include hb

variable {s s' : Bcache}

variable {held : List Nat} {b : Nat}

/-- `ext2fs_balloc` sets a bit, and the pointer that is stored afterwards is not in the
    bitmap or the descriptors: their buffers would have been locked. -/
lemma balloc_effect (h0 : Grown (bitmapOf sb v₀ inum) v₀ s.view)
    (h : ext2fsBalloc sb held inum s = .ok (b, s')) : Grown (bitmapOf sb v₀ inum) s.view s'.view ∧
      (FreeBit (bitmapOf sb v₀ inum) s.view → Marked (bitmapOf sb v₀ inum) s.view s'.view) ∧
      2 ∉ held ∧ bitmapOf sb v₀ inum ∉ held := by
  have hbb : bitmapOf sb s.view inum = bitmapOf sb v₀ inum := by rw [bitmapOf, h0.desc, bitmapOf]
  obtain ⟨-, h2, hB, f, hf, hlim, hnum, hne, -, hs'⟩ := ext2fsBalloc_ok h
  rw [hbb] at hB hf hnum hne hs'
  have hdesc := hb.desc
  have hb2 : b ≠ 2 := by
    have := hb.range
    omega
  have hview := allocated_view s (setBit (s.view (bitmapOf sb v₀ inum)) (scanIdx f)) hne
  rw [← hs'] at hview
  have hbits : s'.view (bitmapOf sb v₀ inum) = fillBlock (s.view (bitmapOf sb v₀ inum))
      (setBit (s.view (bitmapOf sb v₀ inum)) (scanIdx f)) := by
    rw [hview, Function.update_of_ne hne.symm, Function.update_self]
  refine ⟨⟨?_, fun g hg => ?_⟩, fun ⟨g, hg, hclear⟩ => ⟨f, hf.clear, ?_⟩, h2, hB⟩
  · rw [hview, Function.update_of_ne hb2.symm, Function.update_of_ne (by omega)]
  · rw [hbits]
    by_contra hset
    rw [scanBit_fill_setBit_clear (Bool.not_eq_true _ ▸ hset)] at hg
    cases hg
  · -- the scan stops in the block
    have hin : f < 8 * BSIZE := by
      by_contra hout
      rw [hf.before g (by omega)] at hclear
      cases hclear
    rw [hbits, scanBit, blockBit_fillBlock (scanIdx_lt hin), blockBit_setBit]
    simp

lemma inodeSlot_effect {i addr : Nat} {addrs addrs' : Nat → Nat}
    (h0 : Grown (bitmapOf sb v₀ inum) v₀ s.view)
    (h : inodeSlot sb inum i addrs s = .ok (addr, addrs', s')) :
    Effect sb inum v₀ s.view s'.view (addrs i ≠ 0 ∧ addr = addrs i ∧ addrs' = addrs) := by
  rw [inodeSlot] at h
  split at h
  · obtain ⟨⟨b, s₁⟩, h₁, h⟩ := bind_eq_ok.mp h
    obtain ⟨-, -, rfl⟩ := ok_triple_inj h
    obtain ⟨hgrown, hm, -⟩ := balloc_effect hb h0 h₁
    exact ⟨hgrown, .inr hm⟩
  · next hi =>
    obtain ⟨rfl, rfl, rfl⟩ := ok_triple_inj h
    exact Effect.same ⟨hi, rfl, rfl⟩

lemma wordSlot_effect {blk i addr : Nat} (h0 : Grown (bitmapOf sb v₀ inum) v₀ s.view)
    (h : wordSlot sb held inum blk i s = .ok (addr, s')) : Effect sb inum v₀ s.view s'.view
      (blk ∉ held ∧ getLE (s.view blk) 4 (4 * i) ≠ 0 ∧ addr = getLE (s.view blk) 4 (4 * i)) := by
  obtain ⟨⟨a, s₁⟩, h₁, h⟩ := bind_eq_ok.mp h
  obtain ⟨hheld, rfl, rfl⟩ := bread_ok h₁
  dsimp only at h
  split at h
  · obtain ⟨⟨b, s₂⟩, h₂, h⟩ := bind_eq_ok.mp h
    obtain ⟨-, rfl⟩ := ok_pair_inj h
    obtain ⟨hgrown, hm, h2, hB⟩ := balloc_effect hb (by rw [touch_view]; exact h0) h₂
    rw [touch_view] at hgrown hm
    -- the index block is none of the two
    have hne2 : 2 ≠ blk := fun e => h2 (e ▸ List.mem_cons_self)
    have hneB : bitmapOf sb v₀ inum ≠ blk := fun e => hB (e ▸ List.mem_cons_self)
    have hput : Grown (bitmapOf sb v₀ inum) s₂.view
        (bput blk (putLE (s₂.view blk) 4 (4 * i) b) s₂).view := by
      rw [bput_view]
      refine ⟨Function.update_of_ne hne2 .., fun f hf => ?_⟩
      rwa [Function.update_of_ne hneB]
    exact ⟨hgrown.trans hput, .inr (fun hfree => hput.marked (hm hfree))⟩
  · next hi =>
    obtain ⟨rfl, rfl⟩ := ok_pair_inj h
    rw [touch_view]
    exact Effect.same ⟨hheld, hi, rfl⟩

lemma followWords_effect {is : List Nat} : ∀ {held : List Nat} {blk addr : Nat} {s s' : Bcache},
    Grown (bitmapOf sb v₀ inum) v₀ s.view → followWords sb inum is held blk s = .ok (addr, s') →
    Effect sb inum v₀ s.view s'.view (blk ≠ 0 → leafOf s.view blk is ≠ 0 ∧
      (∀ b ∈ innerOf s.view blk is, b ≠ 0 ∧ b ∉ held) ∧ (innerOf s.view blk is).Nodup) := by
  induction is with
  | nil =>
    intro held blk addr s s' _ h
    obtain ⟨-, rfl⟩ := ok_pair_inj h
    exact Effect.same (fun hblk =>
      ⟨hblk, fun b hb => absurd hb List.not_mem_nil, List.nodup_nil⟩)
  | cons i is ih =>
    intro held blk addr s s' h0 h
    obtain ⟨⟨b, s₁⟩, h₁, h⟩ := bind_eq_ok.mp h
    have heff := wordSlot_effect hb h0 h₁
    refine heff.trans (ih (h0.trans heff.grown) h) ?_
    rintro hv ⟨hheld, hword, rfl⟩ hrest hblk
    rw [hv] at hrest
    obtain ⟨hleaf, hin, hnodup⟩ := hrest hword
    refine ⟨hleaf, fun c hc => ?_, List.nodup_cons.mpr ⟨fun hmem => ?_, hnodup⟩⟩
    · rcases List.mem_cons.mp hc with rfl | hc
      · exact ⟨hblk, hheld⟩
      · exact ⟨(hin c hc).1, fun hmem => (hin c hc).2 (List.mem_cons_of_mem blk hmem)⟩
    · exact (hin blk hmem).2 List.mem_cons_self

lemma bmap_effect {bn : Nat} {ip ip' : Dinode} (h0 : Grown (bitmapOf sb v₀ inum) v₀ s.view)
    (h : inodeBmap sb inum ip bn s = .ok (b, ip', s')) :
    Effect sb inum v₀ s.view s'.view (Reach ip.addrs s.view bn ∧ ip' = ip) := by
  obtain ⟨⟨addr, addrs, s₁⟩, h₁, h⟩ := bind_eq_ok.mp h
  obtain ⟨rfl, rfl, rfl⟩ := ok_triple_inj h
  rw [ext2fsBmap_eq_followPath] at h₁
  cases hp : bmapPath bn with
  | none =>
    rw [hp] at h₁
    cases h₁
  | some p =>
    obtain ⟨root, is⟩ := p
    rw [hp] at h₁
    obtain ⟨⟨blk, addrs₁, s₂⟩, h₂, h₁⟩ := bind_eq_ok.mp h₁
    obtain ⟨⟨leaf, s₃⟩, h₃, h₁⟩ := bind_eq_ok.mp h₁
    obtain ⟨rfl, rfl, rfl⟩ := ok_triple_inj h₁
    have heff := inodeSlot_effect hb h0 h₂
    refine heff.trans (followWords_effect hb (h0.trans heff.grown) h₃) ?_
    rintro hv ⟨hroot, rfl, rfl⟩ hrest
    rw [hv] at hrest
    obtain ⟨hleaf, hin, hnodup⟩ := hrest hroot
    refine ⟨⟨⟨?_, ?_⟩, ?_⟩, rfl⟩
    · rwa [bmapLeaf, hp]
    · rw [bmapInner, hp]
      exact fun c hc => (hin c hc).1
    · rwa [bmapInner, hp]

/-- The loop of `ext2fs_readi`: it has set a bit, or it has found all its blocks. -/
lemma readLoop_effect (fuel : Nat) : ∀ {ip ip' : Dinode} {off r : Nat} {bytes : List UInt8}
    {s s' : Bcache}, Grown (bitmapOf sb v₀ inum) v₀ s.view → r ≤ fuel →
    readLoop (inodeBmap sb inum) fuel ip off r s = .ok (bytes, ip', s') →
    Effect sb inum v₀ s.view s'.view
      (∀ k, off ≤ k → k < off + r → Reach ip.addrs s.view (k / BSIZE)) := by
  induction fuel with
  | zero =>
    intro ip ip' off r bytes s s' _ hr h
    obtain ⟨-, -, rfl⟩ := ok_triple_inj h
    exact Effect.same (fun k _ _ => by omega)
  | succ fuel ih =>
    intro ip ip' off r bytes s s' h0 hr h
    rw [readLoop] at h
    by_cases hr0 : r = 0
    · rw [if_pos hr0] at h
      obtain ⟨-, -, rfl⟩ := ok_triple_inj h
      exact Effect.same (fun k _ _ => by omega)
    rw [if_neg hr0] at h
    obtain ⟨⟨b, ip₁, s₁⟩, h₁, h⟩ := bind_eq_ok.mp h
    obtain ⟨⟨d, s₂⟩, h₂, h⟩ := bind_eq_ok.mp h
    obtain ⟨-, -, rfl⟩ := bread_ok h₂
    obtain ⟨⟨rest, ip₃, s₃⟩, h₃, h⟩ := bind_eq_ok.mp h
    obtain ⟨-, -, rfl⟩ := ok_triple_inj h
    have heff := bmap_effect hb h0 h₁
    have hrest := ih (by rw [touch_view]; exact h0.trans heff.grown)
      (by unfold BSIZE at *; omega) h₃
    rw [touch_view] at hrest
    refine heff.trans hrest ?_
    rintro hv ⟨hreach, rfl⟩ hall k hk1 hk2
    rw [hv] at hall
    -- the bytes of the first turn are in one block
    by_cases hfirst : k / BSIZE = off / BSIZE
    · rwa [hfirst]
    · exact hall k (by unfold BSIZE at *; omega) (by unfold BSIZE at *; omega)

end Steps

/-! ## Reading -/

/-- A hole of the file: a pointer of the format on the way to block `bn` is null. -/
def Hole (addrs : Nat → Nat) (v : Disk) (bn : Nat) : Prop :=
  match ext2Path bn with
  | some (root, is) => leafOf v (addrs root) is = 0 ∨ 0 ∈ innerOf v (addrs root) is
  | none => True

instance (addrs : Nat → Nat) (v : Disk) (bn : Nat) : Decidable (Hole addrs v bn) := by
  unfold Hole
  cases ext2Path bn with
  | none => exact inferInstanceAs (Decidable True)
  | some p => exact inferInstanceAs (Decidable (_ ∨ _))

variable (sb : Ext2Super) (inum : Nat) (devsw : Nat → Devsw)

/-- `ext2fs_readi` returns, with nothing changed on the disk, in the buffers or in the block
    map, and gives zeros for holes. -/
def ReadPure (ip : Dinode) (off n : Nat) (s : Bcache) : Prop :=
  ∃ r bytes s', ext2fsReadi sb inum devsw ip off n s = .ok ((r, bytes), ip, s') ∧ Quiet s s' ∧
    ∀ k < bytes.length, Hole ip.addrs s.view ((off + k) / BSIZE) → bytes.getD k 0 = 0

/-- Every block of the range has all its pointers where `ext2fs_bmap` looks for them, and a
    byte in a hole of the format is zero there. -/
def RangeStored (ip : Dinode) (v : Disk) (off n : Nat) : Prop :=
  ∀ k, off ≤ k → k < off + n → k < ip.size →
    Reach ip.addrs v (k / BSIZE) ∧ (Hole ip.addrs v (k / BSIZE) → content ip v k = 0)

/-- The loop over blocks that are there. -/
lemma readLoop_reached {ip : Dinode} {off r : Nat} {s : Bcache}
    (h : ∀ k, off ≤ k → k < off + r → Reach ip.addrs s.view (k / BSIZE)) :
    ∃ s', readLoop (inodeBmap sb inum) r ip off r s =
      .ok ((List.range r).map (fun k => content ip s.view (off + k)), ip, s') ∧ Quiet s s' := by
  by_cases hr : r = 0
  · subst hr
    exact ⟨s, rfl, Quiet.refl s⟩
  have hst : ∀ bn, InRange off (off + r) bn → Reach ip.addrs s.view bn := by
    rintro bn ⟨h1, h2⟩
    have hk := h (max off (bn * BSIZE)) (Nat.le_max_left _ _) (by omega)
    rwa [show max off (bn * BSIZE) / BSIZE = bn by unfold BSIZE at *; omega] at hk
  obtain ⟨s', hloop, -⟩ : ∃ s', readLoop (inodeBmap sb inum) r ip off r s =
      .ok ((List.range r).map (fun k => content ip s.view (off + k)), ip, s') ∧ s'.view = s.view :=
    readLoop_bytes r off r s (Nat.le_refl r) rfl (fun bn t h1 h2 ht => by
      have hreach := hst bn ⟨h1, h2⟩
      rw [← ht] at hreach ⊢
      obtain ⟨t', hmap, hq⟩ := inodeBmap_returns sb inum hreach
      exact ⟨t', hmap, hq.1⟩)
  exact ⟨s', hloop, (readLoop_quiet r _ _ _ _ _ _ _ (fun bn hbn => (hst bn hbn).stored) hloop).2⟩

lemma getD_content (ip : Dinode) (v : Disk) {off r k : Nat} (hk : k < r) :
    ((List.range r).map (fun k => content ip v (off + k))).getD k 0 = content ip v (off + k) := by
  rw [List.getD_eq_getElem _ 0 (by rw [List.length_map, List.length_range]; exact hk)]
  simp only [List.getElem_map, List.getElem_range]

/-- **Main result.**  When a read of an ext2 file is pure.  A bitmap block without a clear bit is
    left out where a pointer is missing: `ext2fs_balloc` then goes on in the memory behind it. -/
theorem readi_pure_iff (ip : Dinode) (off n : Nat) (s : Bcache)
    (hip : ip.type = T_DIR ∨ ip.type = T_FILE) (hsize : ip.size < 2 ^ 32) (hoff : off < 2 ^ 32)
    (hn : n < 2 ^ 32) (hb : BitmapApart sb inum s.view)
    (hfree : ¬RangeStored ip s.view off n → FreeBit (bitmapOf sb s.view inum) s.view) :
    ReadPure sb inum devsw ip off n s ↔ (off + n < 2 ^ 32 → RangeStored ip s.view off n) := by
  have hdev : ip.type ≠ T_DEV := by rcases hip with h | h <;> rw [h] <;> decide
  rw [ReadPure, ext2fsReadi, FileIo.readi, if_neg hdev]
  by_cases hout : ip.size < off ∨ (off + n) % 2 ^ 32 < off
  · -- the call returns -1 and has done nothing
    rw [if_pos hout]
    refine ⟨fun _ hwrap k h1 h2 h3 => ?_, fun _ => ⟨-1, [], s, rfl, Quiet.refl s, ?_⟩⟩
    · omega
    · exact fun k hk => absurd hk (Nat.not_lt_zero k)
  rw [if_neg hout]
  have hfit : (off + n) % 2 ^ 32 = off + n := by omega
  have hwrap : off + n < 2 ^ 32 := by omega
  rw [hfit]
  obtain ⟨r, hr⟩ : ∃ r, r = if ip.size < off + n then ip.size - off else n := ⟨_, rfl⟩
  have hrange : ∀ k, (k < off + n ∧ k < ip.size) ↔ k < off + r := by
    intro k
    rw [hr]
    split <;> omega
  dsimp only
  rw [← hr]
  constructor
  · rintro ⟨_, bytes, s', hok, hq, hzero⟩ - k h1 h2 h3
    obtain ⟨⟨bytes', ip', s₁⟩, hloop, hret⟩ := bind_eq_ok.mp hok
    dsimp only at hret
    obtain ⟨hpair, hsame, rfl⟩ := ok_triple_inj hret
    obtain rfl : ip = ip' := hsame.symm
    obtain rfl := (Prod.mk.inj hpair).2
    by_cases hst : RangeStored ip s.view off n
    · exact hst k h1 h2 h3
    -- a bit that was set would show
    have hreach := (readLoop_effect hb r (Grown.refl _ _) (Nat.le_refl r) hloop).cases.resolve_right
      (fun hm => (hm (hfree hst)).ne hq.1)
    have hk := (hrange k).mp ⟨h2, h3⟩
    refine ⟨hreach.2 k h1 hk, fun hhole => ?_⟩
    obtain ⟨s'', hbytes, -⟩ := readLoop_reached sb inum hreach.2
    rw [hbytes] at hloop
    obtain ⟨rfl, -, -⟩ := ok_triple_inj hloop
    have := hzero (k - off) (by rw [List.length_map, List.length_range]; omega)
      (by rw [show off + (k - off) = k by omega]; exact hhole)
    rwa [getD_content ip s.view (by omega), show off + (k - off) = k by omega] at this
  · intro hst
    have hin : ∀ k, off ≤ k → k < off + r → Reach ip.addrs s.view (k / BSIZE) ∧
        (Hole ip.addrs s.view (k / BSIZE) → content ip s.view k = 0) :=
      fun k h1 h2 => hst hwrap k h1 ((hrange k).mpr h2).1 ((hrange k).mpr h2).2
    obtain ⟨s', hloop, hq⟩ := readLoop_reached sb inum (fun k h1 h2 => (hin k h1 h2).1)
    refine ⟨asInt r, _, s', by rw [hloop]; rfl, hq, fun k hk hhole => ?_⟩
    rw [List.length_map, List.length_range] at hk
    rw [getD_content ip s.view hk]
    exact (hin (off + k) (by omega) (by omega)).2 hhole

/-- A device of one group with its bitmap in block 3, and a file of two blocks whose second
    one is a hole. -/
def holeSuper : Ext2Super := ⟨64, 1, 8192, 32, 128⟩

def holeDisk : Disk := fun b =>
  if b = 2 then putLE (fun _ => 0) 4 0 3
  else if b = 3 then fun k => if k = 0 then 255 else 0
  else if b = 9 then fun _ => 65 else fun _ => 0

def holeCache : Bcache := ⟨holeDisk, fun _ => none⟩

def holeFile : Dinode := ⟨T_FILE, 0, 0, 1, 2048, fun i => if i = 0 then 9 else 0⟩

lemma holeDisk_apart : BitmapApart holeSuper 12 holeCache.view :=
  ⟨by decide +kernel, by decide +kernel⟩

theorem readi_pure_iff_firstBlock :
    BitmapApart holeSuper 12 holeCache.view ∧ FreeBit 3 holeCache.view ∧
    ReadPure holeSuper 12 (fun _ => ⟨none, none⟩) holeFile 0 1024 holeCache := by
  have hfree : FreeBit 3 holeCache.view := ⟨8, by decide, by decide +kernel⟩
  refine ⟨holeDisk_apart, hfree, (readi_pure_iff holeSuper 12 (fun _ => ⟨none, none⟩) holeFile 0
    1024 holeCache (.inr rfl) (by decide) (by decide) (by decide) holeDisk_apart
    (fun _ => hfree)).mpr (fun _ k _ hk _ => ?_)⟩
  have h0 : k / BSIZE = 0 := by unfold BSIZE; omega
  rw [h0]
  have hst : Stored holeFile.addrs holeCache.view 0 := by decide +kernel
  refine ⟨⟨hst, ?_⟩, fun hhole => ?_⟩
  · decide
  · exact absurd hhole (by decide +kernel)

/-- A read of one byte in the hole allocates block 11. -/
theorem read_allocates_hole : Hole holeFile.addrs holeCache.view 1 ∧
    (ext2fsReadi holeSuper 12 (fun _ => ⟨none, none⟩) holeFile 1024 1 holeCache).map
      (fun r => (r.1, r.2.1.addrs 1, r.2.2.disk 3 1)) = .ok ((1, [0]), 11, 128) ∧
    holeFile.addrs 1 = 0 ∧ holeCache.disk 3 1 = 0 ∧
    ¬ReadPure holeSuper 12 (fun _ => ⟨none, none⟩) holeFile 1024 1 holeCache := by
  have hrun : (ext2fsReadi holeSuper 12 (fun _ => ⟨none, none⟩) holeFile 1024 1 holeCache).map
      (fun r => (r.1, r.2.1.addrs 1, r.2.2.disk 3 1)) = .ok ((1, [0]), 11, 128) := by
    decide +kernel
  refine ⟨by decide +kernel, hrun, rfl, by decide +kernel, ?_⟩
  rintro ⟨r, bytes, s', hok, -, -⟩
  rw [hok] at hrun
  have : holeFile.addrs 1 = 11 := (Prod.mk.inj (ok_pair_inj hrun).2).1
  revert this
  decide

/-! ## Writing -/

/-- **Main result.**  A write of a range whose last block `ext2fs_bmap` can address is not
    refused exactly if the range ends at `EXT2_MAXFILE * EXT2_BSIZE` modulo 2^32 at the latest.
    No range of 32-bit offsets ends behind the last block. -/
theorem writei_refuses_iff (ip : Dinode) (src : Nat → UInt8) (off n : Nat) (s : Bcache)
    (hip : ip.type = T_DIR ∨ ip.type = T_FILE) (hn : 0 < n) (hoff : off ≤ ip.size)
    (hwrap : off + n < 2 ^ 32) :
    ((∃ ip' s', ext2fsWritei sb inum devsw ip src off n s = .ok (-1, ip', s')) →
      EXT2_MAXFILE ≤ (off + n - 1) / BSIZE) ↔ off + n ≤ 67383296 := by
  have hdev : ip.type ≠ T_DEV := by rcases hip with h | h <;> rw [h] <;> decide
  have hlimit : EXT2_MAXFILE * BSIZE % 2 ^ 32 = 67383296 := by decide
  have hmax : EXT2_MAXFILE = 16843020 := by decide
  have hmod : (off + n) % 2 ^ 32 = off + n := Nat.mod_eq_of_lt hwrap
  rw [ext2fsWritei, writei, if_neg hdev, hmod, hlimit, if_neg (by omega)]
  constructor
  · intro hrefused
    by_contra hend
    rw [if_pos (by omega)] at hrefused
    have := hrefused ⟨ip, s, rfl⟩
    unfold BSIZE at this
    omega
  · rintro hend ⟨ip', s', hok⟩
    rw [if_neg (by omega)] at hok
    obtain ⟨⟨ip₁, s₁⟩, -, hok⟩ := bind_eq_ok.mp hok
    -- what is returned otherwise is the number of bytes
    have hret : asInt n = -1 := by
      dsimp only at hok
      split at hok
      · obtain ⟨s₂, -, hok⟩ := bind_eq_ok.mp hok
        exact (ok_triple_inj hok).1
      · exact (ok_triple_inj hok).1
    rw [asInt, if_pos (by omega)] at hret
    omega

/-- A file of 67383296 bytes, that is 65804 blocks. -/
def bigFile : Dinode := ⟨T_FILE, 0, 0, 1, 67383296, fun _ => 0⟩

theorem writei_refuses_iff_start : bigFile.type = T_FILE ∧
    ((∃ ip' s', ext2fsWritei holeSuper 12 (fun _ => ⟨none, none⟩) bigFile (fun _ => 65) 0 1
      holeCache = .ok (-1, ip', s')) → EXT2_MAXFILE ≤ (0 + 1 - 1) / BSIZE) :=
  ⟨rfl, (writei_refuses_iff holeSuper 12 (fun _ => ⟨none, none⟩) bigFile (fun _ => 65) 0 1
    holeCache (.inr rfl) (by decide) (by decide) (by decide)).mpr (by decide)⟩

/-- The next byte is in block 65804, which the block map can address. -/
theorem write_refused_at_end :
    ext2fsWritei holeSuper 12 (fun _ => ⟨none, none⟩) bigFile (fun _ => 65) 67383296 1 holeCache =
      .ok (-1, bigFile, holeCache) ∧ (67383296 + 1 - 1) / BSIZE = 65804 ∧ 65804 < EXT2_MAXFILE := by
  refine ⟨?_, by decide, by decide⟩
  rw [ext2fsWritei, writei, if_neg (by decide), if_neg (by decide), if_pos (by decide)]

end Ext2Io
