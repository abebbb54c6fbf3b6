import Xv6Ext2.Ext2RecordsProofs

/-! # Storing a record in a directory (ext2fs.c)

    The end of `ext2fs_dirlink`: the inode is updated, and a record of `EXT2_BSIZE` bytes is
    written.  `OwnBlocks` says that the directory's blocks, the metadata and the free blocks
    are apart.

    - `OwnBlocks.locate` : the block that `ext2fs_bmap` finds or allocates for the record;
    - `storeRecord_eq` : what is stored, and that the bytes before it stay. -/

namespace Ext2Dir

open ByteBlock BufCache Outcome FileIo DirName Ext2Alloc Ext2Bmap Ext2Inode Ext2Stored

open Function (update update_of_ne update_self)

/-! ## Finding the block -/

section Paths

variable {addrs : Nat → Nat} {v : Disk} {bn : Nat}

lemma bmapLeaf_direct (h : bn < 12) : bmapLeaf addrs v bn = addrs bn := by
  rw [bmapLeaf, show bmapPath bn = some (bn, []) from if_pos h]
  rfl

lemma bmapInner_direct (h : bn < 12) : bmapInner addrs v bn = [] := by
  rw [bmapInner, show bmapPath bn = some (bn, []) from if_pos h]
  rfl

lemma bmapPath_single (h : 12 ≤ bn) (h' : bn < 268) : bmapPath bn = some (12, [bn - 12]) := by
  rw [bmapPath, if_neg (by omega), if_pos (by omega)]

lemma bmapLeaf_single (h : 12 ≤ bn) (h' : bn < 268) :
    bmapLeaf addrs v bn = getLE (v (addrs 12)) 4 (4 * (bn - 12)) := by
  rw [bmapLeaf, bmapPath_single h h']
  rfl

lemma bmapInner_single (h : 12 ≤ bn) (h' : bn < 268) : bmapInner addrs v bn = [addrs 12] := by
  rw [bmapInner, bmapPath_single h h']
  rfl

/-- Below the double indirect range a block has at most one index block. -/
lemma reach_of_stored (h : bn < 268) (hst : Stored addrs v bn) : Reach addrs v bn := by
  refine ⟨hst, ?_⟩
  by_cases h12 : bn < 12
  · rw [bmapInner_direct h12]
    exact List.nodup_nil
  · rw [bmapInner_single (by omega) h]
    exact List.nodup_cons.mpr ⟨List.not_mem_nil, List.nodup_nil⟩

/-- A block of the indirect range whose index block is there lacks its own pointer. -/
lemma word_null (h : 12 < bn) (h' : bn < 268) (hblk : addrs 12 ≠ 0) (hno : ¬Stored addrs v bn) :
    getLE (v (addrs 12)) 4 (4 * (bn - 12)) = 0 := by
  by_contra hne
  refine hno ⟨?_, fun b hb => ?_⟩
  · rwa [bmapLeaf_single h.le h']
  · rw [bmapInner_single h.le h', List.mem_singleton] at hb
    rwa [hb]

end Paths

/-- The blocks of a directory, up to the one behind its end. -/
def Used (ip : Dinode) (v : Disk) (b : Nat) : Prop :=
  ∃ bn, bn * BSIZE ≤ ip.size ∧ Stored ip.addrs v bn ∧
    (b = bmapLeaf ip.addrs v bn ∨ b ∈ bmapInner ip.addrs v bn)

/-- The metadata that `ext2fs_dirlink` reads and writes. -/
def Meta (sb : Ext2Super) (dnum : Nat) (v : Disk) (b : Nat) : Prop :=
  b = 2 ∨ b = (inodeHome sb (v 2) dnum).1 ∨ b = bitmapOf sb v dnum

/-- A directory on its own blocks: none serves twice, and none is metadata or free. -/
structure OwnBlocks (sb : Ext2Super) (dnum : Nat) (ip : Dinode) (v : Disk) : Prop where
  geometry : checkGeometry sb = .ok ()
  leaf   : ∀ bn bn', bn * BSIZE ≤ ip.size → bn' * BSIZE ≤ ip.size → Stored ip.addrs v bn →
    Stored ip.addrs v bn' → bmapLeaf ip.addrs v bn = bmapLeaf ip.addrs v bn' → bn = bn'
  inner  : ∀ bn bn', bn * BSIZE ≤ ip.size → bn' * BSIZE ≤ ip.size → Stored ip.addrs v bn →
    Stored ip.addrs v bn' → bmapLeaf ip.addrs v bn ∉ bmapInner ip.addrs v bn'
  home   : (inodeHome sb (v 2) dnum).1 ≠ 2
  bitmap : bitmapOf sb v dnum ≠ 2 ∧ bitmapOf sb v dnum ≠ (inodeHome sb (v 2) dnum).1
  used   : ∀ b, Used ip v b → ¬Meta sb dnum v b
  fresh  : ∀ b, Fresh sb dnum v b → b ≠ 0 ∧ ¬Meta sb dnum v b ∧ ¬Used ip v b

/-- Block `b` is block `bn` of the file by the pointers `addrs` in the contents `v'`; the
    blocks before it hold what they held in the file `ip` in the contents `v`. -/
structure Located (ip : Dinode) (v : Disk) (bn : Nat) (addrs : Nat → Nat) (v' : Disk) (b : Nat) :
    Prop where
  reach  : ∀ bn' ≤ bn, Reach addrs v' bn'
  found  : bmapLeaf addrs v' bn = b
  inner  : ∀ bn' ≤ bn, b ∉ bmapInner addrs v' bn'
  before : ∀ bn' < bn, bmapLeaf addrs v' bn' ≠ b ∧
    v' (bmapLeaf addrs v' bn') = v (bmapLeaf ip.addrs v bn')

/-- The directory `ip'` in the contents `v'` has `src` at `off`, and ends behind it. -/
structure Placed (ip : Dinode) (v : Disk) (off : Nat) (src : Nat → UInt8) (ip' : Dinode)
    (v' : Disk) : Prop where
  readable : Readable ip' v'
  size     : ip'.size = off + BSIZE
  before   : ∀ k < off, content ip' v' k = content ip v k
  new      : ∀ k < BSIZE, content ip' v' (off + k) = src k

/-- Writing the block that was found. -/
lemma Located.placed {ip ip' : Dinode} {v v' : Disk} {off b : Nat} {src : Nat → UInt8}
    (h : Located ip v (off / BSIZE) ip'.addrs v' b) (hoff : off % BSIZE = 0)
    (hdir : ip'.type = T_DIR) (hsize : ip'.size = off + BSIZE) (h32 : off + BSIZE < 2 ^ 32) :
    Placed ip v off src ip' (update v' b (fillBlock (v' b) (blit (v' b) 0 BSIZE src))) := by
  -- the write leaves the pointers alone
  have hsame : ∀ bn ≤ off / BSIZE, Reach ip'.addrs
      (update v' b (fillBlock (v' b) (blit (v' b) 0 BSIZE src))) bn ∧
      bmapLeaf ip'.addrs (update v' b (fillBlock (v' b) (blit (v' b) 0 BSIZE src))) bn =
        bmapLeaf ip'.addrs v' bn := by
    intro bn hbn
    obtain ⟨h1, h2, h3⟩ := (h.reach bn hbn).stored.congr (fun _ _ => rfl)
      (fun c hc => update_of_ne (fun e : c = b => h.inner bn hbn (e ▸ hc))
        (fillBlock (v' b) (blit (v' b) 0 BSIZE src)) v')
    exact ⟨⟨h1, h3 ▸ (h.reach bn hbn).nodup⟩, h2⟩
  refine ⟨⟨hdir, by omega, fun bn hbn => (hsame bn ?_).1⟩, hsize, fun k hk => ?_, fun k hk => ?_⟩
  · unfold BSIZE at *
    omega
  · have hlt : k / BSIZE < off / BSIZE := by unfold BSIZE at *; omega
    obtain ⟨hne, hbytes⟩ := h.before _ hlt
    rw [content, byteAt, (hsame _ hlt.le).2, update_of_ne hne, hbytes]
    rfl
  · have hdiv : (off + k) / BSIZE = off / BSIZE := by unfold BSIZE at *; omega
    have hmod : (off + k) % BSIZE = k := by unfold BSIZE at *; omega
    rw [content, byteAt, hdiv, hmod, (hsame _ le_rfl).2, h.found, update_self,
      fillBlock_in hk, blit_in (by omega), Nat.sub_zero]

lemma located_word {ip : Dinode} {v v' : Disk} {bn b : Nat} (h12 : 12 < bn) (h268 : bn < 268)
    (hreach : ∀ bn' < bn, Reach ip.addrs v bn') (hb : b ≠ 0 ∧ b ≠ ip.addrs 12)
    (hwords : ∀ i < 256, getLE (v' (ip.addrs 12)) 4 (4 * i) =
      if i = bn - 12 then b else getLE (v (ip.addrs 12)) 4 (4 * i))
    (hkeep : ∀ bn' < bn, bmapLeaf ip.addrs v bn' ≠ b ∧
      v' (bmapLeaf ip.addrs v bn') = v (bmapLeaf ip.addrs v bn')) :
    Located ip v bn ip.addrs v' b := by
  have hblk : ip.addrs 12 ≠ 0 := (hreach 12 h12).stored.2 _ (by
    rw [bmapInner_single le_rfl (by decide)]; exact List.mem_singleton_self _)
  have hleaf : ∀ bn' < bn, bmapLeaf ip.addrs v' bn' = bmapLeaf ip.addrs v bn' := by
    intro bn' h
    by_cases hd : bn' < 12
    · rw [bmapLeaf_direct hd, bmapLeaf_direct hd]
    · rw [bmapLeaf_single (by omega) (by omega), bmapLeaf_single (by omega) (by omega),
        hwords _ (by omega), if_neg (by omega)]
  have hfound : bmapLeaf ip.addrs v' bn = b := by
    rw [bmapLeaf_single (by omega) h268, hwords _ (by omega), if_pos rfl]
  refine ⟨fun bn' h => reach_of_stored (by omega) ⟨?_, fun c hc => ?_⟩, hfound, fun bn' h => ?_,
    fun bn' h => ?_⟩
  · rcases Nat.eq_or_lt_of_le h with rfl | h
    · rw [hfound]
      exact hb.1
    · rw [hleaf bn' h]
      exact (hreach bn' h).stored.1
  · by_cases hd : bn' < 12
    · rw [bmapInner_direct hd] at hc
      exact absurd hc List.not_mem_nil
    · rw [bmapInner_single (by omega) (by omega), List.mem_singleton] at hc
      rwa [hc]
  · by_cases hd : bn' < 12
    · rw [bmapInner_direct hd]
      exact List.not_mem_nil
    · rw [bmapInner_single (by omega) (by omega), List.mem_singleton]
      exact hb.2
  · rw [hleaf bn' h]
    exact hkeep bn' h

section Locate

variable {sb : Ext2Super} {dnum : Nat} {ip : Dinode} {v : Disk} (hown : OwnBlocks sb dnum ip v)
  {x : Block}
include hown

variable {bn : Nat}

lemma OwnBlocks.congr (hbn : bn * BSIZE ≤ ip.size) (hst : Stored ip.addrs v bn) :
    Stored ip.addrs (update v (inodeHome sb (v 2) dnum).1 x) bn ∧
      bmapLeaf ip.addrs (update v (inodeHome sb (v 2) dnum).1 x) bn = bmapLeaf ip.addrs v bn ∧
      bmapInner ip.addrs (update v (inodeHome sb (v 2) dnum).1 x) bn = bmapInner ip.addrs v bn :=
  hst.congr (fun _ _ => rfl) (fun _ hc => update_of_ne
    (fun e => hown.used _ ⟨bn, hbn, hst, .inr hc⟩ (.inr (.inl e))) x v)

lemma OwnBlocks.located_stored (hbn : bn * BSIZE ≤ ip.size)
    (hreach : ∀ bn' ≤ bn, Reach ip.addrs v bn') :
    Located ip v bn ip.addrs (update v (inodeHome sb (v 2) dnum).1 x) (bmapLeaf ip.addrs v bn) := by
  have hle : ∀ bn' ≤ bn, bn' * BSIZE ≤ ip.size :=
    fun bn' h => (Nat.mul_le_mul_right BSIZE h).trans hbn
  have hcongr : ∀ bn' ≤ bn, _ := fun bn' h => hown.congr (x := x) (hle bn' h) (hreach bn' h).stored
  have hst := (hreach bn (Nat.le_refl bn)).stored
  refine ⟨fun bn' h => ?_, (hcongr bn (Nat.le_refl bn)).2.1, fun bn' h => ?_, fun bn' h => ?_⟩
  · obtain ⟨h1, -, h3⟩ := hcongr bn' h
    exact ⟨h1, h3 ▸ (hreach bn' h).nodup⟩
  · rw [(hcongr bn' h).2.2]
    exact hown.inner bn bn' hbn (hle bn' h) hst (hreach bn' h).stored
  · have h' := Nat.le_of_lt h
    have hst' := (hreach bn' h').stored
    rw [(hcongr bn' h').2.1]
    refine ⟨fun e => Nat.ne_of_lt h (hown.leaf bn' bn (hle bn' h') hbn hst' hst e),
      update_of_ne (fun e => ?_) _ _⟩
    exact hown.used _ ⟨bn', hle bn' h', hst', .inl rfl⟩ (.inr (.inl e))

variable {s : Bcache}

lemma OwnBlocks.balloc (held : List Nat)
    (hs : s.view = update v (inodeHome sb (v 2) dnum).1 x) (hheld : ∀ c ∈ held, Used ip v c)
    (hfree : (ext2fsFreeBlock sb (v (bitmapOf sb v dnum))).isSome = true) :
    ∃ b s', ext2fsBalloc sb held dnum s = .ok (b, s') ∧ Fresh sb dnum v b ∧
      ∀ c, c ≠ bitmapOf sb v dnum → c ≠ b → s'.view c = s.view c := by
  have hbb : bitmapOf sb s.view dnum = bitmapOf sb v dnum := by
    rw [hs, bitmapOf, update_of_ne hown.home.symm, bitmapOf]
  have hbits : s.view (bitmapOf sb v dnum) = v (bitmapOf sb v dnum) := by
    rw [hs, update_of_ne hown.bitmap.2]
  obtain ⟨⟨f, d⟩, hf⟩ := Option.isSome_iff_exists.mp hfree
  have hspec := ext2fsFreeBlock_spec sb (v (bitmapOf sb v dnum))
  rw [hf] at hspec
  have hclear := (ext2fsFreeBlock_some hf).1
  have hfresh : Fresh sb dnum v ((bitmapOf sb v dnum + f) % 2 ^ 32) :=
    ⟨f, hspec.2.1, hclear.clear, rfl⟩
  obtain ⟨-, hmeta, hunused⟩ := hown.fresh _ hfresh
  have hne : (bitmapOf sb v dnum + f) % 2 ^ 32 ≠ bitmapOf sb v dnum :=
    fun e => hmeta (.inr (.inr e))
  have hret : ext2fsBalloc sb held dnum s = _ := ext2fsBalloc_returns
    (checkDiv_ok (bind_eq_ok.mp hown.geometry).choose_spec.1)
    (fun h => hown.used 2 (hheld 2 h) (.inl rfl))
    (by rw [hbb]; exact fun h => hown.used _ (hheld _ h) (.inr (.inr rfl)))
    (by rw [hbb, hbits]; exact hclear) hspec.2.1 (by
      rw [hbb]
      intro h
      rcases List.mem_cons.mp h with h | h
      · exact hne h
      · exact hunused (hheld _ h))
  rw [hbb] at hret
  refine ⟨_, _, hret, hfresh, fun c h1 h2 => ?_⟩
  rw [allocated_view s _ hne, update_of_ne h2, update_of_ne h1]

variable {ip₁ : Dinode}

lemma OwnBlocks.located_first (haddrs : ip₁.addrs = ip.addrs)
    (hs : s.view = update v (inodeHome sb (v 2) dnum).1 x) (hno : ¬Stored ip.addrs v 0)
    (hfree : (ext2fsFreeBlock sb (v (bitmapOf sb v dnum))).isSome = true) :
    ∃ b addrs s', inodeBmap sb dnum ip₁ 0 s = .ok (b, { ip₁ with addrs := addrs }, s') ∧
      Located ip v 0 addrs s'.view b := by
  have hnull : ip.addrs 0 = 0 := by
    by_contra h
    exact hno ((stored_direct (by decide)).mpr h)
  obtain ⟨b, s', hret, hfresh, -⟩ := hown.balloc [] hs (fun c hc => nomatch hc) hfree
  refine ⟨b, update ip₁.addrs 0 b, s', ?_, fun bn hbn => ?_, ?_, fun bn hbn => ?_,
    fun bn hbn => absurd hbn (Nat.not_lt_zero bn)⟩
  · rw [inodeBmap, ext2fsBmap, if_pos (by decide), inodeSlot, haddrs, if_pos hnull, hret]
    rfl
  · obtain rfl : bn = 0 := Nat.le_zero.mp hbn
    refine reach_of_stored (by decide) ((stored_direct (by decide)).mpr ?_)
    rw [update_self]
    exact (hown.fresh b hfresh).1
  · rw [bmapLeaf_direct (by decide), update_self]
  · obtain rfl : bn = 0 := Nat.le_zero.mp hbn
    rw [bmapInner_direct (by decide)]
    exact List.not_mem_nil

/-- The next block of the indirect range: its pointer is stored in the index block. -/
lemma OwnBlocks.located_next (haddrs : ip₁.addrs = ip.addrs)
    (hs : s.view = update v (inodeHome sb (v 2) dnum).1 x) (h12 : 12 < bn)
    (h268 : bn < 268) (hbn : bn * BSIZE ≤ ip.size) (hreach : ∀ bn' < bn, Reach ip.addrs v bn')
    (hno : ¬Stored ip.addrs v bn)
    (hfree : (ext2fsFreeBlock sb (v (bitmapOf sb v dnum))).isSome = true) :
    ∃ b addrs s', inodeBmap sb dnum ip₁ bn s = .ok (b, { ip₁ with addrs := addrs }, s') ∧
      Located ip v bn addrs s'.view b := by
  have hle : ∀ bn' ≤ bn, bn' * BSIZE ≤ ip.size :=
    fun bn' h => (Nat.mul_le_mul_right BSIZE h).trans hbn
  have hst12 := (hreach 12 h12).stored
  have hin12 : ip.addrs 12 ∈ bmapInner ip.addrs v 12 := by
    rw [bmapInner_single le_rfl (by decide)]
    exact List.mem_singleton_self _
  have hblk : Used ip v (ip.addrs 12) := ⟨12, hle 12 h12.le, hst12, .inr hin12⟩
  have hblk0 : ip.addrs 12 ≠ 0 := hst12.2 _ hin12
  have hblkm := hown.used _ hblk
  have hview : s.view (ip.addrs 12) = v (ip.addrs 12) := by
    rw [hs, update_of_ne (fun e => hblkm (.inr (.inl e)))]
  have hword := word_null h12 h268 hblk0 hno
  obtain ⟨b, s₂, hret, hfresh, hkeep⟩ := hown.balloc [ip.addrs 12] ((touch_view s (ip.addrs 12)).trans hs)
    (fun c hc => by rw [List.mem_singleton.mp hc]; exact hblk) hfree
  rw [touch_view] at hkeep
  obtain ⟨hb0, -, hbu⟩ := hown.fresh b hfresh
  have hbblk : ip.addrs 12 ≠ b := fun e => hbu (e ▸ hblk)
  have hindex : s₂.view (ip.addrs 12) = v (ip.addrs 12) := by
    rw [hkeep _ (fun e => hblkm (.inr (.inr e))) hbblk, hview]
  refine ⟨b, ip₁.addrs, bput (ip.addrs 12) (putLE (s₂.view (ip.addrs 12)) 4 (4 * (bn - 12)) b) s₂,
    ?_, ?_⟩
  · rw [inodeBmap, ext2fsBmap_eq_followPath, bmapPath_single h12.le h268, followPath,
      inodeSlot, haddrs, if_neg (show ip.addrs 12 ≠ 0 from hblk0), ok_bind]
    dsimp only
    rw [followWords, wordSlot, bread_nil]
    dsimp only
    rw [hview, if_pos hword, hret]
    rfl
  rw [haddrs, hindex]
  refine located_word h12 h268 hreach ⟨hb0, hbblk.symm⟩ (fun i hi => ?_) (fun bn' h => ?_)
  · rw [bput_view, update_self, getLE_fillBlock (by unfold BSIZE; omega)]
    by_cases hib : i = bn - 12
    · rw [if_pos hib, hib, getLE_putLE]
      obtain ⟨f, -, -, rfl⟩ := hfresh
      exact Nat.mod_eq_of_lt (Nat.mod_lt _ (by decide))
    · rw [if_neg hib, getLE_putLE_of_disjoint (by omega)]
  · have hst := (hreach bn' h).stored
    have hused : Used ip v (bmapLeaf ip.addrs v bn') := ⟨bn', hle bn' h.le, hst, .inl rfl⟩
    have hmeta := hown.used _ hused
    have hne : bmapLeaf ip.addrs v bn' ≠ b := fun e => hbu (e ▸ hused)
    have hnot12 : bmapLeaf ip.addrs v bn' ≠ ip.addrs 12 := fun e =>
      hown.inner bn' 12 (hle bn' h.le) (hle 12 h12.le) hst hst12 (e ▸ hin12)
    refine ⟨hne, ?_⟩
    rw [bput_view, update_of_ne hnot12, hkeep _ (fun e => hmeta (.inr (.inr e))) hne, hs,
      update_of_ne (fun e => hmeta (.inr (.inl e)))]

lemma OwnBlocks.isSome_of_balloc {held : List Nat} {r : Nat × Bcache}
    (hs : s.view = update v (inodeHome sb (v 2) dnum).1 x)
    (hr : ext2fsBalloc sb held dnum s = .ok r) :
    (ext2fsFreeBlock sb (v (bitmapOf sb v dnum))).isSome = true := by
  have hbb : bitmapOf sb s.view dnum = bitmapOf sb v dnum := by
    rw [hs, bitmapOf, update_of_ne hown.home.symm, bitmapOf]
  obtain ⟨-, -, -, f, hf, hlim, -⟩ := ext2fsBalloc_ok hr
  rw [hbb, hs, update_of_ne hown.bitmap.2] at hf
  rw [ext2fsFreeBlock_of_clear hf hlim]
  rfl

lemma OwnBlocks.room (haddrs : ip₁.addrs = ip.addrs)
    (hs : s.view = update v (inodeHome sb (v 2) dnum).1 x) (hbn : bn = 0 ∨ (12 < bn ∧ bn < 268))
    (hle : bn * BSIZE ≤ ip.size) (hreach : ∀ bn' < bn, Reach ip.addrs v bn')
    {r : Nat × Dinode × Bcache} (hr : inodeBmap sb dnum ip₁ bn s = .ok r) :
    Stored ip.addrs v bn ∨ (ext2fsFreeBlock sb (v (bitmapOf sb v dnum))).isSome = true := by
  refine or_iff_not_imp_left.mpr (fun hno => ?_)
  obtain ⟨r₁, hr, -⟩ := bind_eq_ok.mp hr
  rw [ext2fsBmap_eq_followPath, haddrs] at hr
  rcases hbn with rfl | ⟨h12, h268⟩
  · have hnull : ip.addrs 0 = 0 := by
      by_contra h
      exact hno ((stored_direct (by decide)).mpr h)
    obtain ⟨r₂, hr, -⟩ := bind_eq_ok.mp hr
    rw [inodeSlot, if_pos hnull] at hr
    obtain ⟨r₃, hr, -⟩ := bind_eq_ok.mp hr
    exact hown.isSome_of_balloc hs hr
  have hst12 := (hreach 12 h12).stored
  have hin12 : ip.addrs 12 ∈ bmapInner ip.addrs v 12 := by
    rw [bmapInner_single le_rfl (by decide)]
    exact List.mem_singleton_self _
  have hblkm := hown.used _ ⟨12, (Nat.mul_le_mul_right BSIZE h12.le).trans hle, hst12, .inr hin12⟩
  have hview : s.view (ip.addrs 12) = v (ip.addrs 12) := by
    rw [hs, update_of_ne (fun e => hblkm (.inr (.inl e)))]
  have hword := word_null h12 h268 (hst12.2 _ hin12) hno
  rw [bmapPath_single h12.le h268, followPath, inodeSlot,
    if_neg (show ip.addrs 12 ≠ 0 from hst12.2 _ hin12), ok_bind] at hr
  obtain ⟨r₂, hr, -⟩ := bind_eq_ok.mp hr
  obtain ⟨r₃, hr, -⟩ := bind_eq_ok.mp hr
  rw [wordSlot, bread_nil] at hr
  dsimp only at hr
  rw [hview, if_pos hword] at hr
  obtain ⟨r₄, hr, -⟩ := bind_eq_ok.mp hr
  exact hown.isSome_of_balloc ((touch_view s (ip.addrs 12)).trans hs) hr

/-- From the double indirect range on, blocks share their pointers, so a directory on its own
    blocks ends before the second of them. -/
lemma OwnBlocks.size_lt (h : Readable ip v) : ip.size < 269 * BSIZE := by
  by_contra hge
  have hst : Stored ip.addrs v 268 := (h.reach 268 (by unfold BSIZE at *; omega)).stored
  exact absurd (hown.leaf 268 269 (by unfold BSIZE at *; omega) (by unfold BSIZE at *; omega) hst
    hst rfl) (by decide)

/-- `sizeof(de)` and the block size have few common multiples. -/
lemma OwnBlocks.block_cases (h : Readable ip v) {off : Nat} (hstep : off % DIRENT = 0)
    (hoff : off % BSIZE = 0) (hle : off ≤ ip.size) :
    off / BSIZE = 0 ∨ (12 < off / BSIZE ∧ off / BSIZE < 268) := by
  have hsize := hown.size_lt h
  unfold BSIZE DIRENT at *
  omega

/-- The block of a record at a place where `ext2fs_dirlink` can stop. -/
lemma OwnBlocks.locate (h : Readable ip v) {off : Nat} (hstep : off % DIRENT = 0)
    (hoff : off % BSIZE = 0) (hle : off ≤ ip.size)
    (hroom : off = ip.size → Stored ip.addrs v (off / BSIZE) ∨
      (ext2fsFreeBlock sb (v (bitmapOf sb v dnum))).isSome = true) (haddrs : ip₁.addrs = ip.addrs)
    (hs : s.view = update v (inodeHome sb (v 2) dnum).1 x) :
    ∃ b addrs s', inodeBmap sb dnum ip₁ (off / BSIZE) s = .ok (b, { ip₁ with addrs := addrs }, s') ∧
      Located ip v (off / BSIZE) addrs s'.view b := by
  obtain ⟨n, hn⟩ : ∃ n, n = off / BSIZE := ⟨_, rfl⟩
  have hmul : n * BSIZE = off := by unfold BSIZE at *; omega
  have h264 := hn ▸ hown.block_cases h hstep hoff hle
  have hlt : n < 268 := by omega
  rw [← hn] at hroom ⊢
  have hreach : ∀ bn < n, Reach ip.addrs v bn := fun bn hbn =>
    h.reach bn (by unfold BSIZE at *; omega)
  by_cases hst : Stored ip.addrs v n
  · have hall : ∀ bn ≤ n, Reach ip.addrs v bn := by
      intro bn hbn
      rcases Nat.eq_or_lt_of_le hbn with rfl | hbn
      · exact reach_of_stored hlt hst
      · exact hreach bn hbn
    have hloc := hown.located_stored (x := x) (by omega) hall
    rw [← hs] at hloc
    have hreach₁ : Reach ip₁.addrs s.view n := haddrs ▸ hloc.reach n (Nat.le_refl n)
    obtain ⟨s', hret, hq⟩ := inodeBmap_returns sb dnum hreach₁
    rw [haddrs, hloc.found] at hret
    refine ⟨_, ip₁.addrs, s', hret, ?_⟩
    rwa [hq.1, haddrs]
  · have hend : off = ip.size := by
      by_contra hne
      exact hst (h.reach n (by omega)).stored
    have hfree := (hroom hend).resolve_left hst
    rcases h264 with rfl | ⟨h12, h268⟩
    · exact hown.located_first haddrs hs hst hfree
    · exact hown.located_next haddrs hs h12 h268 (by omega) hreach hst hfree

end Locate

/-! ## Storing the record -/

/-- What `ext2fs_dirlink` does after its loop: the inode is updated, the record written. -/
def storeRecord (sb : Ext2Super) (dnum : Nat) (devsw : Nat → Devsw) (src : Block) (off : Nat)
    (ip : Dinode) (s : Bcache) : Except Err (Int × Dinode × Bcache) := do
  let ip := { ip with size := (off + BSIZE) % 2 ^ 32 }
  let s ← ext2fsIupdate sb dnum ip s
  let (_, ip, s) ← ext2fsWritei sb dnum devsw ip src off BSIZE s
  .ok (0, ip, s)

section Store

variable {sb : Ext2Super} {dnum : Nat} (devsw : Nat → Devsw) (src : Block) {off : Nat}
  {ip ip' : Dinode} {s s' : Bcache}

lemma inodeBmap_size {inum bn b : Nat}
    (h : inodeBmap sb inum ip bn s = .ok (b, ip', s')) : ip'.size = ip.size :=
  inodeBmap_field (p := Dinode.size) (fun _ _ => rfl) h

/-- The directory ends behind the new record. -/
lemma storeRecord_size {devsw : Nat → Devsw} {src : Block} {r : Int}
    (h : storeRecord sb dnum devsw src off ip s = .ok (r, ip', s')) :
    ip'.size = (off + BSIZE) % 2 ^ 32 := by
  obtain ⟨s₁, -, h⟩ := bind_eq_ok.mp h
  obtain ⟨⟨n, ip₂, s₂⟩, hw, h⟩ := bind_eq_ok.mp h
  obtain ⟨-, rfl, -⟩ := ok_triple_inj h
  rw [ext2fsWritei, writei] at hw
  split at hw
  · -- no write changes the inode of a device
    split at hw
    · rw [← (ok_triple_inj hw).2.1]
    split at hw
    · rw [← (ok_triple_inj hw).2.1]
    · rw [← (ok_triple_inj hw).2.1]
  split at hw
  · rw [← (ok_triple_inj hw).2.1]
  split at hw
  · rw [← (ok_triple_inj hw).2.1]
  obtain ⟨⟨ip₃, s₃⟩, hloop, hw⟩ := bind_eq_ok.mp hw
  dsimp only at hw
  split at hw
  · obtain ⟨s₄, -, hw⟩ := bind_eq_ok.mp hw
    rw [← (ok_triple_inj hw).2.1]
  · rw [← (ok_triple_inj hw).2.1]
    rw [writeLoop_field (p := Dinode.size) inodeBmap_size _ hloop]

section Run

variable (hown : OwnBlocks sb dnum ip s.view) (h : Readable ip s.view) (hoff : off % BSIZE = 0)
  (hle : off ≤ ip.size)
include hown h hoff hle

/-- The record goes to the block that `ext2fs_bmap` finds once the inode is updated. -/
lemma storeRecord_run : ∃ x s₁, s₁.view = update s.view (inodeHome sb (s.view 2) dnum).1 x ∧
      storeRecord sb dnum devsw src off ip s = (do
        let (b, ip, s) ← inodeBmap sb dnum { ip with size := off + BSIZE } (off / BSIZE) s₁
        .ok (0, ip, bwrite b (blit (s.view b) 0 BSIZE src) (s.touch b))) := by
  have hsize := hown.size_lt h
  have hb : BSIZE = 1024 := rfl
  have hmod : (off + BSIZE) % 2 ^ 32 = off + BSIZE := Nat.mod_eq_of_lt (by omega)
  have hmax : EXT2_MAXFILE * BSIZE % 2 ^ 32 = 67383296 := by decide
  have hdev : ip.type ≠ T_DEV := by rw [h.dir]; decide
  obtain ⟨x, s₁, hupd, hs₁⟩ : ∃ x s₁,
      ext2fsIupdate sb dnum { ip with size := off + BSIZE } s = .ok s₁ ∧
      s₁.view = update s.view (inodeHome sb (s.view 2) dnum).1 x :=
    ⟨_, _, ext2fsIupdate_eq hown.geometry _ _, by rw [bwrite_view, touch_view, touch_view]⟩
  refine ⟨x, s₁, hs₁, ?_⟩
  rw [storeRecord, hmod, hupd, ok_bind, ext2fsWritei, writei, if_neg hdev, hmod, if_neg (by dsimp only; omega), if_neg (by omega),
    writeLoop_one (by omega) le_rfl (by omega), hoff]
  cases hr : inodeBmap sb dnum { ip with size := off + BSIZE } (off / BSIZE) s₁ with
  | error e => rfl
  | ok r =>
    obtain ⟨b, ip₁, s₁⟩ := r
    have hkeep : ip₁.size = off + BSIZE := inodeBmap_size hr
    simp only [ok_bind]
    rw [if_neg (by omega), ok_bind]

lemma storeRecord_room {devsw : Nat → Devsw} {src : Block} (hstep : off % DIRENT = 0)
    {r : Int × Dinode × Bcache} (hr : storeRecord sb dnum devsw src off ip s = .ok r) :
    Stored ip.addrs s.view (off / BSIZE) ∨
      (ext2fsFreeBlock sb (s.view (bitmapOf sb s.view dnum))).isSome = true := by
  obtain ⟨x, s₁, hs₁, hrun⟩ := storeRecord_run devsw src hown h hoff hle
  rw [hrun] at hr
  obtain ⟨r₁, hr, -⟩ := bind_eq_ok.mp hr
  have hmul : off / BSIZE * BSIZE = off := by unfold BSIZE at *; omega
  exact hown.room (show Dinode.addrs { ip with size := off + BSIZE } = ip.addrs from rfl) hs₁
    (hown.block_cases h hstep hoff hle) (by omega)
    (fun bn hbn => h.reach bn (by unfold BSIZE at *; omega)) hr

/-- **What `ext2fs_dirlink` stores**, and that the bytes before it stay. -/
lemma storeRecord_eq (hstep : off % DIRENT = 0)
    (hroom : off = ip.size → Stored ip.addrs s.view (off / BSIZE) ∨
      (ext2fsFreeBlock sb (s.view (bitmapOf sb s.view dnum))).isSome = true) :
    ∃ ip' s', storeRecord sb dnum devsw src off ip s = .ok (0, ip', s') ∧
      Placed ip s.view off src ip' s'.view := by
  have hsize := hown.size_lt h
  have hb : BSIZE = 1024 := rfl
  obtain ⟨x, s₁, hs₁, hrun⟩ := storeRecord_run devsw src hown h hoff hle
  obtain ⟨b, addrs, s₂, hbmap, hloc⟩ := hown.locate h hstep hoff hle hroom
    (show Dinode.addrs { ip with size := off + BSIZE } = ip.addrs from rfl) hs₁
  rw [hrun, hbmap, ok_bind]
  refine ⟨_, _, rfl, ?_⟩
  rw [bwrite_view, touch_view]
  exact hloc.placed hoff h.dir rfl (by omega)

end Run

end Store

end Ext2Dir
