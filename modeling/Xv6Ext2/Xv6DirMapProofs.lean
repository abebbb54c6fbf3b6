import Xv6Ext2.SlotMapProofs
import Xv6Ext2.Xv6RunProofs

/-! # A directory of the root device is a finite map

    The records of a directory are slots: a record without an inode is free, the others
    hold the first `DIRSIZ` bytes of a name with an inode number.  The loops of
    `xv6fs_dirlookup` and `xv6fs_dirlink` look up a key and the first free slot, and the
    records that `xv6fs_dirlink` and `sys_unlink` store replace one slot. -/

namespace Xv6DirMap

open ByteBlock BufCache Param Outcome FileIo DirName SlotTable Xv6Alloc Xv6Inode Xv6Image Xv6Dir
  Icache Xv6Calls Runs Ext2Alloc

open Function (update update_comm update_of_ne update_self)

/-- The first `DIRSIZ` bytes of a name. -/
def key (name : List UInt8) : List UInt8 := strn (cstr name) DIRSIZ

/-- A record as a slot. -/
def entryOf (de : Block) : Option (List UInt8 × Nat) :=
  if deInum de = 0 then none else some (strn (deName de) DIRSIZ, deInum de)

def entries (ip : Dinode) (v : Disk) : List (Option (List UInt8 × Nat)) :=
  (records ip v).map entryOf

lemma entryOf_congr {de de' : Block} (h : ∀ k < DIRENT, de k = de' k) :
    entryOf de = entryOf de' := by
  have hinum : deInum de = deInum de' := getLE_congr (fun k _ hk => h k (by unfold DIRENT; omega))
  have hname : strn (deName de) DIRSIZ = strn (deName de') DIRSIZ :=
    strn_congr (fun k hk => h (2 + k) (by unfold DIRSIZ at hk; unfold DIRENT; omega))
  rw [entryOf, entryOf, hinum, hname]

/-- The test of `xv6fs_dirlookup`. -/
lemma holds_entryOf (name : List UInt8) (de : Block) :
    SlotMap.holds (key name) (entryOf de) = named name de := by
  unfold entryOf named
  by_cases h0 : deInum de = 0
  · rw [if_pos h0, h0]
    rfl
  have hne : (deInum de != 0) = true := by simpa using h0
  rw [if_neg h0, hne, Bool.true_and, SlotMap.holds, Option.any_some, namecmpEq]
  rw [Bool.eq_iff_iff, decide_eq_true_iff, strncmpEq_strn]
  exact eq_comm

lemma isNone_entryOf (de : Block) : (entryOf de).isNone = (deInum de == 0) := by
  unfold entryOf
  by_cases h0 : deInum de = 0
  · rw [if_pos h0, h0]
    rfl
  · rw [if_neg h0]
    simpa using h0

lemma entryOf_newDirent (name : List UInt8) {inum : Nat} (h0 : inum ≠ 0)
    (hlt : inum < 2 ^ 16) : entryOf (newDirent name inum) = some (key name, inum) := by
  have hinum : deInum (newDirent name inum) = inum := by
    rw [deInum, newDirent, getLE_putLE]
    exact Nat.mod_eq_of_lt hlt
  have hname : deName (newDirent name inum) = strncpyByte (cstr name) := by
    funext k
    rw [deName, newDirent, putLE_out (by omega), Nat.add_sub_cancel_left]
  rw [entryOf, hinum, hname, if_neg h0, strn_strncpyByte, key]

lemma entryOf_zero : entryOf (fun _ => 0) = none := by
  rw [entryOf, if_pos]
  exact getLE_zero (fun _ _ _ => rfl)

lemma length_entries (ip : Dinode) (v : Disk) : (entries ip v).length = ip.size / DIRENT := by
  rw [entries, List.length_map, records, List.length_map, List.length_range]

lemma getElem?_entries (ip : Dinode) (v : Disk) (n : Nat) :
    (entries ip v)[n]? = if n < ip.size / DIRENT then some (entryOf (record ip v n)) else none := by
  rw [entries, records, List.map_map, List.getElem?_map]
  by_cases h : n < ip.size / DIRENT
  · rw [if_pos h, List.getElem?_range h]
    rfl
  · rw [if_neg h, List.getElem?_eq_none (by rw [List.length_range]; omega)]
    rfl

lemma lookup_entries (name : List UInt8) (ip : Dinode) (v : Disk) :
    SlotMap.lookup (key name) (entries ip v) = ((records ip v).find? (named name)).map
        (fun de => ((records ip v).findIdx (named name), deInum de)) := by
  have hcomp : SlotMap.holds (key name) ∘ entryOf = named name :=
    funext (fun de => holds_entryOf name de)
  rw [SlotMap.lookup, entries, List.find?_map, List.findIdx_map, hcomp]
  cases hf : (records ip v).find? (named name) with
  | none => rfl
  | some de =>
    have hlive : deInum de ≠ 0 := by
      have hn := List.find?_some hf
      rw [named, Bool.and_eq_true] at hn
      simpa using hn.1
    rw [Option.map_some, Option.map_some, entryOf, if_neg hlive]
    rfl

lemma firstFree_entries (ip : Dinode) (v : Disk) :
    SlotMap.firstFree (entries ip v) = (records ip v).findIdx (fun de => deInum de == 0) := by
  rw [SlotMap.firstFree, entries, List.findIdx_map]
  exact congrArg (fun p => List.findIdx p (records ip v)) (funext isNone_entryOf)

/-! ## The loops over the records -/

section Device

variable {sb : Superblock} {dnum : Nat} {s : Bcache}

lemma scanFrom_all (devsw : Nat → Devsw) (msg : String) (stop : Block → Bool)
    (h : Consistent sb s.view) (hu : InUse sb (dinodeAt sb s.view) dnum)
    (hdir : (dinodeAt sb s.view dnum).type = T_DIR)
    (hsize : DIRENT ∣ (dinodeAt sb s.view dnum).size) :
    ∃ s', scanFrom sb devsw msg stop (dinodeAt sb s.view dnum).size 0 (dinodeAt sb s.view dnum) s =
        .ok ((DIRENT * (records (dinodeAt sb s.view dnum) s.view).findIdx stop,
          (records (dinodeAt sb s.view dnum) s.view).find? stop),
          dinodeAt sb s.view dnum, s') ∧ s'.view = s.view := by
  have hf : IsFile (dinodeAt sb s.view dnum) := .inr hdir
  have hle := size_le_max h hu hf
  have hlim : MAXFILE * BSIZE = 274432 := rfl
  have hwhole := Nat.mul_div_cancel' hsize
  obtain ⟨s', hview, hscan⟩ := scanFrom_held sb devsw msg stop hf.not_dev (by omega)
    (Nat.le_of_eq hwhole) (fun bn hbn => ((h.covers hu hf).block bn).mpr
      ((lt_blocks_iff _ _).mpr (by omega))) (dinodeAt sb s.view dnum).size 0 s rfl (Nat.zero_le _)
    (by rw [Nat.zero_add]; exact Nat.div_le_self _ _)
  refine ⟨s', ?_, hview⟩
  rw [Nat.mul_zero, Nat.zero_add, Nat.sub_zero, ← List.range_eq_range', ← records] at hscan
  rw [hscan]
  cases hfind : (records (dinodeAt sb s.view dnum) s.view).find? stop with
  | some de => rfl
  | none =>
    have hlast : (records (dinodeAt sb s.view dnum) s.view).findIdx stop =
        (dinodeAt sb s.view dnum).size / DIRENT := by
      rw [List.findIdx_eq_length_of_false (fun de hde => by
        simpa using List.find?_eq_none.mp hfind de hde), records, List.length_map,
        List.length_range]
    dsimp only
    rw [scanFrom_end devsw msg stop _ (Nat.le_of_eq hwhole.symm), hlast]

lemma dirSearch_eq (devsw : Nat → Devsw) (name : List UInt8) (h : Consistent sb s.view)
    (hu : InUse sb (dinodeAt sb s.view) dnum) (hdir : (dinodeAt sb s.view dnum).type = T_DIR)
    (hsize : DIRENT ∣ (dinodeAt sb s.view dnum).size) :
    ∃ s', dirSearch sb devsw name (dinodeAt sb s.view dnum) s =
        .ok ((DIRENT * (records (dinodeAt sb s.view dnum) s.view).findIdx (named name),
          (records (dinodeAt sb s.view dnum) s.view).find? (named name)),
          dinodeAt sb s.view dnum, s') ∧ s'.view = s.view := by
  rw [dirSearch, if_neg (not_not.mpr hdir)]
  exact scanFrom_all devsw _ (named name) h hu hdir hsize

lemma freeDirent_eq (devsw : Nat → Devsw) (h : Consistent sb s.view)
    (hu : InUse sb (dinodeAt sb s.view) dnum) (hdir : (dinodeAt sb s.view dnum).type = T_DIR)
    (hsize : DIRENT ∣ (dinodeAt sb s.view dnum).size) :
    ∃ de s', freeDirent sb devsw (dinodeAt sb s.view dnum) s =
        .ok ((DIRENT * SlotMap.firstFree (entries (dinodeAt sb s.view dnum) s.view), de),
          dinodeAt sb s.view dnum, s') ∧ s'.view = s.view := by
  rw [freeDirent, firstFree_entries]
  exact ⟨_, scanFrom_all devsw _ _ h hu hdir hsize⟩

/-! ## The records that are stored -/

/-- A record is stored in place of record `i`, or behind the last one. -/
lemma entries_of_written {v v' : Disk} {ip' : Dinode} {src : Nat → UInt8} {i : Nat}
    (h : Written sb dnum v ip' v' (DIRENT * i) DIRENT src)
    (hsize : DIRENT ∣ (dinodeAt sb v dnum).size) (hi : i ≤ (dinodeAt sb v dnum).size / DIRENT) :
    DIRENT ∣ ip'.size ∧
      entries ip' v' = SlotMap.store i (entryOf src) (entries (dinodeAt sb v dnum) v) := by
  have h16 : DIRENT = 16 := rfl
  obtain ⟨count, hcount⟩ : ∃ count, count = (dinodeAt sb v dnum).size / DIRENT := ⟨_, rfl⟩
  have hwhole : (dinodeAt sb v dnum).size = DIRENT * count := by
    rw [hcount, Nat.mul_div_cancel' hsize]
  rw [← hcount] at hi
  have hnew : max (dinodeAt sb v dnum).size (DIRENT * i + DIRENT) = DIRENT * max count (i + 1) := by
    rw [hwhole, h16]
    omega
  have hsize' : ip'.size = DIRENT * max count (i + 1) := by
    rw [← hnew, ← h.fields]
  have hcount' : ip'.size / DIRENT = max count (i + 1) := by
    rw [hsize']
    exact Nat.mul_div_cancel_left _ (by decide)
  refine ⟨⟨_, hsize'⟩, List.ext_getElem? (fun n => ?_)⟩
  rw [SlotMap.getElem?_store (by rw [length_entries, ← hcount]; exact hi), getElem?_entries,
    getElem?_entries, ← hcount, hcount']
  by_cases hn : n < max count (i + 1)
  · -- the bytes of record `n`
    have hbytes : ∀ k < DIRENT, record ip' v' n k =
        if n = i then src k else fileByte (dinodeAt sb v dnum) v (DIRENT * n + k) := by
      intro k hk
      rw [record, if_pos hk, h.bytes _ (by rw [hnew, h16]; omega)]
      by_cases hni : n = i
      · rw [if_pos (by rw [hni, h16]; omega), if_pos hni, hni, Nat.add_sub_cancel_left]
      · rw [if_neg (by rw [h16]; omega), if_neg hni]
    rw [if_pos hn]
    by_cases hni : n = i
    · rw [if_pos hni]
      refine congrArg some (entryOf_congr (fun k hk => ?_))
      rw [hbytes k hk, if_pos hni]
    rw [if_neg hni, if_pos (by omega)]
    refine congrArg some (entryOf_congr (fun k hk => ?_))
    rw [hbytes k hk, if_neg hni, record, if_pos hk]
  · rw [if_neg hn, if_neg (by omega), if_neg (by omega)]

/-- A directory can take one more record behind its last one. -/
def CanGrow (sb : Superblock) (v : Disk) (ip : Dinode) : Prop :=
  ip.size + DIRENT ≤ MAXFILE * BSIZE ∧
    need (blocks ip.size) (blocks (ip.size + DIRENT)) ≤ freeBlocks sb v

/-- One record is written, in place of another one or behind the last. -/
lemma writei_record (hl : Layout sb) (devsw : Nat → Devsw) (src : Nat → UInt8) {i : Nat}
    (h : Consistent sb s.view) (hu : InUse sb (dinodeAt sb s.view) dnum)
    (hdir : (dinodeAt sb s.view dnum).type = T_DIR)
    (hsize : DIRENT ∣ (dinodeAt sb s.view dnum).size)
    (hi : i ≤ (dinodeAt sb s.view dnum).size / DIRENT)
    (hroom : i = (dinodeAt sb s.view dnum).size / DIRENT →
      CanGrow sb s.view (dinodeAt sb s.view dnum)) :
    ∃ ip' s', xv6fsWritei sb dnum devsw (dinodeAt sb s.view dnum) src (DIRENT * i) DIRENT s =
        .ok ((DIRENT : Int), ip', s') ∧
      Written sb dnum s.view ip' s'.view (DIRENT * i) DIRENT src := by
  have h16 : DIRENT = 16 := rfl
  have hmax := size_le_max h hu (.inr hdir)
  have hwhole := Nat.mul_div_cancel' hsize
  have hoff : DIRENT * i ≤ (dinodeAt sb s.view dnum).size := by
    rw [← hwhole]
    exact Nat.mul_le_mul_left _ hi
  have hfits : DIRENT * i + DIRENT ≤ MAXFILE * BSIZE ∧ need (blocks (dinodeAt sb s.view dnum).size)
        (blocks (max (dinodeAt sb s.view dnum).size (DIRENT * i + DIRENT))) ≤
          freeBlocks sb s.view := by
    by_cases he : i = (dinodeAt sb s.view dnum).size / DIRENT
    · obtain ⟨h1, h2⟩ := hroom he
      have hend : DIRENT * i = (dinodeAt sb s.view dnum).size := by rw [he, hwhole]
      rw [hend, Nat.max_eq_right (Nat.le_add_right _ _)]
      exact ⟨h1, h2⟩
    have hin : DIRENT * i + DIRENT ≤ (dinodeAt sb s.view dnum).size := by
      rw [h16] at *
      omega
    rw [Nat.max_eq_left hin, need_self]
    exact ⟨hin.trans hmax, Nat.zero_le _⟩
  obtain ⟨⟨r, ip', s'⟩, hcall, hr, hw⟩ := ((writei_sat hl devsw src h hu (.inr hdir) hoff
    hfits.1).mono (fun r hr => hr) (by
      rintro e ⟨-, hlt⟩
      have := hfits.2
      omega)).exists_ok
  dsimp only at hr hw
  rw [hr] at hcall
  exact ⟨ip', s', hcall, hw⟩

/-- **`xv6fs_dirlink` of a new name** adds its key to the slots. -/
lemma addDirent_eq (hl : Layout sb) (devsw : Nat → Devsw) (name : List UInt8) {inum : Nat}
    (h0 : inum ≠ 0) (hlt : inum < 2 ^ 16)
    (h : Consistent sb s.view) (hu : InUse sb (dinodeAt sb s.view) dnum)
    (hdir : (dinodeAt sb s.view dnum).type = T_DIR)
    (hsize : DIRENT ∣ (dinodeAt sb s.view dnum).size)
    (hroom : SlotMap.firstFree (entries (dinodeAt sb s.view dnum) s.view) =
        (dinodeAt sb s.view dnum).size / DIRENT → CanGrow sb s.view (dinodeAt sb s.view dnum)) :
    ∃ ip' s', addDirent sb devsw name inum dnum (dinodeAt sb s.view dnum) s = .ok (0, ip', s') ∧
      Kept sb dnum s.view ip' s'.view ∧ DIRENT ∣ ip'.size ∧ entries ip' s'.view =
        SlotMap.insert (key name) inum (entries (dinodeAt sb s.view dnum) s.view) := by
  obtain ⟨de, s1, hfree, hview⟩ := freeDirent_eq devsw h hu hdir hsize
  have hle : SlotMap.firstFree (entries (dinodeAt sb s.view dnum) s.view) ≤
      (dinodeAt sb s.view dnum).size / DIRENT :=
    (SlotMap.firstFree_le _).trans (Nat.le_of_eq (length_entries _ _))
  rw [← hview] at h hu hdir hsize hroom hle
  obtain ⟨ip', s', hwrite, hw⟩ := writei_record hl devsw (newDirent name inum) h hu hdir hsize hle
    hroom
  obtain ⟨hsize', hentries⟩ := entries_of_written hw hsize hle
  rw [hview] at hwrite hw hentries
  refine ⟨ip', s', ?_, hw.kept, hsize', ?_⟩
  · rw [addDirent, hfree, ok_bind]
    dsimp only
    rw [hwrite, ok_bind]
    dsimp only
    rw [if_neg (fun hne => hne rfl)]
  · rw [hentries, entryOf_newDirent name h0 hlt, SlotMap.insert]

end Device

/-! ## Calls on the entry of a directory -/

section Entry

variable {sb : Superblock} {st : Cache} {a : Nat}

variable {st' : Cache}

lemma freeXv6_congr
    (h : ∀ i, (st'.xv6fsAddrs i).busy = (st.xv6fsAddrs i).busy) : st'.freeXv6 = st.freeXv6 := by
  rw [Cache.freeXv6, Cache.freeXv6]
  simp only [h]

variable {b : Nat}

lemma onEntry_recycle {α : Type} (f : Nat → Dinode → Bcache → Except Err (α × Dinode × Bcache))
    {i : Nat} (dev inum : Nat) (hab : a ≠ b) (hp : (st.inode a).addrs = some (.xv6fs i))
    (hi : i ≠ st.freeXv6) {r : α} (hcall : onEntry f a st = .ok (r, st')) :
    onEntry f a (st.recycle b dev inum .xv6fs (.xv6fs st.freeXv6)) =
      .ok (r, st'.recycle b dev inum .xv6fs (.xv6fs st'.freeXv6)) := by
  rw [onEntry, hp] at hcall
  obtain ⟨⟨r', d, bc⟩, hf, hres⟩ := bind_eq_ok.mp hcall
  obtain ⟨rfl, rfl⟩ := ok_pair_inj hres
  have hfree : (((st.setDevice .xv6fs bc).setSlot (.xv6fs i)
      { st.slot (.xv6fs i) with addrs := d.addrs }).setInode a
        ((st.inode a).load d)).freeXv6 = st.freeXv6 := by
    refine freeXv6_congr (fun j => ?_)
    show (update st.xv6fsAddrs i _ j).busy = _
    by_cases hj : j = i
    · rw [hj, update_self]
      rfl
    · rw [update_of_ne hj]
  have hslot : (st.recycle b dev inum .xv6fs (.xv6fs st.freeXv6)).slot (.xv6fs i) =
      st.slot (.xv6fs i) := by
    rw [Cache.recycle, setSlot_slot_of_ne, setInode_slot]
    exact fun e => hi (AddrPtr.xv6fs.inj e)
  have hroot : (st.recycle b dev inum .xv6fs (.xv6fs st.freeXv6)).root = st.root := rfl
  rw [onEntry, recycle_inode, update_of_ne hab, hp]
  dsimp only
  rw [hslot, hroot, hf, ok_bind, hfree]
  refine congrArg (fun x => Except.ok (r', x)) ?_
  unfold Cache.recycle Cache.setInode Cache.setSlot Cache.setDevice Cache.slot
  dsimp only
  rw [update_of_ne hab.symm, update_of_ne hi.symm, update_comm hab, update_comm hi]

/-- `iput` of an entry that has other references, or was never locked, frees nothing. -/
lemma iput_keeps (esb : Ext2Super)
    (hcall : iput sb esb b st = .ok st') (hiops : (st.inode b).iops = some .xv6fs)
    (hkeep : (st.inode b).ref ≠ 1 ∨ (st.inode b).valid = false) :
    st'.root = st.root ∧ ∀ c, c ≠ b → st'.inode c = st.inode c := by
  rw [iput, hiops] at hcall
  rcases iputWith_ok hcall with ⟨-, rfl⟩ | ⟨hone, p, -, ⟨-, rfl⟩ | ⟨d, bc, hv, -, -, -⟩⟩
  · exact ⟨rfl, fun c hc => update_of_ne hc _ _⟩
  · refine ⟨by rw [setInode_root, setSlot_root], fun c hc => ?_⟩
    rw [setInode_inode, setSlot_inode, update_of_ne hc]
  · rcases hkeep with hne | hfalse
    · exact absurd hone hne
    · rw [hv] at hfalse
      cases hfalse

/-- The inode cache has an entry of the inode, or a free one. -/
def CanGet (st : Cache) (inum : Nat) : Prop :=
  ∃ b < NINODE, (st.inode b).is ROOTDEV inum = true ∨ (st.inode b).ref = 0

variable {inum : Nat}

lemma iget_of_canGet (h : CanGet st inum) : ∃ b st', iget ROOTDEV inum st = .ok (b, st') := by
  obtain ⟨b, hb, hcase⟩ := h
  rw [iget]
  cases hc : firstFrom (fun a => (st.inode a).is ROOTDEV inum) NINODE 0 with
  | some c => exact ⟨_, _, rfl⟩
  | none =>
    dsimp only
    cases hu : firstFrom (fun a => decide ((st.inode a).ref = 0)) NINODE 0 with
    | some c =>
      dsimp only
      rw [if_pos rfl]
      exact ⟨_, _, rfl⟩
    | none =>
      have hmiss := firstFrom_none hc b (Nat.zero_le b) (by omega)
      have hbusy := of_decide_eq_false (firstFrom_none hu b (Nat.zero_le b) (by omega))
      rcases hcase with h1 | h2
      · rw [hmiss] at h1
        cases h1
      · exact absurd h2 hbusy

lemma iget_ne (ha : 0 < (st.inode a).ref)
    (hne : inum ≠ (st.inode a).inum) (h : iget ROOTDEV inum st = .ok (b, st')) : b ≠ a := by
  rintro rfl
  have hcases := (iget_root_sat inum st).of_ok h
  dsimp only at hcases
  omega

/-- What is left of a cache after a call on the directory of entry `a` that changes no contents. -/
structure Steady (sb : Superblock) (a : Nat) (st st' : Cache) : Prop where
  sync  : Sync sb st'
  view  : st'.root.view = st.root.view
  entry : SameEntry (st.inode a) (st'.inode a)

lemma Steady.trans {st₁ st₂ : Cache} (h : Steady sb a st st₁) (h' : Steady sb a st₁ st₂) :
    Steady sb a st st₂ := by
  obtain ⟨-, hview, hd, hi, hr, hv, ht⟩ := h
  obtain ⟨hsync, hview', hd', hi', hr', hv', ht'⟩ := h'
  exact ⟨hsync, hview'.trans hview, hd'.trans hd, hi'.trans hi, hr'.trans hr, hv'.trans hv,
    ht'.trans ht⟩

/-- An inode is fetched and put back. -/
lemma iget_iput_steady (hl : Layout sb) (esb : Ext2Super) {st1 : Cache}
    (h : Sync sb st) (hget : iget ROOTDEV inum st = .ok (b, st1)) (hba : b ≠ a) :
    ∃ st2, iput sb esb b st1 = .ok st2 ∧ Steady sb a st st2 := by
  obtain ⟨st2, hput, hsync⟩ := ((h.iget_iput hl esb inum).of_ok hget).exists_ok
  have hcases := (iget_root_sat inum st).of_ok hget
  dsimp only at hput hcases
  suffices hkeep : st2.root.view = st.root.view ∧ SameEntry (st.inode a) (st2.inode a) from
    ⟨st2, hput, hsync, hkeep.1, hkeep.2⟩
  obtain ⟨hb, ⟨hr, -, -, rfl⟩ | ⟨-, -, rfl⟩⟩ := hcases
  · obtain ⟨hiops, -⟩ := h.entry hb hr
    obtain ⟨hroot, hothers⟩ := iput_keeps esb hput (by rw [setInode_self]; exact hiops)
      (.inl (by rw [setInode_self]; dsimp only; omega))
    rw [hroot, hothers a hba.symm, setInode_inode, update_of_ne hba.symm]
    exact ⟨rfl, rfl, rfl, rfl, rfl, rfl⟩
  · obtain ⟨hroot, hothers⟩ := iput_keeps esb hput (by rw [recycle_self])
      (.inr (by rw [recycle_self]))
    rw [hroot, hothers a hba.symm, recycle_inode, update_of_ne hba.symm]
    exact ⟨rfl, rfl, rfl, rfl, rfl, rfl⟩

/-- An inode is fetched, a call on entry `a` made, and the inode put back. -/
lemma iget_call_iput (hl : Layout sb) (esb : Ext2Super) {α : Type}
    {f : Nat → Dinode → Bcache → Except Err (α × Dinode × Bcache)} {r : α} {d : Dinode}
    {bc : Bcache} (h : Sync sb st) (hlock : Locked st a)
    (hf : f (st.inode a).inum (dinodeAt sb st.root.view (st.inode a).inum) st.root =
      .ok (r, d, bc)) (hkept : Kept sb (st.inode a).inum st.root.view d bc.view) {st1 : Cache}
    (hget : iget ROOTDEV inum st = .ok (b, st1)) (hba : b ≠ a) :
    ∃ st2 st3, onEntry f a st1 = .ok (r, st2) ∧ iput sb esb b st2 = .ok st3 ∧ Sync sb st3 ∧
      st3.root = bc ∧ SameEntry (st.inode a) (st3.inode a) := by
  obtain ⟨⟨ha, hr⟩, hv⟩ := hlock
  have hcases := (iget_root_sat inum st).of_ok hget
  dsimp only at hcases
  obtain ⟨hb, ⟨hbr, -, -, rfl⟩ | ⟨-, hunused, rfl⟩⟩ := hcases
  · -- the inode was cached: it has a second reference now
    have h1 : Sync sb (st.setInode b { st.inode b with ref := (st.inode b).ref + 1 }) :=
      h.setRef hb hbr (Nat.succ_pos _)
    have hsame : (st.setInode b { st.inode b with ref := (st.inode b).ref + 1 }).inode a =
        st.inode a := by
      rw [setInode_inode, update_of_ne hba.symm]
    have hlock1 : Locked (st.setInode b { st.inode b with ref := (st.inode b).ref + 1 }) a := by
      refine ⟨⟨ha, ?_⟩, ?_⟩
      · rw [hsame]; exact hr
      · rw [hsame]; exact hv
    obtain ⟨st2, hcall, h2, hroot2, hentry2, hothers2⟩ := h1.onEntry_eq hlock1
      (by rw [hsame]; exact hf) (by rw [hsame]; exact hkept)
    have hb2 : st2.inode b = { st.inode b with ref := (st.inode b).ref + 1 } := by
      rw [hothers2 b hba, setInode_self]
    have href2 : Referenced st2 b := ⟨hb, by rw [hb2]; exact Nat.succ_pos _⟩
    obtain ⟨st3, hput, h3⟩ := (h2.iput hl esb href2).exists_ok
    obtain ⟨hroot3, hothers3⟩ := iput_keeps esb hput (h2.entry hb href2.2).1
      (.inl (by rw [hb2]; dsimp only; omega))
    refine ⟨st2, st3, hcall, hput, h3, by rw [hroot3, hroot2], ?_⟩
    rw [hothers3 a hba.symm]
    rwa [hsame] at hentry2
  · -- an entry was recycled: it is as if that were done after the call
    obtain ⟨st2, hcall, h2, hroot2, hentry2, hothers2⟩ := h.onEntry_eq ⟨⟨ha, hr⟩, hv⟩ hf hkept
    obtain ⟨-, i, hp⟩ := h.entry ha hr
    have hi : i ≠ st.freeXv6 := fun e => h.freeXv6_ne hb hunused ha hr hp (by rw [e])
    have hcall' := onEntry_recycle f ROOTDEV inum hba.symm hp hi hcall
    have hunused2 : (st2.inode b).ref = 0 := by rw [hothers2 b hba]; exact hunused
    obtain ⟨st3, hput, h3⟩ := (h2.recycle_iput esb hb hunused2
      (h2.cache.recycle_root hb hunused2 inum)).exists_ok
    obtain ⟨hroot3, hothers3⟩ := iput_keeps esb hput (by rw [recycle_self])
      (.inr (by rw [recycle_self]))
    refine ⟨_, st3, hcall', hput, h3, by rw [hroot3]; exact hroot2, ?_⟩
    rwa [hothers3 a hba.symm, recycle_inode, update_of_ne hba.symm]

end Entry

/-! ## Runs -/

/-- The clearing of `sys_unlink`: the record of the name is overwritten with zeros, and the
    inode that was found is put back.  It is locked while the directory is. -/
def clearEntry (sb : Superblock) (esb : Ext2Super) (devsw : Nat → Devsw) (name : List UInt8)
    (a : Nat) (st : Cache) : Except Err (Int × Cache) := do
  let (found, st) ← xv6fsDirlookup sb devsw name a st
  match found with
  | none => .ok (-1, st)
  | some (off, b) =>
    if b = a then .error .deadlock
    else do
      let (r, st) ← writeEntry sb devsw a (fun _ => 0) off DIRENT st
      if r ≠ (DIRENT : Int) then .error (.panic "unlink: writei")
      else do
        let st ← iput sb esb b st
        .ok (0, st)

inductive Op where
  | dirlink (name : List UInt8) (inum : Nat)
  | clear (name : List UInt8)

/-- The call on the directory of entry `a`. -/
def opCall (sb : Superblock) (esb : Ext2Super) (devsw : Nat → Devsw) (a : Nat) (st : Cache) :
    Op → Except Err (Int × Cache)
  | .dirlink name inum => xv6fsDirlink sb esb devsw name inum a st
  | .clear name => clearEntry sb esb devsw name a st

def opStep (sb : Superblock) (esb : Ext2Super) (devsw : Nat → Devsw) (a : Nat) (st : Cache)
    (op : Op) : Except Err Cache :=
  Prod.snd <$> opCall sb esb devsw a st op

/-- The slots of the directory of entry `a`. -/
def slots (sb : Superblock) (a : Nat) (st : Cache) : List (Option (List UInt8 × Nat)) :=
  entries (dinodeAt sb st.root.view (st.inode a).inum) st.root.view

/-- The caller has locked a directory that ends with a whole record and has distinct keys. -/
structure Directory (sb : Superblock) (a : Nat) (st : Cache) : Prop where
  sync     : Sync sb st
  lock     : Locked st a
  type     : (dinodeAt sb st.root.view (st.inode a).inum).type = T_DIR
  whole    : DIRENT ∣ (dinodeAt sb st.root.view (st.inode a).inum).size
  distinct : SlotMap.Distinct (slots sb a st)

/-- A key that the directory has is not bound to the directory itself, and the inode cache
    can hold its inode; a new key has an inode number, and a slot or space for one. -/
def Fits (sb : Superblock) (a : Nat) (st : Cache) : Op → Prop
  | .dirlink name inum => (0 < inum ∧ inum < 2 ^ 16) ∧
      match SlotMap.lookup (key name) (slots sb a st) with
      | some (_, j) => j ≠ (st.inode a).inum ∧ CanGet st j
      | none => SlotMap.firstFree (slots sb a st) = (slots sb a st).length →
          CanGrow sb st.root.view (dinodeAt sb st.root.view (st.inode a).inum)
  | .clear name =>
    match SlotMap.lookup (key name) (slots sb a st) with
    | some (_, j) => j ≠ (st.inode a).inum ∧ CanGet st j
    | none => True

/-- The directory as a finite map. -/
def bindings (sb : Superblock) (a : Nat) (st : Cache) (k : List UInt8) : Option Nat :=
  (SlotMap.lookup k (slots sb a st)).map Prod.snd

def mapStep (m : List UInt8 → Option Nat) : Op → List UInt8 → Option Nat
  | .dirlink name inum =>
    if (m (key name)).isSome then m else update m (key name) (some inum)
  | .clear name => update m (key name) none

/-- What a change of the directory does: `st'` is the state after it, `r` its result. -/
def OpDone (sb : Superblock) (a : Nat) (st : Cache) (r : Int) (st' : Cache) : Op → Prop
  | .dirlink name inum =>
    match SlotMap.lookup (key name) (slots sb a st) with
    | some _ => r = -1 ∧ st'.root.view = st.root.view ∧ slots sb a st' = slots sb a st
    | none => r = 0 ∧
        (∀ k, SlotMap.lookup k (slots sb a st') = if k = key name
          then some (SlotMap.firstFree (slots sb a st), inum)
          else SlotMap.lookup k (slots sb a st)) ∧
        (none ∈ slots sb a st → (slots sb a st').length = (slots sb a st).length)
  | .clear name =>
    (r = 0 ↔ (SlotMap.lookup (key name) (slots sb a st)).isSome = true) ∧
    ∀ k, SlotMap.lookup k (slots sb a st') =
      if k = key name then none else SlotMap.lookup k (slots sb a st)

/-- `xv6fs_dirlookup` returns the inode that the map has for the key, and the offset of the
    record. -/
def LookupRight (sb : Superblock) (devsw : Nat → Devsw) (a : Nat) (st : Cache)
    (name : List UInt8) : Prop :=
  match SlotMap.lookup (key name) (slots sb a st) with
  | none => ∃ st', xv6fsDirlookup sb devsw name a st = .ok (none, st') ∧
      st'.root.view = st.root.view
  | some (i, j) => CanGet st j →
      ∃ b st', xv6fsDirlookup sb devsw name a st = .ok (some (DIRENT * i, b), st') ∧
        st'.root.view = st.root.view ∧ Referenced st' b ∧
        (st'.inode b).dev = ROOTDEV ∧ (st'.inode b).inum = j

section Map

variable {sb : Superblock} {st : Cache} {a : Nat}

variable {st' : Cache}

lemma Steady.directory (h : Directory sb a st) (hs : Steady sb a st st') :
    Directory sb a st' ∧ slots sb a st' = slots sb a st := by
  obtain ⟨hsync, hview, hdev, hinum, href, hvalid, htype⟩ := hs
  have hslots : slots sb a st' = slots sb a st := by rw [slots, slots, hview, hinum]
  refine ⟨⟨hsync, ⟨⟨h.lock.1.1, ?_⟩, ?_⟩, ?_, ?_, ?_⟩, hslots⟩
  · rw [href]; exact h.lock.1.2
  · rw [hvalid]; exact h.lock.2
  · rw [hview, hinum]; exact h.type
  · rw [hview, hinum]; exact h.whole
  · rw [hslots]; exact h.distinct

lemma Directory.inUse (h : Directory sb a st) :
    InUse sb (dinodeAt sb st.root.view) (st.inode a).inum :=
  h.sync.inUse h.lock.1.1 h.lock.1.2 h.lock.2

lemma length_slots (sb : Superblock) (a : Nat) (st : Cache) : (slots sb a st).length =
    (dinodeAt sb st.root.view (st.inode a).inum).size / DIRENT := length_entries _ _

/-- The search in the directory. -/
lemma Directory.search (h : Directory sb a st) (devsw : Nat → Devsw) (name : List UInt8) :
    ∃ off de st', onEntry (fun _ => dirSearch sb devsw name) a st = .ok ((off, de), st') ∧
      Steady sb a st st' ∧ (∀ j, CanGet st j → CanGet st' j) ∧
      SlotMap.lookup (key name) (slots sb a st) = de.map (fun de => (off / DIRENT, deInum de)) ∧
      DIRENT ∣ off := by
  obtain ⟨s', hsearch, hview⟩ := dirSearch_eq devsw name h.sync.image h.inUse h.type h.whole
  obtain ⟨st', hcall, hsync, hroot, hentry, hothers⟩ := h.sync.onEntry_eq
    (f := fun _ => dirSearch sb devsw name) h.lock hsearch (Kept.of_view h.sync.image hview)
  refine ⟨_, _, st', hcall, ⟨hsync, by rw [hroot, hview], hentry⟩, ?_, ?_, Nat.dvd_mul_right _ _⟩
  · rintro j ⟨b, hb, hcase⟩
    refine ⟨b, hb, ?_⟩
    by_cases hba : b = a
    · obtain ⟨hdev, hinum, href, -, -⟩ := hentry
      rw [hba] at hcase ⊢
      rwa [Inode.is, hdev, hinum, href]
    · rwa [hothers b hba]
  · rw [slots, lookup_entries, Nat.mul_div_cancel_left _ (by decide)]

lemma Directory.dev (h : Directory sb a st) : (st.inode a).dev = ROOTDEV :=
  (h.sync.root a h.lock.1.1 h.lock.1.2).1

variable {name : List UInt8}

lemma Directory.dirlookup_none (h : Directory sb a st) (devsw : Nat → Devsw)
    (hk : SlotMap.lookup (key name) (slots sb a st) = none) :
    ∃ st', xv6fsDirlookup sb devsw name a st = .ok (none, st') ∧ Steady sb a st st' := by
  obtain ⟨off, de, st', hcall, hsteady, -, hfound, -⟩ := h.search devsw name
  rw [hk] at hfound
  cases de with
  | some de => cases hfound
  | none =>
    refine ⟨st', ?_, hsteady⟩
    rw [xv6fsDirlookup, hcall, ok_bind]

variable {i j : Nat}

lemma Directory.dirlookup_some (h : Directory sb a st) (devsw : Nat → Devsw)
    (hk : SlotMap.lookup (key name) (slots sb a st) = some (i, j)) (hget : CanGet st j) :
    ∃ st1 b st', Steady sb a st st1 ∧ iget ROOTDEV j st1 = .ok (b, st') ∧
      xv6fsDirlookup sb devsw name a st = .ok (some (DIRENT * i, b), st') := by
  obtain ⟨off, de, st1, hcall, hsteady, hroom, hfound, hdvd⟩ := h.search devsw name
  rw [hk] at hfound
  cases de with
  | none => cases hfound
  | some de =>
    obtain ⟨rfl, rfl⟩ := Prod.mk.inj (Option.some.inj hfound)
    obtain ⟨b, st', higet⟩ := iget_of_canGet (hroom _ hget)
    refine ⟨st1, b, st', hsteady, higet, ?_⟩
    rw [xv6fsDirlookup, hcall, ok_bind]
    dsimp only
    rw [(hsteady.directory h).1.dev, higet, ok_bind, Nat.mul_div_cancel' hdvd]

lemma Directory.lookupRight (h : Directory sb a st) (devsw : Nat → Devsw) (name : List UInt8) :
    LookupRight sb devsw a st name := by
  unfold LookupRight
  cases hk : SlotMap.lookup (key name) (slots sb a st) with
  | none =>
    obtain ⟨st', hcall, hsteady⟩ := h.dirlookup_none devsw hk
    exact ⟨st', hcall, hsteady.view⟩
  | some r =>
    obtain ⟨i, j⟩ := r
    intro hget
    obtain ⟨st1, b, st', hsteady, higet, hcall⟩ := h.dirlookup_some devsw hk hget
    have hcases := (iget_root_sat j st1).of_ok higet
    dsimp only at hcases
    refine ⟨b, st', hcall, ?_⟩
    obtain ⟨hb, ⟨-, hdev, hinum, rfl⟩ | ⟨-, -, rfl⟩⟩ := hcases
    · rw [setInode_root]
      refine ⟨hsteady.view, ⟨hb, ?_⟩, ?_⟩
      · rw [setInode_self]
        exact Nat.succ_pos _
      · rw [setInode_self]
        exact ⟨hdev, hinum⟩
    · refine ⟨hsteady.view, ⟨hb, ?_⟩, ?_⟩
      · rw [recycle_self]
        exact Nat.one_pos
      · rw [recycle_self]
        exact ⟨rfl, rfl⟩

lemma Directory.of_kept (h : Directory sb a st) {ip' : Dinode}
    (hkept : Kept sb (st.inode a).inum st.root.view ip' st'.root.view) (hsync : Sync sb st')
    (hentry : SameEntry (st.inode a) (st'.inode a)) (hwhole : DIRENT ∣ ip'.size)
    (hdistinct : SlotMap.Distinct (entries ip' st'.root.view)) :
    Directory sb a st' ∧ slots sb a st' = entries ip' st'.root.view := by
  obtain ⟨hdev, hinum, href, hvalid, htype⟩ := hentry
  have hslots : slots sb a st' = entries ip' st'.root.view := by
    rw [slots, hinum, hkept.stored]
  refine ⟨⟨hsync, ⟨⟨h.lock.1.1, ?_⟩, ?_⟩, ?_, ?_, ?_⟩, hslots⟩
  · rw [href]; exact h.lock.1.2
  · rw [hvalid]; exact h.lock.2
  · rw [hinum, hkept.stored, hkept.type]; exact h.type
  · rw [hinum, hkept.stored]; exact hwhole
  · rw [hslots]; exact hdistinct

/-- `xv6fs_dirlink` of a key that is there, for another inode than the directory. -/
lemma Directory.dirlink_bound (hl : Layout sb) (esb : Ext2Super) (devsw : Nat → Devsw)
    (h : Directory sb a st) (hk : SlotMap.lookup (key name) (slots sb a st) = some (i, j))
    (hne : j ≠ (st.inode a).inum) (hget : CanGet st j) (inum : Nat) :
    ∃ st', xv6fsDirlink sb esb devsw name inum a st = .ok (-1, st') ∧ Steady sb a st st' := by
  obtain ⟨st1, b, st2, hs1, higet, hcall⟩ := h.dirlookup_some devsw hk hget
  have h1 := (hs1.directory h).1
  have hba : b ≠ a := iget_ne h1.lock.1.2 (by rw [hs1.entry.2.1]; exact hne) higet
  obtain ⟨st3, hput, hs3⟩ := iget_iput_steady (a := a) hl esb h1.sync higet hba
  refine ⟨st3, ?_, hs1.trans hs3⟩
  rw [xv6fsDirlink, hcall, ok_bind]
  dsimp only
  rw [if_neg hba, hput, ok_bind]

lemma Directory.dirlink_new (hl : Layout sb) (esb : Ext2Super) (devsw : Nat → Devsw)
    (h : Directory sb a st) {inum : Nat} (h0 : 0 < inum) (hlt : inum < 2 ^ 16)
    (hk : SlotMap.lookup (key name) (slots sb a st) = none)
    (hroom : SlotMap.firstFree (slots sb a st) = (slots sb a st).length →
      CanGrow sb st.root.view (dinodeAt sb st.root.view (st.inode a).inum)) :
    ∃ st', xv6fsDirlink sb esb devsw name inum a st = .ok (0, st') ∧ Directory sb a st' ∧
      slots sb a st' = SlotMap.insert (key name) inum (slots sb a st) := by
  obtain ⟨st1, hcall, hs1⟩ := h.dirlookup_none devsw hk
  obtain ⟨h1, hslots⟩ := hs1.directory h
  rw [← hslots, length_slots] at hroom
  rw [← hslots] at hk ⊢
  rw [← hs1.view, ← hs1.entry.2.1] at hroom
  obtain ⟨ip', s', hadd, hkept, hwhole, hentries⟩ := addDirent_eq hl devsw name
    (Nat.ne_of_gt h0) hlt h1.sync.image h1.inUse h1.type h1.whole hroom
  obtain ⟨st2, hentry, hsync, hroot, hsame, -⟩ := h1.sync.onEntry_eq
    (f := fun dnum => addDirent sb devsw name inum dnum) h1.lock hadd hkept
  rw [← hroot] at hkept hentries
  have hins : entries ip' st2.root.view =
      SlotMap.insert (key name) inum (slots sb a st1) := hentries
  obtain ⟨h2, hslots2⟩ := h1.of_kept hkept hsync hsame hwhole
    (by rw [hins]; exact h1.distinct.insert hk inum)
  refine ⟨st2, ?_, h2, hslots2.trans hins⟩
  rwa [xv6fsDirlink, hcall, ok_bind]

lemma Directory.clear_bound (hl : Layout sb) (esb : Ext2Super) (devsw : Nat → Devsw)
    (h : Directory sb a st) (hk : SlotMap.lookup (key name) (slots sb a st) = some (i, j))
    (hne : j ≠ (st.inode a).inum) (hget : CanGet st j) :
    ∃ st', clearEntry sb esb devsw name a st = .ok (0, st') ∧ Directory sb a st' ∧
      slots sb a st' = SlotMap.erase (key name) (slots sb a st) := by
  obtain ⟨st1, b, st2, hs1, higet, hcall⟩ := h.dirlookup_some devsw hk hget
  obtain ⟨h1, hslots⟩ := hs1.directory h
  have hba : b ≠ a := iget_ne h1.lock.1.2 (by rw [hs1.entry.2.1]; exact hne) higet
  rw [← hslots] at hk ⊢
  have hi : i < (dinodeAt sb st1.root.view (st1.inode a).inum).size / DIRENT := by
    rw [← length_slots]
    exact SlotMap.lt_of_lookup hk
  obtain ⟨ip', s', hwrite, hw⟩ := writei_record hl devsw (fun _ => 0) h1.sync.image h1.inUse
    h1.type h1.whole hi.le (fun e => absurd e (Nat.ne_of_lt hi))
  obtain ⟨hwhole, hentries⟩ := entries_of_written hw h1.whole hi.le
  obtain ⟨st3, st4, hentry, hput, hsync, hroot, hsame⟩ := iget_call_iput hl esb
    (f := fun inum ip s => xv6fsWritei sb inum devsw ip (fun _ => 0) (DIRENT * i) DIRENT s)
    h1.sync h1.lock hwrite hw.kept higet hba
  have hkept := hw.kept
  rw [← hroot] at hkept hentries
  have hers : entries ip' st4.root.view = SlotMap.erase (key name) (slots sb a st1) := by
    rw [hentries, entryOf_zero, SlotMap.erase, hk]
    rfl
  obtain ⟨h4, hslots4⟩ := h1.of_kept hkept hsync hsame hwhole
    (by rw [hers]; exact h1.distinct.erase _)
  refine ⟨st4, ?_, h4, hslots4.trans hers⟩
  have hwrite' : writeEntry sb devsw a (fun _ => 0) (DIRENT * i) DIRENT st2 =
      .ok ((DIRENT : Int), st3) := hentry
  rw [clearEntry, hcall, ok_bind]
  dsimp only
  rw [if_neg hba, hwrite', ok_bind]
  dsimp only
  rw [if_neg (fun hne => hne rfl), hput, ok_bind]

/-- **One change** of a directory. -/
lemma Directory.op (hl : Layout sb) (esb : Ext2Super) (devsw : Nat → Devsw)
    (h : Directory sb a st) {op : Op} (hfits : Fits sb a st op) :
    ∃ r st', opCall sb esb devsw a st op = .ok (r, st') ∧ Directory sb a st' ∧
      OpDone sb a st r st' op := by
  cases op with
  | dirlink name inum =>
    obtain ⟨⟨h0, hlt⟩, hcase⟩ := hfits
    unfold OpDone
    dsimp only
    cases hk : SlotMap.lookup (key name) (slots sb a st) with
    | some r =>
      obtain ⟨i, j⟩ := r
      rw [hk] at hcase
      obtain ⟨st', hcall, hs⟩ := h.dirlink_bound hl esb devsw hk hcase.1 hcase.2 inum
      obtain ⟨h', hslots⟩ := hs.directory h
      exact ⟨-1, st', hcall, h', rfl, hs.view, hslots⟩
    | none =>
      rw [hk] at hcase
      obtain ⟨st', hcall, h', hslots⟩ := h.dirlink_new hl esb devsw h0 hlt hk hcase
      refine ⟨0, st', hcall, h', rfl, fun k => ?_, fun hfree => ?_⟩
      · rw [hslots, SlotMap.lookup_insert h.distinct hk]
      · obtain ⟨i, hi⟩ := List.mem_iff_getElem?.mp hfree
        rw [hslots, SlotMap.length_insert_of_free hi]
  | clear name =>
    unfold Fits at hfits
    unfold OpDone
    dsimp only at hfits ⊢
    cases hk : SlotMap.lookup (key name) (slots sb a st) with
    | some r =>
      obtain ⟨i, j⟩ := r
      rw [hk] at hfits
      obtain ⟨st', hcall, h', hslots⟩ := h.clear_bound hl esb devsw hk hfits.1 hfits.2
      refine ⟨0, st', hcall, h', ⟨fun _ => rfl, fun _ => rfl⟩, fun k => ?_⟩
      rw [hslots, SlotMap.lookup_erase h.distinct]
    | none =>
      obtain ⟨st', hcall, hs⟩ := h.dirlookup_none devsw hk
      obtain ⟨h', hslots⟩ := hs.directory h
      refine ⟨-1, st', ?_, h', ⟨(fun e => by cases e), (fun e => by cases e)⟩, fun k => ?_⟩
      · show clearEntry sb esb devsw name a st = _
        rw [clearEntry, hcall, ok_bind]
      · rw [hslots]
        by_cases hkk : k = key name
        · rw [if_pos hkk, hkk, hk]
        · rw [if_neg hkk]

lemma bindings_of_done {r : Int} {op : Op} (h : OpDone sb a st r st' op) :
    bindings sb a st' = mapStep (bindings sb a st) op := by
  cases op with
  | dirlink name inum =>
    unfold OpDone at h
    unfold mapStep bindings
    dsimp only at h ⊢
    cases hk : SlotMap.lookup (key name) (slots sb a st) with
    | some e =>
      rw [hk] at h
      rw [Option.map_some, Option.isSome_some, if_pos rfl]
      funext k
      rw [h.2.2]
    | none =>
      rw [hk] at h
      rw [if_neg (by simp)]
      funext k
      rw [h.2.1 k]
      by_cases hkk : k = key name
      · rw [if_pos hkk, hkk, update_self]
        rfl
      · rw [if_neg hkk, update_of_ne hkk]
  | clear name =>
    funext k
    rw [bindings, h.2 k, mapStep]
    by_cases hkk : k = key name
    · rw [if_pos hkk, hkk, update_self]
      rfl
    · rw [if_neg hkk, update_of_ne hkk, bindings]

/-- **Main result.**  In every run of changes of a directory, with names that are not bound
    to the directory itself and with space, the directory is a finite map with the first
    `DIRSIZ` bytes of the names as keys. -/
theorem directory_is_finite_map (hl : Layout sb) (esb : Ext2Super) (devsw : Nat → Devsw) (a : Nat)
    (ops : List Op) : ∀ (st : Cache), Directory sb a st →
    AllSteps (opStep sb esb devsw a) (Fits sb a) ops st →
    ∃ st', exec (opStep sb esb devsw a) ops st = .ok st' ∧ Directory sb a st' ∧
      bindings sb a st' = ops.foldl mapStep (bindings sb a st) ∧
      (∀ name, LookupRight sb devsw a st' name) ∧
      ∀ op, Fits sb a st' op → ∃ r st'', opCall sb esb devsw a st' op = .ok (r, st'') ∧
        OpDone sb a st' r st'' op := by
  induction ops with
  | nil =>
    intro st h _
    refine ⟨st, rfl, h, rfl, h.lookupRight devsw, fun op hfits => ?_⟩
    obtain ⟨r, st'', hcall, -, hdone⟩ := h.op hl esb devsw hfits
    exact ⟨r, st'', hcall, hdone⟩
  | cons op ops ih =>
    intro st h hall
    obtain ⟨r, st1, hcall, h1, hdone⟩ := h.op hl esb devsw hall.1
    have hstep : opStep sb esb devsw a st op = .ok st1 := by
      rw [opStep, hcall]
      rfl
    obtain ⟨st', hexec, h', hmap, hrest⟩ := ih st1 h1 (hall.tail hstep)
    refine ⟨st', ?_, h', ?_, hrest⟩
    · rw [exec, hstep, ok_bind, hexec]
    · rw [hmap, bindings_of_done hdone, List.foldl_cons]

end Map

/-! ## A small directory -/

instance (st : Cache) (inum : Nat) : Decidable (CanGet st inum) :=
  inferInstanceAs (Decidable (∃ b, b < NINODE ∧ _))

instance (sb : Superblock) (v : Disk) (ip : Dinode) : Decidable (CanGrow sb v ip) :=
  inferInstanceAs (Decidable (_ ∧ _))

instance (sb : Superblock) (a : Nat) (st : Cache) : (op : Op) → Decidable (Fits sb a st op)
  | .dirlink name inum =>
    match h : SlotMap.lookup (key name) (slots sb a st) with
    | some (_, j) => decidable_of_iff ((0 < inum ∧ inum < 2 ^ 16) ∧
        j ≠ (st.inode a).inum ∧ CanGet st j) (by rw [Fits, h])
    | none => decidable_of_iff ((0 < inum ∧ inum < 2 ^ 16) ∧
        (SlotMap.firstFree (slots sb a st) = (slots sb a st).length →
          CanGrow sb st.root.view (dinodeAt sb st.root.view (st.inode a).inum)))
        (by rw [Fits, h])
  | .clear name =>
    match h : SlotMap.lookup (key name) (slots sb a st) with
    | some (_, j) => decidable_of_iff (j ≠ (st.inode a).inum ∧ CanGet st j) (by rw [Fits, h])
    | none => isTrue (by rw [Fits, h]; trivial)

def noDevsw : Nat → Devsw := fun _ => ⟨none, none⟩

/-- The directory of the small image is fetched and locked. -/
def smallDirRun : Except Err Cache :=
  exec (callStep smallDisk Ext2Layout.smallSuper noDevsw) [.iget 1, .ilock 0]
    (bootCache ⟨smallImage, fun _ => none⟩ blankDevice)

/-- The cache after it. -/
def smallDir : Cache :=
  smallDirRun.toOption.getD (bootCache ⟨smallImage, fun _ => none⟩ blankDevice)

lemma smallDir_sync : Sync smallDisk smallDir := by
  have hrun : Sat smallDirRun (Sync smallDisk) Expected :=
    exec_sat (fun st act hs hc => callStep_sat smallDisk_layout _ _ act hs hc) _ _
      (sync_boot _ _ smallImage_consistent) (by decide)
  obtain ⟨u, hu, -⟩ := exists_ok_of_map (f := fun _ => ()) (b := ())
    (show smallDirRun.map _ = .ok () by decide)
  have hdir : smallDir = u := by rw [smallDir, hu]; rfl
  rw [hdir]
  exact hrun.of_ok hu

lemma smallDir_directory : Directory smallDisk 0 smallDir := by
  have hempty : slots smallDisk 0 smallDir = [] := by decide
  refine ⟨smallDir_sync, by decide +kernel, by decide +kernel, by decide +kernel, ?_⟩
  rw [hempty]
  intro i j k v w hi
  cases hi

/-- A name is linked, linked again and cleared. -/
def linkAndClear : List Op := [.dirlink [97] 2, .dirlink [97] 1, .clear [97]]

theorem directory_is_finite_map_linkAndClear :
    ∃ st, exec (opStep smallDisk Ext2Layout.smallSuper noDevsw 0) linkAndClear smallDir = .ok st ∧
      bindings smallDisk 0 st (key [97]) = none := by
  obtain ⟨st, hexec, -, hmap, -⟩ := directory_is_finite_map smallDisk_layout
    Ext2Layout.smallSuper noDevsw 0 linkAndClear smallDir smallDir_directory (by decide +kernel)
  refine ⟨st, hexec, ?_⟩
  have hcleared : ∀ m : List UInt8 → Option Nat, mapStep m (.clear [97]) (key [97]) = none :=
    fun m => by rw [mapStep, update_self]
  rw [hmap, linkAndClear, List.foldl_cons, List.foldl_cons, List.foldl_cons, List.foldl_nil]
  exact hcleared _

/-- `.` of a directory stands for the directory: `xv6fs_dirlink` of it never returns, since
    `iput` waits for the lock that its caller holds. -/
theorem dirlink_of_self_waits :
    ∃ st, exec (opStep smallDisk Ext2Layout.smallSuper noDevsw 0) [.dirlink [46] 1] smallDir =
        .ok st ∧ Directory smallDisk 0 st ∧ (st.inode 0).inum = 1 ∧
      bindings smallDisk 0 st (key [46]) = some 1 ∧
      xv6fsDirlink smallDisk Ext2Layout.smallSuper noDevsw [46] 2 0 st = .error .deadlock := by
  have hfits : Fits smallDisk 0 smallDir (.dirlink [46] 1) := by decide
  obtain ⟨r, st, hcall, hdir, -⟩ := smallDir_directory.op smallDisk_layout Ext2Layout.smallSuper
    noDevsw hfits
  have hexec : exec (opStep smallDisk Ext2Layout.smallSuper noDevsw 0) [.dirlink [46] 1] smallDir =
      .ok st := by
    rw [exec, opStep, hcall]
    rfl
  obtain ⟨st', hst', hfacts⟩ := exists_ok_of_map
    (show (exec (opStep smallDisk Ext2Layout.smallSuper noDevsw 0) [.dirlink [46] 1] smallDir).map
      (fun st => ((st.inode 0).inum, bindings smallDisk 0 st (key [46]),
        (xv6fsDirlink smallDisk Ext2Layout.smallSuper noDevsw [46] 2 0 st).map (fun _ => ()))) =
      .ok (1, some 1, .error .deadlock) by decide)
  obtain rfl : st = st' := Except.ok.inj (hexec.symm.trans hst')
  obtain ⟨hinum, hrest⟩ := Prod.mk.inj hfacts
  obtain ⟨hbound, herr⟩ := Prod.mk.inj hrest
  refine ⟨st, hexec, hdir, hinum, hbound, ?_⟩
  cases hlink : xv6fsDirlink smallDisk Ext2Layout.smallSuper noDevsw [46] 2 0 st with
  | ok r => rw [hlink] at herr; cases herr
  | error e =>
    rw [hlink] at herr
    exact congrArg Except.error (Except.error.inj herr)

end Xv6DirMap
