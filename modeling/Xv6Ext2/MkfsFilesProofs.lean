import Xv6Ext2.MkfsImageProofs
import Xv6Ext2.RootCacheProofs
import Xv6Ext2.Xv6DirMapProofs

/-! # The kernel reads the files of mkfs

    `mkfs` and the kernel have their own code for the format of the root device.  On an image that
    `mkfs` wrote, `xv6fs_dirlookup` finds the inode of each host file in the root directory,
    `xv6fs_readi` returns its bytes, and `xv6fs_balloc` hands out none of the blocks of `mkfs`.

    The root directory of the image may be one block longer than its records, and that
    block has no address; a search that finds a record never gets there. -/

namespace Mkfs

open ByteBlock BufCache Param Outcome FileIo DirName SlotTable Xv6Alloc Xv6Inode Xv6Image Xv6Dir
  Xv6DirMap Ext2Alloc

/-! ## The contents of the image -/

section Image

variable {files : List HostFile} {g₂ g : Img} {j : Nat}

/-- The inodes of the image have the blocks that they had before the last two steps. -/
lemma Finished.ownBlock_eq (h : Finished files g₂ g) (hu : InUse sb (dinodeAt sb g₂.view) j)
    {ip : Dinode} (hip : ip.addrs = (dinodeAt sb g₂.view j).addrs) (p : Nat) :
    ownBlock ip g.sect p = ownBlock (dinodeAt sb g₂.view j) g₂.view p :=
  h.closed.ownBlock_eq hu hip p

variable {k : Nat}

lemma Finished.fileByte_eq (h : Finished files g₂ g) (hu : InUse sb (dinodeAt sb g₂.view) j)
    (hf : IsFile (dinodeAt sb g₂.view j)) {ip : Dinode}
    (hip : ip.addrs = (dinodeAt sb g₂.view j).addrs) (hk : k < (dinodeAt sb g₂.view j).size) :
    blockAt ip g.sect (k / BSIZE) ≠ 0 ∧
      fileByte ip g.sect k = fileByte (dinodeAt sb g₂.view j) g₂.view k := by
  have hcov := h.built.image.consistent.covers hu hf
  have hne : blockAt (dinodeAt sb g₂.view j) g₂.view (k / BSIZE) ≠ 0 :=
    (hcov.block _).mpr ((lt_blocks_iff _ _).mpr (by unfold BSIZE; omega))
  have howns : owns sb (dinodeAt sb g₂.view) g₂.view (j, slotOf (k / BSIZE)) =
      blockAt (dinodeAt sb g₂.view j) g₂.view (k / BSIZE) := owns_of_inUse hu _
  have hdata := h.built.image.consistent.in_data (j, slotOf (k / BSIZE)) (by rw [howns]; exact hne)
  rw [howns] at hdata
  have hge := bmapstart_lt_dataStart sb
  have hsame : blockAt ip g.sect (k / BSIZE) =
      blockAt (dinodeAt sb g₂.view j) g₂.view (k / BSIZE) := h.ownBlock_eq hu hip _
  refine ⟨by rw [hsame]; exact hne, ?_⟩
  rw [fileByte, fileByte, hsame, h.blocks _ (by have := hdata.1; omega)]

variable {f : HostFile}

lemma Finished.file (h : Finished files g₂ g) (hk : files[k]? = some f) :
    (dinodeAt sb g.sect (k + 2)).type = T_FILE ∧ (dinodeAt sb g.sect (k + 2)).size = f.data.length ∧
      content (dinodeAt sb g.sect (k + 2)) g.sect = f.data ∧ ∀ bn, bn * BSIZE < f.data.length →
        blockAt (dinodeAt sb g.sect (k + 2)) g.sect bn ≠ 0 := by
  obtain ⟨hu, htype, hbytes⟩ := h.built.files k f hk
  have hsame := h.others (k + 2) (by unfold ROOTINO; omega)
  have hsize : (dinodeAt sb g₂.view (k + 2)).size = f.data.length := by
    rw [← length_content _ g₂.view, hbytes]
  rw [hsame]
  refine ⟨htype, hsize, ?_, fun bn hbn => ?_⟩
  · rw [← hbytes, content, content]
    refine List.map_congr_left (fun i hi => ?_)
    exact (h.fileByte_eq hu (.inl htype) rfl (List.mem_range.mp hi)).2
  · rw [← hsize] at hbn
    have hb := (h.fileByte_eq hu (.inl htype) rfl hbn).1
    rwa [Nat.mul_div_cancel _ (by decide)] at hb

/-! ## The records of the root directory -/

lemma getD_flatten {m : Nat} (ls : List (List UInt8)) (hlen : ∀ l ∈ ls, l.length = m) :
    ∀ n k, k < m → ls.flatten.getD (m * n + k) 0 = (ls.getD n []).getD k 0 := by
  induction ls with
  | nil => intro n k _; rfl
  | cons l ls ih =>
    intro n k hk
    have hl := hlen l List.mem_cons_self
    rw [List.flatten_cons]
    cases n with
    | zero =>
      rw [Nat.mul_zero, Nat.zero_add, List.getD_append _ _ _ _ (by omega), List.getD_cons_zero]
    | succ n =>
      rw [List.getD_append_right _ _ _ _ (by rw [hl, Nat.mul_succ]; omega), List.getD_cons_succ,
        ← ih (fun l' hl' => hlen l' (List.mem_cons_of_mem _ hl')) n k hk, hl, Nat.mul_succ]
      congr 1
      omega

variable {d : List UInt8 × Nat}

lemma getD_recordsOf {names : List (List UInt8 × Nat)} {n : Nat} (hd : names[n]? = some d)
    (hk : k < DIRENT) : (recordsOf names).getD (DIRENT * n + k) 0 = newDirent d.1 d.2 k := by
  have hlen : ∀ l ∈ names.map (fun d => dirent d.1 d.2), l.length = DIRENT := by
    intro l hl
    obtain ⟨d, -, rfl⟩ := List.mem_map.mp hl
    exact length_dirent _ _
  rw [recordsOf, getD_flatten _ hlen n k hk]
  have hget : (names.map (fun d => dirent d.1 d.2)).getD n [] = dirent d.1 d.2 := by
    rw [List.getD_eq_getElem?_getD, List.getElem?_map, hd]
    rfl
  rw [hget, List.getD_eq_getElem _ 0 (by rw [length_dirent]; exact hk)]
  simp only [dirent, List.getElem_map, List.getElem_range]

lemma getElem?_namesOf (hk : files[k]? = some f) :
    (namesOf files)[k + 3]? = some (hostName f.name, k + 2) := by
  rw [namesOf, List.getElem?_append_right (show rootNames.length ≤ k + 3 from Nat.le_add_left _ _)]
  show (files.mapIdx _)[k]? = _
  rw [List.getElem?_mapIdx, hk]
  rfl

lemma Finished.record_eq (h : Finished files g₂ g) (hfiles : files.length + 1 < NINODES)
    {n : Nat} (hd : (namesOf files)[n]? = some d) :
    entryOf (record (dinodeAt sb g.sect ROOTINO) g.sect n) = some (key d.1, d.2) := by
  have hinum : 1 ≤ d.2 ∧ d.2 < 2 ^ 16 := by
    have hcap : NINODES = 200 := rfl
    by_cases h3 : n < 3
    · have hd' : rootNames[n]? = some d := by
        rwa [namesOf, List.getElem?_append_left h3] at hd
      have hmem := List.mem_of_getElem? hd'
      have hone : d.2 = 1 := by
        simp only [rootNames, List.mem_cons, List.not_mem_nil, or_false] at hmem
        rcases hmem with rfl | rfl | rfl <;> rfl
      omega
    obtain ⟨k, rfl⟩ : ∃ k, n = k + 3 := ⟨n - 3, by omega⟩
    have hlt := (List.getElem?_eq_some_iff.mp hd).1
    rw [length_namesOf] at hlt
    rw [getElem?_namesOf (List.getElem?_eq_getElem (show k < files.length by omega))] at hd
    obtain rfl := Option.some.inj hd
    show 1 ≤ k + 2 ∧ k + 2 < 2 ^ 16
    omega
  have hlt := (List.getElem?_eq_some_iff.mp hd).1
  have hsize : DIRENT * (namesOf files).length = (dinodeAt sb g₂.view ROOTINO).size := by
    rw [← length_content _ g₂.view, h.built.root, length_recordsOf]
  have hnext : DIRENT * (n + 1) ≤ DIRENT * (namesOf files).length := Nat.mul_le_mul_left _ hlt
  rw [Nat.mul_succ] at hnext
  rw [← entryOf_newDirent d.1 (by omega) hinum.2]
  refine entryOf_congr (fun k hk => ?_)
  have hk' : DIRENT * n + k < (dinodeAt sb g₂.view ROOTINO).size := by omega
  rw [record, if_pos hk, (h.fileByte_eq h.built.inUse (.inr h.built.dir)
    (by rw [h.root]) hk').2, ← getD_content hk', h.built.root, getD_recordsOf hd hk]

/-- The name under which a host file is found. -/
def shortName (f : HostFile) : List UInt8 := key (hostName f.name)

/-- The names are different from each other and from those of the root directory. -/
structure Distinct (files : List HostFile) : Prop where
  nodup : (files.map shortName).Nodup
  fresh : ∀ f ∈ files, shortName f ∉ [DOT, DOTDOT, MNT]

/-- The records before the one of a host file have other names. -/
lemma Distinct.before (h : Distinct files) {m : Nat} (hk : files[k]? = some f) (hm : m < k + 3)
    (hd : (namesOf files)[m]? = some d) : key d.1 ≠ shortName f := by
  have hmem := List.mem_of_getElem? hk
  by_cases h3 : m < 3
  · have hd' : rootNames[m]? = some d := by
      rwa [namesOf, List.getElem?_append_left h3] at hd
    have hroot := List.mem_of_getElem? hd'
    have hkey : key d.1 ∈ [DOT, DOTDOT, MNT] := by
      simp only [rootNames, List.mem_cons, List.not_mem_nil, or_false] at hroot
      rcases hroot with rfl | rfl | rfl <;> decide
    exact fun e => h.fresh f hmem (e ▸ hkey)
  obtain ⟨i, rfl⟩ : ∃ i, m = i + 3 := ⟨m - 3, by omega⟩
  have hklt := (List.getElem?_eq_some_iff.mp hk).1
  have hi : files[i]? = some files[i] := List.getElem?_eq_getElem (by omega)
  rw [getElem?_namesOf hi] at hd
  obtain rfl := Option.some.inj hd
  intro e
  have hiname : (files.map shortName)[i]? = some (shortName f) := by
    rw [List.getElem?_map, hi]
    exact congrArg some e
  have hkname : (files.map shortName)[k]? = some (shortName f) := by
    rw [List.getElem?_map, hk]
    rfl
  have hik := (List.getElem?_inj (by rw [List.length_map]; omega) h.nodup).mp
    (hiname.trans hkname.symm)
  omega

/-- **The search of `xv6fs_dirlookup`** finds the inode of a host file. -/
lemma Finished.dirSearch_eq (h : Finished files g₂ g) (hfiles : files.length + 1 < NINODES)
    (hnames : Distinct files) (devsw : Nat → Devsw)
    (hk : files[k]? = some f) {s : Bcache} (hs : s.view = g.sect) :
    ∃ off de s', dirSearch sb devsw (hostName f.name)
        (dinodeAt sb g.sect ROOTINO) s = .ok ((off, some de), dinodeAt sb g.sect ROOTINO, s') ∧
      s'.view = s.view ∧ deInum de = k + 2 := by
  obtain ⟨ip, hip⟩ : ∃ ip, ip = dinodeAt sb g.sect ROOTINO := ⟨_, rfl⟩
  have hdir : ip.type = T_DIR := by rw [hip, h.root]; exact h.built.dir
  have haddrs : ip.addrs = (dinodeAt sb g₂.view ROOTINO).addrs := by rw [hip, h.root]
  have hsize2 : DIRENT * (files.length + 3) = (dinodeAt sb g₂.view ROOTINO).size := by
    rw [← length_content _ g₂.view, h.built.root, length_recordsOf, length_namesOf]
  have hsize : ip.size = fixedSize (dinodeAt sb g₂.view ROOTINO).size := by
    rw [hip, h.root]
  have h16 : DIRENT * (files.length + 3) = 16 * (files.length + 3) := rfl
  have hcap : NINODES = 200 := rfl
  have hfix : fixedSize (dinodeAt sb g₂.view ROOTINO).size =
      ((dinodeAt sb g₂.view ROOTINO).size / 1024 + 1) * 1024 := rfl
  have hklt := (List.getElem?_eq_some_iff.mp hk).1
  have hend : DIRENT * (files.length + 3) ≤ ip.size := by omega
  have hblocks : ∀ bn, bn * BSIZE < DIRENT * (files.length + 3) → blockAt ip g.sect bn ≠ 0 := by
    intro bn hbn
    have hb := (h.fileByte_eq h.built.inUse (.inr h.built.dir) haddrs (hsize2 ▸ hbn)).1
    rwa [Nat.mul_div_cancel _ (by decide)] at hb
  obtain ⟨s', hview, hscan⟩ := scanFrom_held sb devsw "dirlookup read" (named (hostName f.name))
    (by rw [hdir]; decide) (by omega) hend hblocks ip.size 0 s hs (Nat.zero_le _) (by omega)
  have hfind : ((List.range' 0 (files.length + 3 - 0)).map (record ip g.sect)).find?
      (named (hostName f.name)) = some (record ip g.sect (k + 3)) := by
    rw [List.find?_eq_some_iff_getElem]
    refine ⟨?_, k + 3, by rw [List.length_map, List.length_range']; omega, ?_, fun m hm => ?_⟩
    · rw [← holds_entryOf, hip, h.record_eq hfiles (getElem?_namesOf hk), SlotMap.holds_some]
      exact ⟨_, rfl⟩
    · rw [List.getElem_map, List.getElem_range', Nat.zero_add, Nat.one_mul]
    · have hmlt : m < (namesOf files).length := by rw [length_namesOf]; omega
      rw [List.getElem_map, List.getElem_range', Nat.zero_add, Nat.one_mul, ← holds_entryOf, hip,
        h.record_eq hfiles (List.getElem?_eq_getElem hmlt), Bool.not_eq_true', Bool.eq_false_iff,
        ne_eq, SlotMap.holds_some]
      rintro ⟨v, e⟩
      exact hnames.before hk hm (List.getElem?_eq_getElem hmlt) (Prod.mk.inj (Option.some.inj e)).1
  rw [hfind] at hscan
  have hsearch : dirSearch sb devsw (hostName f.name) ip s = _ :=
    (if_neg (not_not.mpr hdir)).trans hscan
  rw [← hip]
  refine ⟨_, _, s', hsearch, hview.trans hs.symm, ?_⟩
  have hentry := h.record_eq hfiles (getElem?_namesOf hk)
  rw [← hip, entryOf] at hentry
  split at hentry
  · cases hentry
  · exact (Prod.mk.inj (Option.some.inj hentry)).2

end Image

end Mkfs

namespace MkfsFiles

open ByteBlock BufCache Param Outcome FileIo DirName Xv6Alloc Xv6Inode Xv6Image Xv6Dir Icache
  Xv6Calls Xv6DirMap Kernel Ext2Alloc
open Mkfs (Img HostFile Finished Distinct hostName NINODES BBLOCK_eq bitOf_view)

open Function (update_of_ne update_self)

def xv6fsReadsb (s : Bcache) : Except Err (Superblock × Bcache) := do
  let (d, s) ← bread [] 1 s
  .ok (⟨getLE d 4 0, getLE d 4 4, getLE d 4 8, getLE d 4 12, getLE d 4 16, getLE d 4 20,
    getLE d 4 24⟩, s)

/-- A name is looked up in the root directory, and `n` bytes of its inode are read at
    `off`: the size of the inode, what `xv6fs_readi` returned, and the bytes. -/
def fetch (sb : Superblock) (esb : Ext2Super) (devsw : Nat → Devsw) (name : List UInt8)
    (off n : Nat) (st : Cache) : Except Err (Option (Nat × Int × List UInt8) × Cache) := do
  let (d, st) ← Icache.iget ROOTDEV ROOTINO st
  let st ← Icache.ilock sb esb d st
  let (found, st) ← xv6fsDirlookup sb devsw name d st
  match found with
  | none => .ok (none, st)
  | some (_, b) => do
      let st ← Icache.ilock sb esb b st
      let ((r, bytes), st) ← readEntry sb devsw b off n st
      .ok (some ((st.inode b).size, r, bytes), st)

def ballocs (sb : Superblock) : Nat → Bcache → Except Err (List Nat × Bcache)
  | 0, s => .ok ([], s)
  | n + 1, s => do
      let (b, s) ← xv6fsBalloc sb [] s
      let (bs, s) ← ballocs sb n s
      .ok (b :: bs, s)

/-! ## Calls that only read -/

/-- Nothing changes on the root device, and no reference is taken or dropped. -/
structure Peek (sb : Superblock) (st st' : Cache) : Prop where
  quiet : Quiet sb st st'
  refs  : ∀ b, (st'.inode b).ref = (st.inode b).ref

section Cache

variable {sb : Superblock} {st st' : Cache} {a b inum : Nat}

lemma Peek.onRoot (h : Peek sb st st') (ha : OnRoot st a) :
    OnRoot st' a ∧ (st'.inode a).inum = (st.inode a).inum ∧
      ((st.inode a).valid = true → (st'.inode a).valid = true) := by
  have hr : 0 < (st'.inode a).ref := by rw [h.refs a]; exact ha.1.2
  obtain ⟨hid, hvalid⟩ := h.quiet.later a ha.1.2 hr
  obtain ⟨hdev, hinum⟩ := Prod.mk.inj hid
  exact ⟨⟨⟨ha.1.1, hr⟩, hdev.trans ha.2⟩, hinum, hvalid⟩

lemma iget_onRoot (h : Icache.iget ROOTDEV inum st = .ok (b, st')) :
    OnRoot st' b ∧ (st'.inode b).inum = inum ∧ ∀ c, c ≠ b → st'.inode c = st.inode c := by
  obtain ⟨hb, ⟨-, hdev, hinum, rfl⟩ | ⟨-, -, ⟨-, rfl⟩ | ⟨hdev, -⟩⟩⟩ := iget_ok h
  · refine ⟨⟨⟨hb, ?_⟩, ?_⟩, ?_, fun c hc => ?_⟩
    · rw [setInode_self]
      exact Nat.succ_pos _
    · rwa [setInode_self]
    · rwa [setInode_self]
    · rw [setInode_inode, update_of_ne hc]
  · refine ⟨⟨⟨hb, ?_⟩, ?_⟩, ?_, fun c hc => ?_⟩
    · rw [recycle_self]
      exact Nat.one_pos
    · rw [recycle_self]
    · rw [recycle_self]
    · rw [recycle_inode, update_of_ne hc]
  · exact absurd rfl hdev

/-- `ilock` of an allocated inode. -/
lemma ilock_peek (esb : Ext2Super) (h : RootSync sb st) (ha : OnRoot st a)
    (htype : (dinodeAt sb st.root.view (st.inode a).inum).type ≠ 0) :
    ∃ st', Icache.ilock sb esb a st = .ok st' ∧ Peek sb st st' ∧ (st'.inode a).valid = true := by
  obtain ⟨hiops, i, hp⟩ := h.entry ha
  have hr := ha.1.2
  have hread : xv6fsIread sb (st.inode a).inum (st.device .xv6fs) = .ok
      (dinodeAt sb st.root.view (st.inode a).inum,
        st.root.touch (IBLOCK (st.inode a).inum sb)) := rfl
  suffices hcall : ∃ st', Icache.ilock sb esb a st = .ok st' ∧
      ∀ b, (st'.inode b).ref = (st.inode b).ref by
    obtain ⟨st', hok, hrefs⟩ := hcall
    obtain ⟨hquiet, hvalid⟩ := h.ilock ha.1 hok
    exact ⟨st', hok, ⟨hquiet, hrefs⟩, hvalid⟩
  rw [Icache.ilock, hiops]
  show ∃ st', ilockWith .xv6fs (xv6fsIread sb) a st = .ok st' ∧ _
  rw [ilockWith]
  dsimp only
  rw [if_neg (by omega)]
  by_cases hv : (st.inode a).valid = true
  · rw [if_pos hv]
    exact ⟨st, rfl, fun _ => rfl⟩
  rw [if_neg hv, hp]
  dsimp only
  rw [hread, ok_bind]
  dsimp only
  rw [if_neg htype]
  refine ⟨_, rfl, fun b => ?_⟩
  rw [setInode_inode, setSlot_inode, setDevice_inode]
  by_cases hba : b = a
  · rw [hba, update_self]
    rfl
  · rw [update_of_ne hba]

/-- A call on a locked entry that leaves the inode and the device as they are. -/
lemma onEntry_peek {α : Type}
    {f : Nat → Dinode → Bcache → Except Err (α × Dinode × Bcache)} {r : α} {bc : Bcache}
    (h : RootSync sb st) (ha : OnRoot st a) (hv : (st.inode a).valid = true)
    (hf : f (st.inode a).inum (dinodeAt sb st.root.view (st.inode a).inum) st.root =
      .ok (r, dinodeAt sb st.root.view (st.inode a).inum, bc)) (hview : bc.view = st.root.view) :
    ∃ st', onEntry f a st = .ok (r, st') ∧ Peek sb st st' ∧
      (st'.inode a).size = (dinodeAt sb st.root.view (st.inode a).inum).size := by
  obtain ⟨-, i, hp⟩ := h.entry ha
  obtain ⟨hcopy, htype⟩ := h.synced a ha hv _ hp
  have hok : onEntry f a st = .ok (r, afterCall st .xv6fs bc (.xv6fs i)
      (dinodeAt sb st.root.view (st.inode a).inum).addrs a
      ((st.inode a).load (dinodeAt sb st.root.view (st.inode a).inum))) := by
    rw [onEntry, hp]
    dsimp only
    rw [hcopy, hf, ok_bind]
  refine ⟨_, hok, ⟨⟨?_, hview, Later.afterCall rfl id⟩, fun b => ?_⟩, ?_⟩
  · refine h.afterRoot ha hp rfl ?_ ?_ (fun j _ _ => by rw [hview])
    · rw [hview]
      rfl
    · show (dinodeAt sb st.root.view (st.inode a).inum).type ≠ 0
      rwa [← hcopy]
  · rw [afterCall_inode]
    by_cases hba : b = a
    · rw [hba, update_self]
      rfl
    · rw [update_of_ne hba]
  · rw [afterCall_inode, update_self]
    rfl

end Cache

/-! ## A file of the image -/

/-- Two entries of the inode cache are unused. -/
def Room (st : Cache) : Prop :=
  ∃ a < NINODE, ∃ b < NINODE, a ≠ b ∧ (st.inode a).ref = 0 ∧ (st.inode b).ref = 0

section Files

variable {files : List HostFile} {g₂ g : Img} {st : Cache}

/-- The root directory, locked; one entry of the cache is still unused. -/
lemma root_locked (esb : Ext2Super) (h : Finished files g₂ g) (hst : RootSync Mkfs.sb st)
    (hview : st.root.view = g.sect) (hroom : Room st) :
    ∃ d st₁ st₂, Icache.iget ROOTDEV ROOTINO st = .ok (d, st₁) ∧
      Icache.ilock Mkfs.sb esb d st₁ = .ok st₂ ∧ RootSync Mkfs.sb st₂ ∧
      st₂.root.view = g.sect ∧ OnRoot st₂ d ∧ (st₂.inode d).inum = ROOTINO ∧
      (st₂.inode d).valid = true ∧ ∃ c < NINODE, (st₂.inode c).ref = 0 := by
  obtain ⟨a, ha, b, hb, hab, hra, hrb⟩ := hroom
  have hcan : CanGet st ROOTINO := ⟨a, ha, .inr hra⟩
  obtain ⟨d, st1, hget⟩ := iget_of_canGet hcan
  have hq1 := hst.iget (fun _ => ⟨Nat.le_refl 1, by decide⟩) hget
  obtain ⟨hroot, hinum, hothers⟩ := iget_onRoot hget
  have hview1 : st1.root.view = g.sect := hq1.view.trans hview
  obtain ⟨st2, hlock, hpeek, hvalid⟩ := ilock_peek esb hq1.sync hroot (by
    rw [hinum, hview1, h.root]
    show (dinodeAt Mkfs.sb g₂.view ROOTINO).type ≠ 0
    rw [h.built.dir]
    decide)
  obtain ⟨hroot2, hinum2, -⟩ := hpeek.onRoot hroot
  refine ⟨d, st1, st2, hget, hlock, hpeek.quiet.sync, hpeek.quiet.view.trans hview1, hroot2,
    hinum2.trans hinum, hvalid, ?_⟩
  -- `iget` took at most one of the two entries
  by_cases had : a = d
  · exact ⟨b, hb, by rw [hpeek.refs, hothers b (fun e => hab (had.trans e.symm))]; exact hrb⟩
  · exact ⟨a, ha, by rw [hpeek.refs, hothers a had]; exact hra⟩

/-- **A host file is read back.** -/
lemma fetch_eq (esb : Ext2Super) (devsw : Nat → Devsw) (h : Finished files g₂ g)
    (hfiles : files.length + 1 < NINODES) (hnames : Distinct files) (hst : RootSync Mkfs.sb st)
    (hview : st.root.view = g.sect) (hroom : Room st) {k : Nat} {f : HostFile}
    (hk : files[k]? = some f) {off n : Nat} (hoff : off ≤ f.data.length) (hn : off + n < 2 ^ 32) :
    ∃ st', fetch Mkfs.sb esb devsw (hostName f.name) off n st =
      .ok (some (f.data.length, (min n (f.data.length - off) : Nat), (f.data.drop off).take n),
        st') := by
  obtain ⟨d, st1, st2, hget, hlock, hs2, hv2, hroot2, hinum2, hvalid2, c, hc, hrc⟩ :=
    root_locked esb h hst hview hroom
  -- the search
  obtain ⟨o, de, s3, hsearch, hs3, hde⟩ := h.dirSearch_eq hfiles hnames devsw hk hv2
  obtain ⟨st3, hcall3, hpeek3, -⟩ := onEntry_peek (f := fun _ => dirSearch Mkfs.sb devsw
    (hostName f.name)) hs2 hroot2 hvalid2 (by rw [hinum2, hv2]; exact hsearch) hs3
  obtain ⟨hroot3, -, -⟩ := hpeek3.onRoot hroot2
  have hv3 : st3.root.view = g.sect := hpeek3.quiet.view.trans hv2
  -- the inode of the file
  obtain ⟨htype, hsize, hbytes, hblocks⟩ := h.file hk
  have hkcap : k < files.length := (List.getElem?_eq_some_iff.mp hk).1
  have hninodes : Mkfs.sb.ninodes = NINODES := rfl
  have hcan : CanGet st3 (k + 2) := ⟨c, hc, .inr (by rw [hpeek3.refs]; exact hrc)⟩
  obtain ⟨b, st4, hget4⟩ := iget_of_canGet hcan
  have hq4 := hpeek3.quiet.sync.iget (fun _ => ⟨by omega, by omega⟩) hget4
  obtain ⟨hroot4, hinum4, -⟩ := iget_onRoot hget4
  have hv4 : st4.root.view = g.sect := hq4.view.trans hv3
  have hlookup : xv6fsDirlookup Mkfs.sb devsw (hostName f.name) d st2 = .ok (some (o, b), st4) := by
    rw [xv6fsDirlookup, hcall3, ok_bind]
    dsimp only
    rw [hroot3.2, hde, hget4, ok_bind]
  obtain ⟨st5, hlock5, hpeek5, hvalid5⟩ := ilock_peek esb hq4.sync hroot4 (by
    rw [hinum4, hv4, htype]
    decide)
  obtain ⟨hroot5, hinum5, -⟩ := hpeek5.onRoot hroot4
  have hv5 : st5.root.view = g.sect := hpeek5.quiet.view.trans hv4
  have hinum5 : (st5.inode b).inum = k + 2 := hinum5.trans hinum4
  -- its bytes
  have hcap : (dinodeAt Mkfs.sb g.sect (k + 2)).size < 2 ^ 31 := by
    obtain ⟨hu, htype2, -⟩ := h.built.files k f hk
    have hle := size_le_max h.built.image.consistent hu (.inl htype2)
    have hmax : MAXFILE * BSIZE = 274432 := rfl
    rw [h.others (k + 2) (by unfold ROOTINO; omega)]
    omega
  have hdev : (dinodeAt Mkfs.sb g.sect (k + 2)).type ≠ T_DEV := by rw [htype]; decide
  have hheld : ∀ bn, bn * BSIZE < min (off + n) (dinodeAt Mkfs.sb g.sect (k + 2)).size →
      blockAt (dinodeAt Mkfs.sb g.sect (k + 2)) st5.root.view bn ≠ 0 := by
    intro bn hbn
    rw [hsize] at hbn
    rw [hv5]
    exact hblocks bn (by omega)
  have hbytes5 : content (dinodeAt Mkfs.sb g.sect (k + 2)) st5.root.view = f.data := by
    rw [hv5, hbytes]
  obtain ⟨s6, hread, hs6⟩ : ∃ s6 : Bcache, xv6fsReadi Mkfs.sb devsw
      (dinodeAt Mkfs.sb g.sect (k + 2)) off n st5.root =
        .ok (((min n (f.data.length - off) : Nat), (f.data.drop off).take n),
          dinodeAt Mkfs.sb g.sect (k + 2), s6) ∧ s6.view = st5.root.view := by
    rw [← hbytes5, length_content]
    exact readi_held devsw hdev (by rw [hsize]; exact hoff) hn (by omega) hheld
  obtain ⟨st6, hcall6, -, hsize6⟩ := onEntry_peek (f := fun _ ip s => xv6fsReadi Mkfs.sb devsw ip
    off n s) hpeek5.quiet.sync hroot5 hvalid5 (by rw [hinum5, hv5]; exact hread) hs6
  refine ⟨st6, ?_⟩
  rw [fetch, hget, ok_bind]
  dsimp only
  rw [hlock, ok_bind, hlookup, ok_bind]
  dsimp only
  rw [hlock5, ok_bind, readEntry, hcall6, ok_bind]
  dsimp only
  rw [hsize6, hinum5, hv5, hsize]

lemma readsb_eq (h : Finished files g₂ g) {s : Bcache} (hs : s.view = g.sect) :
    xv6fsReadsb s = .ok (Mkfs.sb, s.touch 1) := by
  have hblock : s.view 1 = Mkfs.sbSector := by rw [hs, h.super]
  have hword : ∀ i < 7, getLE (s.view 1) 4 (4 * i) =
      [Mkfs.sb.size, Mkfs.sb.nblocks, Mkfs.sb.ninodes, Mkfs.sb.nlog, Mkfs.sb.logstart,
        Mkfs.sb.inodestart, Mkfs.sb.bmapstart].getD i 0 % 256 ^ 4 := by
    intro i hi
    rw [hblock, ← Nat.zero_add (4 * i), Mkfs.sbSector]
    exact getLE_putWords (Nat.zero_le i) (by omega)
  rw [xv6fsReadsb, bread_nil]
  dsimp only
  rw [hword 0 (by decide), hword 1 (by decide), hword 2 (by decide), hword 3 (by decide),
    hword 4 (by decide), hword 5 (by decide), hword 6 (by decide)]
  rfl

lemma ballocs_ge {used : Nat} (hmeta : dataStart Mkfs.sb ≤ used) (n : Nat) :
    ∀ (s s' : Bcache) (bs : List Nat),
    (∀ b < Mkfs.sb.size, b < used → bitOf Mkfs.sb s.view b = true) →
    ballocs Mkfs.sb n s = .ok (bs, s') → ∀ b ∈ bs, used ≤ b := by
  induction n with
  | zero =>
    intro s s' bs _ hr b hb
    obtain ⟨rfl, -⟩ := ok_pair_inj hr
    cases hb
  | succ n ih =>
    intro s s' bs hbits hr
    rw [ballocs] at hr
    obtain ⟨⟨b, s1⟩, hcall, hr⟩ := bind_eq_ok.mp hr
    obtain ⟨⟨rest, s2⟩, hrest, hr⟩ := bind_eq_ok.mp hr
    obtain ⟨rfl, rfl⟩ := ok_pair_inj hr
    obtain ⟨hlt, hfree, hview⟩ := (xv6fsBalloc_sat Mkfs.sb [] s (fun x hx => by cases hx)).of_ok
      hcall
    have hview : s1.view = zeroed (marked Mkfs.sb s.view b) b := hview
    have hge : used ≤ b := by
      by_contra hb
      rw [hbits b hlt (Nat.not_le.mp hb)] at hfree
      cases hfree
    refine List.forall_mem_cons.mpr ⟨hge, ih s1 s2 rest (fun c hc hlow => ?_) hrest⟩
    -- a data block is cleared, and one bit is set
    have hbmap : BBLOCK c Mkfs.sb < dataStart Mkfs.sb := by
      rw [(BBLOCK_eq hc).1]
      exact bmapstart_lt_dataStart _
    have hne : BBLOCK c Mkfs.sb ≠ b := by omega
    rw [hview, zeroed, bitOf_congr (update_of_ne hne _ _), bitOf_marked, hbits c hc hlow,
      Bool.true_or]

lemma bitOf_sect (h : Finished files g₂ g) {b : Nat} (hb : b < Mkfs.sb.size) :
    bitOf Mkfs.sb g.sect b = decide (b < g.freeblock) := by
  rw [h.freeblock, ← bitOf_view g₂ hb]
  exact bitOf_congr (h.blocks _ (by rw [(BBLOCK_eq hb).1]))

/-- The blocks that `mkfs` used: before the data blocks, and those of inodes. -/
def Used (g : Img) (b : Nat) : Prop :=
  b < Mkfs.nmeta ∨ ∃ q, owns Mkfs.sb (dinodeAt Mkfs.sb g.sect) g.sect q = b

/-- All of them lie before `freeblock`. -/
lemma Used.lt (h : Finished files g₂ g) {b : Nat} (hb : Used g b) : b < g.freeblock := by
  have hstart := h.built.image.fits.start
  rw [h.freeblock]
  rcases hb with hb | ⟨⟨j, p⟩, rfl⟩
  · omega
  by_cases hz : owns Mkfs.sb (dinodeAt Mkfs.sb g.sect) g.sect (j, p) = 0
  · rw [hz]
    exact Nat.lt_of_lt_of_le (by decide) hstart
  have hinode : (dinodeAt Mkfs.sb g.sect j).addrs = (dinodeAt Mkfs.sb g₂.view j).addrs ∧
      (dinodeAt Mkfs.sb g.sect j).type = (dinodeAt Mkfs.sb g₂.view j).type := by
    by_cases hj : j = ROOTINO
    · rw [hj, h.root]
      exact ⟨rfl, rfl⟩
    · rw [h.others j hj]
      exact ⟨rfl, rfl⟩
  have hu := inUse_of_owns hz
  have hu2 : InUse Mkfs.sb (dinodeAt Mkfs.sb g₂.view) j :=
    ⟨hu.1, hu.2.1, by rw [← hinode.2]; exact hu.2.2⟩
  have hsame : owns Mkfs.sb (dinodeAt Mkfs.sb g.sect) g.sect (j, p) =
      owns Mkfs.sb (dinodeAt Mkfs.sb g₂.view) g₂.view (j, p) := by
    rw [owns_of_inUse hu, owns_of_inUse hu2]
    exact h.ownBlock_eq hu2 hinode.1 p
  rw [hsame] at hz ⊢
  have hdata := h.built.image.consistent.in_data _ hz
  have hbit := (h.built.image.consistent.bits _ hdata).mpr ⟨_, rfl⟩
  rw [bitOf_view g₂ hdata.2] at hbit
  exact of_decide_eq_true hbit

end Files

/-- **Main result.**  On every image that `mkfs` builds from files with different names, the
    kernel reads the superblock of `mkfs`, finds each file under its name and reads its
    bytes, from every offset and whatever is in the inode cache, and `xv6fs_balloc` returns
    no block that `mkfs` used, however often it is called. -/
theorem kernel_reads_mkfs (files : List HostFile) (g : Img) (hfiles : files.length + 1 < NINODES)
    (hnames : Distinct files) (hmain : Mkfs.main files = .ok g) (esb : Ext2Super)
    (devsw : Nat → Devsw) :
    (∀ s : Bcache, s.view = g.sect → xv6fsReadsb s = .ok (Mkfs.sb, s.touch 1)) ∧
    (∀ st, RootSync Mkfs.sb st → st.root.view = g.sect → Room st →
      ∀ f ∈ files, ∀ off n, off ≤ f.data.length → off + n < 2 ^ 32 →
        ∃ st', fetch Mkfs.sb esb devsw (hostName f.name) off n st =
          .ok (some (f.data.length, (min n (f.data.length - off) : Nat),
            (f.data.drop off).take n), st')) ∧
    ∀ (n : Nat) (s s' : Bcache) (bs : List Nat), s.view = g.sect →
      ballocs Mkfs.sb n s = .ok (bs, s') → ∀ b ∈ bs, g.freeblock ≤ b ∧ ¬Used g b := by
  obtain ⟨g2, h⟩ := Mkfs.main_finished hfiles hmain
  refine ⟨fun s hs => readsb_eq h hs, fun st hst hview hroom f hf off n hoff hn => ?_,
    fun n s s' bs hs hcalls b hb => ?_⟩
  · obtain ⟨k, hk⟩ := List.mem_iff_getElem?.mp hf
    exact fetch_eq esb devsw h hfiles hnames hst hview hroom hk hoff hn
  · have hstart : Mkfs.nmeta ≤ g.freeblock := by
      rw [h.freeblock]
      exact h.built.image.fits.start
    have hge := ballocs_ge hstart n s s' bs (fun c hc hlow => by
      rw [hs, bitOf_sect h hc]
      exact decide_eq_true hlow) hcalls b hb
    exact ⟨hge, fun hused => absurd (hused.lt h) (Nat.not_lt.mpr hge)⟩

lemma bootCache_rootSync (sb : Superblock) (root ext2 : Bcache) :
    RootSync sb (bootCache root ext2) := by
  have hunused : ∀ a, ¬InCache (bootCache root ext2) a := fun a h => absurd h.2 (Nat.lt_irrefl 0)
  exact ⟨(bootCache_inv root ext2).xv6, fun a h => absurd h (hunused a),
    fun a h => absurd h.1 (hunused a), fun a b h => absurd h.1 (hunused a),
    fun a h => absurd h.1 (hunused a)⟩

/-- The file `_a` of two bytes. -/
def oneFile : HostFile := ⟨[95, 97], [104, 105]⟩

lemma main_oneFile : ∃ g, Mkfs.main [oneFile] = .ok g := by
  have hok : (Mkfs.main [oneFile]).isOk = true := by decide +kernel
  cases hmain : Mkfs.main [oneFile] with
  | error e => rw [hmain] at hok; cases hok
  | ok g => exact ⟨g, rfl⟩

theorem kernel_reads_mkfs_oneFile : ∃ g st', Mkfs.main [oneFile] = .ok g ∧
    fetch Mkfs.sb rootConfig.esb noDevsw [97] 0 1024 (bootCache g.device blankDevice) =
      .ok (some (2, 2, [104, 105]), st') := by
  obtain ⟨g, hmain⟩ := main_oneFile
  have hread := (kernel_reads_mkfs [oneFile] g (by decide) ⟨by decide, by decide⟩ hmain
    rootConfig.esb noDevsw).2.1 (bootCache g.device blankDevice) (bootCache_rootSync _ _ _) rfl
    ⟨0, by decide, 1, by decide, by decide, rfl, rfl⟩ oneFile List.mem_cons_self 0 1024 (by decide)
    (by decide)
  obtain ⟨st', hst'⟩ := hread
  exact ⟨g, st', hmain, hst'⟩

end MkfsFiles
