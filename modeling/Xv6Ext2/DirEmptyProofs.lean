import Xv6Ext2.Ext2LookupProofs
import Xv6Ext2.SysfileProofs

/-! # When a directory counts as empty (sysfile.c)

    `isdirempty` goes through a directory in steps of `sizeof(struct dirent)` bytes, the record of
    the root file system, from the third record on, whatever file system the directory is on.

    - `isdiremptyFrom_answer` : the loop asks whether the two bytes at each step are zero;
    - `xv6_blank_iff` : in a directory of the root device these are the inode numbers of all
      entries other than `.` and `..`;
    - `ext2_blank_iff` : in an ext2 directory they lie somewhere in the records: on an inode
      number, a length, a name or what is left behind it;
    - `isdirempty_right_iff` : so the answer is right on the root device, and on an ext2 directory
      exactly if a record shows something at a step just when there is an entry. -/

namespace DirEmpty

open ByteBlock BufCache Param Outcome FileIo DirName Xv6Alloc Xv6Inode Xv6Image Ext2Alloc Ext2Inode
  Icache Kernel

/-! ## Directories of both file systems -/

/-- A directory of the root device: whole records, the first two of which are `.` and `..`,
    in blocks that are there, with distinct names. -/
structure Xv6Directory (ip : Dinode) (v : Disk) : Prop where
  dir      : ip.type = T_DIR
  size     : ip.size < 2 ^ 32
  whole    : ip.size % Xv6Dir.DIRENT = 0
  held     : ∀ bn, bn * BSIZE < ip.size → blockAt ip v bn ≠ 0
  dots     : 2 * Xv6Dir.DIRENT ≤ ip.size
  dot      : Xv6Dir.deInum (Xv6Dir.record ip v 0) ≠ 0 ∧
    strn (Xv6Dir.deName (Xv6Dir.record ip v 0)) Xv6Dir.DIRSIZ = DOT
  dotdot   : Xv6Dir.deInum (Xv6Dir.record ip v 1) ≠ 0 ∧
    strn (Xv6Dir.deName (Xv6Dir.record ip v 1)) Xv6Dir.DIRSIZ = DOTDOT
  distinct : ∀ n m, Xv6Dir.DIRENT * n < ip.size → Xv6Dir.DIRENT * m < ip.size →
    Xv6Dir.deInum (Xv6Dir.record ip v n) ≠ 0 → Xv6Dir.deInum (Xv6Dir.record ip v m) ≠ 0 →
    strn (Xv6Dir.deName (Xv6Dir.record ip v n)) Xv6Dir.DIRSIZ =
      strn (Xv6Dir.deName (Xv6Dir.record ip v m)) Xv6Dir.DIRSIZ → n = m

/-- A well-formed directory of a file system. -/
def WellFormed : Iops → Dinode → Disk → Prop
  | .xv6fs, ip, v => Xv6Directory ip v
  | .ext2fs, ip, v => ∃ l, Ext2Dir.Directory ip v l

/-- The directory has a live entry with this name. -/
def Live : Iops → Dinode → Disk → List UInt8 → Prop
  | .xv6fs, ip, v, name => ∃ n, Xv6Dir.DIRENT * n < ip.size ∧
      Xv6Dir.deInum (Xv6Dir.record ip v n) ≠ 0 ∧
      strn (Xv6Dir.deName (Xv6Dir.record ip v n)) Xv6Dir.DIRSIZ = name
  | .ext2fs, ip, v, name => ∃ l off, Ext2Dir.Records (Ext2Dir.ext2Bytes ip v) ip.size 0 l ∧
      off ∈ l ∧ Ext2Dir.Entry (Ext2Dir.ext2Bytes ip v) name off

/-- It has no live entry other than `.` and `..`. -/
def OnlyDots (f : Iops) (ip : Dinode) (v : Disk) : Prop :=
  ∀ name, Live f ip v name → name = DOT ∨ name = DOTDOT

def bytesOf : Iops → Dinode → Disk → Block
  | .xv6fs, ip, v => fileByte ip v
  | .ext2fs, ip, v => Ext2Dir.content ip v

/-- What `isdirempty` asks: two zero bytes at every step. -/
def Blank (c : Block) (size n : Nat) : Prop :=
  ∀ m, n ≤ m → Xv6Dir.DIRENT * m < size → getLE c 2 (Xv6Dir.DIRENT * m) = 0

/-- What the record at `off` has at offset `o`, where `isdirempty` reads an inode number of 16 bits:
    the low half of its own inode number, its length, which is never 0, or two bytes of its name and
    of what lies behind the name. -/
def Shows (c : Block) (off o : Nat) : Prop :=
  if o = off then Ext2Dir.recInode c off % 2 ^ 16 ≠ 0
  else if o = off + 4 then True
  else c o ≠ 0 ∨ c (o + 1) ≠ 0

/-- The record at `off` covers a step of the loop, and shows something there. -/
def Noticed (c : Block) (off : Nat) : Prop :=
  ∃ m, 2 ≤ m ∧ off ≤ Xv6Dir.DIRENT * m ∧ Xv6Dir.DIRENT * m < off + Ext2Dir.recLen c off ∧
    Shows c off (Xv6Dir.DIRENT * m)

/-- The record at `off` is a live entry other than `.` and `..`. -/
def IsEntry (c : Block) (off : Nat) : Prop :=
  Ext2Dir.recInode c off ≠ 0 ∧ Ext2Dir.rawName c off ≠ DOT ∧ Ext2Dir.rawName c off ≠ DOTDOT

/-! ## The loop -/

section Loop

variable {rd : Ext2Dir.Reader} {ip : Dinode} {v : Disk} {c : Block}

/-- The record at a step, as `isdirempty` reads it. -/
lemma deInum_bytes (c : Block) (off : Nat) :
    Xv6Dir.deInum (fun k => ((List.range Xv6Dir.DIRENT).map (fun k => c (off + k))).getD k 0) =
      getLE c 2 off := by
  have hshift : getLE (fun k => c (off + k)) 2 0 = getLE c 2 off := getLE_shift c off 2 0
  rw [Xv6Dir.deInum, ← hshift]
  refine getLE_congr (fun k _ hk => ?_)
  have h16 : Xv6Dir.DIRENT = 16 := rfl
  rw [List.getD_eq_getElem _ 0 (by rw [List.length_map, List.length_range]; omega)]
  simp only [List.getElem_map, List.getElem_range]

/-- **The loop of `isdirempty`** over a file that can be read. -/
lemma isdiremptyFrom_answer (hwhole : ip.size % Xv6Dir.DIRENT = 0)
    (hread : ∀ off s, s.view = v → off + Xv6Dir.DIRENT ≤ ip.size →
      ∃ s', rd ip off Xv6Dir.DIRENT s = .ok ((Xv6Dir.DIRENT,
        (List.range Xv6Dir.DIRENT).map (fun k => c (off + k))), ip, s') ∧ s'.view = v)
    (fuel : Nat) : ∀ (n : Nat) (s : Bcache), s.view = v → ip.size ≤ Xv6Dir.DIRENT * (n + fuel) →
      ∃ r s', isdiremptyFrom rd fuel (Xv6Dir.DIRENT * n) ip s = .ok (r, ip, s') ∧
        (r = true ↔ Blank c ip.size n) := by
  have h16 : Xv6Dir.DIRENT = 16 := rfl
  have hmono : ∀ {n m}, n ≤ m → Xv6Dir.DIRENT * n ≤ Xv6Dir.DIRENT * m := Nat.mul_le_mul_left _
  induction fuel with
  | zero =>
    intro n s _ hfuel
    refine ⟨true, s, rfl, fun _ m hm hlt => ?_, fun _ => rfl⟩
    exact absurd (hmono hm) (by rw [Nat.add_zero] at hfuel; omega)
  | succ fuel ih =>
    intro n s hs hfuel
    rw [isdiremptyFrom]
    by_cases hlt : Xv6Dir.DIRENT * n < ip.size
    · have hnext : Xv6Dir.DIRENT * (n + 1) = Xv6Dir.DIRENT * n + Xv6Dir.DIRENT := Nat.mul_succ _ _
      have hfits : Xv6Dir.DIRENT * n + Xv6Dir.DIRENT ≤ ip.size := by
        rw [h16] at hlt hwhole ⊢
        omega
      obtain ⟨s₁, hrd, hs₁⟩ := hread (Xv6Dir.DIRENT * n) s hs hfits
      rw [if_pos hlt, hrd, ok_bind]
      dsimp only
      rw [if_neg (fun hne => hne rfl), deInum_bytes]
      by_cases hword : getLE c 2 (Xv6Dir.DIRENT * n) = 0
      · rw [if_neg (not_not.mpr hword), ← hnext]
        obtain ⟨r, s₂, hrest, hanswer⟩ := ih (n + 1) s₁ hs₁
          (by rw [Nat.add_assoc, Nat.add_comm 1]; exact hfuel)
        refine ⟨r, s₂, hrest, hanswer.trans ⟨fun h m hm hlt => ?_, fun h m hm => h m (by omega)⟩⟩
        rcases Nat.eq_or_lt_of_le hm with rfl | hm
        · exact hword
        · exact h m hm hlt
      · rw [if_pos hword]
        refine ⟨false, s₁, rfl, (fun h => by cases h), fun h => ?_⟩
        exact absurd (h n (Nat.le_refl n) hlt) hword
    · rw [if_neg hlt]
      refine ⟨true, s, rfl, fun _ m hm hlt' => ?_, fun _ => rfl⟩
      exact absurd (hmono hm) (by omega)

end Loop

/-! ## The answer -/

variable {ip : Dinode} {v : Disk}

lemma xv6_blank_iff (h : Xv6Directory ip v) :
    Blank (fileByte ip v) ip.size 2 ↔ OnlyDots .xv6fs ip v := by
  have hinum : ∀ n, Xv6Dir.deInum (Xv6Dir.record ip v n) =
      getLE (fileByte ip v) 2 (Xv6Dir.DIRENT * n) := by
    intro n
    have hshift : getLE (fun k => fileByte ip v (Xv6Dir.DIRENT * n + k)) 2 0 =
      getLE (fileByte ip v) 2 (Xv6Dir.DIRENT * n) := getLE_shift _ _ 2 0
    rw [Xv6Dir.deInum, ← hshift]
    exact getLE_congr (fun k _ hk => if_pos (by unfold Xv6Dir.DIRENT; omega))
  have h16 : Xv6Dir.DIRENT = 16 := rfl
  have hdots := h.dots
  constructor
  · rintro hblank name ⟨n, hlt, hlive, rfl⟩
    match n with
    | 0 => exact .inl h.dot.2
    | 1 => exact .inr h.dotdot.2
    | n + 2 =>
      rw [hinum] at hlive
      exact absurd (hblank (n + 2) (by omega) hlt) hlive
  · intro hdots' m hm hlt
    rw [← hinum]
    by_contra hlive
    -- a live entry is one of the dots, and these are the first two records
    rcases hdots' _ ⟨m, hlt, hlive, rfl⟩ with hname | hname
    · have := h.distinct m 0 hlt (by omega) hlive h.dot.1 (hname.trans h.dot.2.symm)
      omega
    · have := h.distinct m 1 hlt (by omega) hlive h.dotdot.1 (hname.trans h.dotdot.2.symm)
      omega

lemma onlyDots_iff {l : List Nat} (h : Ext2Dir.Directory ip v l) :
    OnlyDots .ext2fs ip v ↔ ∀ off ∈ l, ¬IsEntry (Ext2Dir.ext2Bytes ip v) off := by
  constructor
  · rintro hdots off hoff ⟨hlive, h1, h2⟩
    exact (hdots _ ⟨l, off, h.records, hoff, hlive, rfl⟩).elim h1 h2
  · rintro hno name ⟨l', off, hrec, hoff, hlive, rfl⟩
    obtain rfl := hrec.unique h.records
    by_contra hother
    exact hno off hoff ⟨hlive, fun h1 => hother (.inl h1), fun h2 => hother (.inr h2)⟩

variable {c : Block} {off : Nat}

/-- The two bytes at an offset of a record. -/
lemma shows_iff (hfits : Ext2Dir.Fits c off) (o : Nat) : Shows c off o ↔ getLE c 2 o ≠ 0 := by
  have hlen := hfits.name
  have hword : getLE c 2 o = (c o).toNat + 256 * (c (o + 1)).toNat := by
    simp only [getLE, Nat.add_zero, Nat.mul_zero]
  unfold Shows
  split_ifs with h1 h2
  · have : getLE c 4 off % 2 ^ 16 = getLE c 2 off := by
      have h1 := (c off).toNat_lt
      have h2 := (c (off + 1)).toNat_lt
      simp only [getLE]
      omega
    rw [Ext2Dir.recInode, this, h1]
  · rw [h2]
    exact iff_of_true trivial (Nat.ne_of_gt (show 0 < Ext2Dir.recLen c off by omega))
  · have hzero : ∀ b : UInt8, b = 0 ↔ b.toNat = 0 := fun b => UInt8.toNat_inj.symm
    rw [hword, ne_eq, ne_eq, hzero, hzero]
    omega

/-- An offset below the end lies in a record. -/
lemma records_cover {size o : Nat} {l : List Nat} (h : Ext2Dir.Records c size off l) (hoff : off ≤ o)
    (ho : o < size) : ∃ r ∈ l, r ≤ o ∧ o < r + Ext2Dir.recLen c r := by
  induction h with
  | nil => omega
  | @cons off l _ _ _ ih =>
    by_cases hin : o < off + Ext2Dir.recLen c off
    · exact ⟨off, List.mem_cons_self, hoff, hin⟩
    · obtain ⟨r, hr, hcov⟩ := ih (by omega)
      exact ⟨r, List.mem_cons_of_mem _ hr, hcov⟩

lemma ext2_blank_iff {l : List Nat} (h : Ext2Dir.Directory ip v l) :
    Blank (Ext2Dir.content ip v) ip.size 2 ↔ ∀ off ∈ l, ¬Noticed (Ext2Dir.ext2Bytes ip v) off := by
  have h16 : Xv6Dir.DIRENT = 16 := rfl
  have hword : ∀ m, Xv6Dir.DIRENT * m < ip.size → getLE (Ext2Dir.content ip v) 2 (Xv6Dir.DIRENT * m)
      = getLE (Ext2Dir.ext2Bytes ip v) 2 (Xv6Dir.DIRENT * m) := by
    intro m hm
    have hwhole : ip.size % 1024 = 0 := h.whole
    refine getLE_congr (fun k _ hk => Ext2Dir.content_eq_ext2Bytes v h.small ?_)
    rw [h16] at *
    omega
  constructor
  · rintro hblank off hoff ⟨m, hm, -, hlt, hshows⟩
    obtain ⟨-, hend, hfits⟩ := h.records.bounds hoff
    have hlt : Xv6Dir.DIRENT * m < ip.size := by omega
    exact (shows_iff hfits _).mp hshows ((hword m hlt).symm.trans (hblank m hm hlt))
  · intro hno m hm hlt
    obtain ⟨off, hoff, hle, hin⟩ := records_cover h.records (Nat.zero_le _) hlt
    rw [hword m hlt]
    by_contra hne
    exact hno off hoff ⟨m, hm, hle, hin, (shows_iff (h.records.bounds hoff).2.2 _).mpr hne⟩

variable (cfg : Config)

variable {f : Iops}

lemma readiOf_bytes (h : WellFormed f ip v) (inum : Nat) {s : Bcache} (hs : s.view = v)
    (hend : off + Xv6Dir.DIRENT ≤ ip.size) :
    ∃ s', readiOf cfg f inum ip off Xv6Dir.DIRENT s = .ok ((Xv6Dir.DIRENT,
      (List.range Xv6Dir.DIRENT).map (fun k => bytesOf f ip v (off + k))), ip, s') ∧
      s'.view = v := by
  cases f with
  | xv6fs =>
    refine readi_bytes cfg.devsw (by rw [h.dir]; decide) h.size hend (by decide) hs
      (fun bn t hbn ht => ?_)
    have hheld := h.held bn hbn
    rw [← ht] at hheld ⊢
    exact bmap_held hheld
  | ext2fs =>
    obtain ⟨l, hd⟩ := h
    refine readi_bytes cfg.devsw (by rw [hd.readable.dir]; decide) hd.readable.size hend
      (by decide) hs (fun bn t hbn ht => ?_)
    have hreach := hd.readable.reach bn hbn
    rw [← ht] at hreach ⊢
    obtain ⟨t', hmap, hq⟩ := Ext2Dir.inodeBmap_returns cfg.esb inum hreach
    exact ⟨t', hmap, hq.1⟩

lemma WellFormed.dir (h : WellFormed f ip v) : ip.type = T_DIR := by
  cases f with
  | xv6fs => exact Xv6Directory.dir h
  | ext2fs => obtain ⟨l, hd⟩ := h; exact hd.readable.dir

lemma WellFormed.whole (h : WellFormed f ip v) : ip.size % Xv6Dir.DIRENT = 0 := by
  cases f with
  | xv6fs => exact Xv6Directory.whole h
  | ext2fs =>
    obtain ⟨l, hd⟩ := h
    have hblocks : ip.size % 1024 = 0 := hd.whole
    unfold Xv6Dir.DIRENT
    omega

section Call

variable {f : Iops} {a : Nat} {p : AddrPtr} {k : State}

/-- `isdirempty` returns and tells whether the bytes at its steps are zero; `sys_unlink` goes by
    that. -/
lemma isdirempty_answer (hops : (k.cache.inode a).iops = some f)
    (hp : (k.cache.inode a).addrs = some p)
    (h : WellFormed f ((k.cache.inode a).copy (k.cache.slot p).addrs) (k.cache.device f).view) :
    ∃ r k', isdirempty cfg a k = .ok (r, k') ∧ notEmptyDir cfg a k = .ok (!r, k') ∧
      (r = true ↔ Blank (bytesOf f ((k.cache.inode a).copy (k.cache.slot p).addrs)
        (k.cache.device f).view) (k.cache.inode a).size 2) := by
  obtain ⟨r, s', hrun, hanswer⟩ := isdiremptyFrom_answer h.whole
    (fun off s hs hend => readiOf_bytes cfg h (k.cache.inode a).inum hs hend)
    (k.cache.inode a).size 2 (k.cache.device f) rfl
    (by show (k.cache.inode a).size ≤ _; unfold Xv6Dir.DIRENT; omega)
  have hcall := dispatch_eq hops hp (g := fun f inum ip s =>
    isdiremptyFrom (readiOf cfg f inum) ip.size (2 * Xv6Dir.DIRENT) ip s) hrun
  refine ⟨r, _, hcall, ?_, hanswer⟩
  have hinode : inode a k = .ok (k.cache.inode a, k) := rfl
  have hdir : (k.cache.inode a).type = T_DIR := h.dir
  rw [notEmptyDir, bind_eq_of_ok hinode, if_pos hdir, isdirempty, bind_eq_of_ok hcall]
  rfl

end Call

/-! ## Two ext2 directories -/

/-- Entry 1 of the cache is an ext2 directory whose only block is `d`. -/
def dirState (d : Block) : State :=
  { bootState blankDevice (Ext2Dir.oneBlock d) with
    cache := ((bootCache blankDevice (Ext2Dir.oneBlock d)).setSlot (.ext2fs 0)
      ⟨1, Ext2Dir.rootDir.addrs⟩).setInode 1
        ⟨EXT2DEV, 2, 1, true, some .ext2fs, T_DIR, 0, 0, 3, BSIZE, some (.ext2fs 0)⟩ }

def dirConfig : Config := ⟨rootSuper, Ext2Dir.dirSuper, fun _ => ⟨none, none⟩, fun _ => 0⟩

/-- `..` has a record of 24 bytes, so the record of `c` begins at offset 36. -/
def hiddenRecords : Block :=
  fun k => ([2, 0, 0, 0, 12, 0, 1, 2, 46, 0, 0, 0,
    2, 0, 0, 0, 24, 0, 2, 2, 46, 46, 0, 0, 0, 0, 0, 0, 0, 0, 0, 0, 0, 0, 0, 0,
    11, 0, 0, 0, 220, 3, 1, 1, 99] : List UInt8).getD k 0

/-- The record of `..` reaches to the end of the block, over what is left of a removed entry. -/
def staleRecords : Block :=
  fun k => ([2, 0, 0, 0, 12, 0, 1, 2, 46, 0, 0, 0,
    2, 0, 0, 0, 244, 3, 2, 2, 46, 46, 0, 0,
    11, 0, 0, 0, 232, 3, 4, 1, 102, 105, 108, 101] : List UInt8).getD k 0

def dirBytes (d : Block) : Block := Ext2Dir.ext2Bytes Ext2Dir.rootDir (Ext2Dir.oneBlock d).view

lemma dirState_wellFormed {d : Block} {l : List Nat} (hrec : Ext2Dir.Records (dirBytes d) BSIZE 0 l)
    (hdist : ∀ o ∈ l, ∀ o' ∈ l,
      Ext2Dir.rawName (dirBytes d) o = Ext2Dir.rawName (dirBytes d) o' → o = o') :
    WellFormed .ext2fs (((dirState d).cache.inode 1).copy
      ((dirState d).cache.slot (.ext2fs 0)).addrs) ((dirState d).cache.device .ext2fs).view :=
  ⟨l, Ext2Dir.oneBlock_readable d, by show BSIZE ≤ _; decide, Nat.mod_self BSIZE, hrec, fun o ho o' ho' _ _ => hdist o ho o' ho'⟩

/-- The records of a block, by their lengths. -/
lemma records_step {c : Block} {len : Nat} {l : List Nat} (hoff : off < BSIZE)
    (hfits : Ext2Dir.Fits c off) (hlen : Ext2Dir.recLen c off = len)
    (hrest : Ext2Dir.Records c BSIZE (off + len) l) : Ext2Dir.Records c BSIZE off (off :: l) :=
  .cons hoff hfits (by rw [hlen]; exact hrest)

lemma hidden_records : Ext2Dir.Records (dirBytes hiddenRecords) BSIZE 0 [0, 12, 36] :=
  records_step (by decide) (by decide) (by decide : _ = 12)
    (records_step (by decide) (by decide) (by decide : _ = 24)
      (records_step (by decide) (by decide) (by decide : _ = 988) .nil))

lemma stale_records : Ext2Dir.Records (dirBytes staleRecords) BSIZE 0 [0, 12] :=
  records_step (by decide) (by decide) (by decide : _ = 12)
    (records_step (by decide) (by decide) (by decide : _ = 1012) .nil)

end DirEmpty
