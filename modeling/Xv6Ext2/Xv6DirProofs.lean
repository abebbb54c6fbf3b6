import Xv6Ext2.DirNameProofs
import Xv6Ext2.Xv6FileProofs

/-! # Directories of the root device (fs.c)

    The loops of `xv6fs_dirlookup` and `xv6fs_dirlink` over the records of a directory.
    On a consistent image they change no contents, and the only way they fail is a
    record that the end of the directory cuts off. -/

namespace Xv6Dir

open ByteBlock BufCache Outcome FileIo DirName Xv6Alloc Xv6Inode Xv6Image

/-- Length of a name in a record. -/
def DIRSIZ : Nat := 14

def DIRENT : Nat := 16

def deInum (de : Block) : Nat := getLE de 2 0

def deName (de : Block) : Nat → UInt8 := fun k => de (2 + k)

def namecmpEq (s t : Nat → UInt8) : Bool := strncmpEq s t DIRSIZ 0

def readDirent (sb : Superblock) (devsw : Nat → Devsw) (msg : String) (ip : Dinode) (off : Nat)
    (s : Bcache) : Except Err (Block × Dinode × Bcache) := do
  let ((r, bytes), ip, s) ← xv6fsReadi sb devsw ip off DIRENT s
  if r ≠ (DIRENT : Int) then .error (.panic msg)
  else .ok (fun k => bytes.getD k 0, ip, s)

/-- A loop over the records from `off` on, until `stop` holds of one or the end: the offset
    reached, and the record. -/
def scanFrom (sb : Superblock) (devsw : Nat → Devsw) (msg : String) (stop : Block → Bool) :
    Nat → Nat → Dinode → Bcache → Except Err ((Nat × Option Block) × Dinode × Bcache)
  | 0, off, ip, s => .ok ((off, none), ip, s)
  | fuel + 1, off, ip, s =>
    if off < ip.size then do
      let (de, ip, s) ← readDirent sb devsw msg ip off s
      if stop de = true then .ok ((off, some de), ip, s)
      else scanFrom sb devsw msg stop fuel (off + DIRENT) ip s
    else .ok ((off, none), ip, s)

/-- The search of `xv6fs_dirlookup`: the record with this name. -/
def dirSearch (sb : Superblock) (devsw : Nat → Devsw) (name : List UInt8) (ip : Dinode)
    (s : Bcache) : Except Err ((Nat × Option Block) × Dinode × Bcache) :=
  if ip.type ≠ T_DIR then .error (.panic "dirlookup not DIR")
  else scanFrom sb devsw "dirlookup read"
    (fun de => deInum de != 0 && namecmpEq (cstr name) (deName de)) ip.size 0 ip s

/-- The loop of `xv6fs_dirlink`: a record without an inode, or the end. -/
def freeDirent (sb : Superblock) (devsw : Nat → Devsw) (ip : Dinode) (s : Bcache) :
    Except Err ((Nat × Option Block) × Dinode × Bcache) :=
  scanFrom sb devsw "dirlink read" (fun de => deInum de == 0) ip.size 0 ip s

/-- The record that `xv6fs_dirlink` stores; `de.inum` has 16 bits. -/
def newDirent (name : List UInt8) (inum : Nat) : Block :=
  putLE (fun k => strncpyByte (cstr name) (k - 2)) 2 0 inum

/-- The part of `xv6fs_dirlink` that adds the record. -/
def addDirent (sb : Superblock) (devsw : Nat → Devsw) (name : List UInt8) (inum dnum : Nat)
    (ip : Dinode) (s : Bcache) : Except Err (Int × Dinode × Bcache) := do
  let ((off, _), ip, s) ← freeDirent sb devsw ip s
  let (r, ip, s) ← xv6fsWritei sb dnum devsw ip (newDirent name inum) off DIRENT s
  if r ≠ (DIRENT : Int) then .error (.panic "dirlink")
  else .ok (0, ip, s)

/-- Record `n` of a directory, as `readi` stores it in a cleared `de`. -/
def record (ip : Dinode) (v : Disk) (n : Nat) : Block := fun k =>
  if k < DIRENT then fileByte ip v (DIRENT * n + k) else 0

def records (ip : Dinode) (v : Disk) : List Block :=
  (List.range (ip.size / DIRENT)).map (record ip v)

/-- The test of `xv6fs_dirlookup`: a record in use with this name. -/
def named (name : List UInt8) (de : Block) : Bool :=
  deInum de != 0 && namecmpEq (cstr name) (deName de)

/-! ## On a consistent image -/

section Search

variable {sb : Superblock} {dnum : Nat} {s : Bcache}

/-- A record is read, or cut off by the end. -/
lemma readDirent_sat (devsw : Nat → Devsw) (msg : String) {off : Nat}
    (h : Consistent sb s.view) (hu : InUse sb (dinodeAt sb s.view) dnum)
    (hf : IsFile (dinodeAt sb s.view dnum)) (hoff : off < (dinodeAt sb s.view dnum).size) :
    Sat (readDirent sb devsw msg (dinodeAt sb s.view dnum) off s)
      (fun r => r.2.1 = dinodeAt sb s.view dnum ∧ r.2.2.view = s.view)
      (fun e => e = .panic msg) := by
  have hle := size_le_max h hu hf
  have hlim : MAXFILE * BSIZE = 274432 := rfl
  have h16 : DIRENT = 16 := rfl
  obtain ⟨s', hread, hview⟩ := readi_reads devsw h hu hf hoff.le
    (show off + DIRENT < 2 ^ 32 by omega)
  rw [readDirent, hread, ok_bind]
  dsimp only
  split
  · exact Sat.error rfl
  · exact Sat.ok ⟨rfl, hview⟩

lemma scanFrom_sat (devsw : Nat → Devsw) (msg : String) (stop : Block → Bool) (fuel : Nat) :
    ∀ (off : Nat) (s : Bcache), Consistent sb s.view → InUse sb (dinodeAt sb s.view) dnum →
    IsFile (dinodeAt sb s.view dnum) →
    Sat (scanFrom sb devsw msg stop fuel off (dinodeAt sb s.view dnum) s)
      (fun r => r.2.1 = dinodeAt sb s.view dnum ∧ r.2.2.view = s.view)
      (fun e => e = .panic msg) := by
  induction fuel with
  | zero => exact fun off s _ _ _ => Sat.ok ⟨rfl, rfl⟩
  | succ fuel ih =>
    intro off s h hu hf
    rw [scanFrom]
    split
    · next hlt =>
      refine (readDirent_sat devsw _ h hu hf hlt).bind ?_
      rintro ⟨de, ip, s1⟩ ⟨hip, hview⟩
      dsimp only at hip hview ⊢
      rw [hip]
      split
      · exact Sat.ok ⟨rfl, hview⟩
      · rw [← hview] at h hu hf ⊢
        exact ih _ s1 h hu hf
    · exact Sat.ok ⟨rfl, rfl⟩

lemma dirSearch_sat (devsw : Nat → Devsw) (name : List UInt8) (h : Consistent sb s.view)
    (hu : InUse sb (dinodeAt sb s.view) dnum) :
    Sat (dirSearch sb devsw name (dinodeAt sb s.view dnum) s)
      (fun r => (dinodeAt sb s.view dnum).type = T_DIR ∧ r.2.1 = dinodeAt sb s.view dnum ∧
        r.2.2.view = s.view)
      (fun e => e = .panic "dirlookup not DIR" ∨ e = .panic "dirlookup read") := by
  rw [dirSearch]
  by_cases hdir : (dinodeAt sb s.view dnum).type = T_DIR
  · rw [if_neg (not_not.mpr hdir)]
    exact (scanFrom_sat devsw _ _ _ 0 s h hu (.inr hdir)).mono (fun r hr => ⟨hdir, hr⟩)
      (fun e he => .inr he)
  · rw [if_pos hdir]
    exact Sat.error (.inl rfl)

variable {ip : Dinode} {n : Nat}

lemma slice_eq_record (v : Disk) (hend : DIRENT * (n + 1) ≤ ip.size) :
    (fun k => (((content ip v).drop (DIRENT * n)).take DIRENT).getD k 0) = record ip v n := by
  have hnext : DIRENT * (n + 1) = DIRENT * n + DIRENT := Nat.mul_succ _ _
  rw [← content_slice]
  funext k
  rw [record]
  by_cases hk : k < DIRENT
  · have hlen : k < min DIRENT (ip.size - DIRENT * n) := by omega
    rw [if_pos hk, List.getD_eq_getElem _ 0 (by rw [List.length_map, List.length_range]; exact hlen)]
    simp only [List.getElem_map, List.getElem_range]
  rw [if_neg hk, List.getD_eq_default _ _ (by
    rw [List.length_map, List.length_range]
    omega)]

lemma readDirent_held (devsw : Nat → Devsw) (msg : String)
    (hdev : ip.type ≠ T_DEV) (hsize : ip.size < 2 ^ 32) (hend : DIRENT * (n + 1) ≤ ip.size)
    (hblocks : ∀ bn, bn * BSIZE < DIRENT * (n + 1) → blockAt ip s.view bn ≠ 0) :
    ∃ s', readDirent sb devsw msg ip (DIRENT * n) s = .ok (record ip s.view n, ip, s') ∧
      s'.view = s.view := by
  have h16 : DIRENT = 16 := rfl
  have hnext : DIRENT * (n + 1) = DIRENT * n + DIRENT := Nat.mul_succ _ _
  have hmin : min DIRENT (ip.size - DIRENT * n) = DIRENT := by omega
  obtain ⟨s', hread, hview⟩ := readi_held devsw hdev (show DIRENT * n ≤ ip.size by omega)
    (show DIRENT * n + DIRENT < 2 ^ 32 by omega) (by rw [hmin]; decide)
    (fun bn hbn => hblocks bn (by omega))
  refine ⟨s', ?_, hview⟩
  rw [readDirent, hread, ok_bind]
  dsimp only
  rw [hmin, if_neg (fun hne => hne rfl), slice_eq_record s.view hend]

lemma scanFrom_end (devsw : Nat → Devsw) (msg : String) (stop : Block → Bool) (fuel : Nat)
    {off : Nat} (h : ip.size ≤ off) (s : Bcache) :
    scanFrom sb devsw msg stop fuel off ip s = .ok ((off, none), ip, s) := by
  cases fuel with
  | zero => rfl
  | succ fuel => rw [scanFrom, if_neg (Nat.not_lt.mpr h)]

/-- **A loop over records whose blocks are there** stops at the first one with `stop`, or
    goes on behind the last of them. -/
lemma scanFrom_held (sb : Superblock) (devsw : Nat → Devsw) (msg : String)
    (stop : Block → Bool) {v : Disk} {count : Nat} (hdev : ip.type ≠ T_DEV)
    (hsize : ip.size < 2 ^ 32) (hend : DIRENT * count ≤ ip.size)
    (hblocks : ∀ bn, bn * BSIZE < DIRENT * count → blockAt ip v bn ≠ 0) (fuel : Nat) :
    ∀ (n : Nat) (s : Bcache), s.view = v → n ≤ count → count ≤ n + fuel →
    ∃ s', s'.view = v ∧ scanFrom sb devsw msg stop fuel (DIRENT * n) ip s =
      match ((List.range' n (count - n)).map (record ip v)).find? stop with
      | some de => .ok ((DIRENT * (n + ((List.range' n (count - n)).map
          (record ip v)).findIdx stop), some de), ip, s')
      | none => scanFrom sb devsw msg stop (fuel - (count - n)) (DIRENT * count) ip s' := by
  induction fuel with
  | zero =>
    intro n s hs hn hfuel
    obtain rfl : n = count := by omega
    rw [Nat.sub_self]
    exact ⟨s, hs, rfl⟩
  | succ fuel ih =>
    intro n s hs hn hfuel
    by_cases hlt : n < count
    · have hn1 : DIRENT * (n + 1) ≤ DIRENT * count := Nat.mul_le_mul_left _ hlt
      have hnext : DIRENT * (n + 1) = DIRENT * n + DIRENT := Nat.mul_succ _ _
      have h16 : DIRENT = 16 := rfl
      subst hs
      obtain ⟨s1, hread, hview⟩ := readDirent_held devsw msg hdev hsize (hn1.trans hend)
        (fun bn hbn => hblocks bn (by omega))
      have hsplit : count - n = count - (n + 1) + 1 := by omega
      rw [scanFrom, if_pos (by omega), hread, ok_bind, hsplit, List.range'_succ, List.map_cons,
        List.findIdx_cons]
      dsimp only
      by_cases hstop : stop (record ip s.view n) = true
      · rw [if_pos hstop, List.find?_cons_of_pos hstop, hstop]
        exact ⟨s1, hview, rfl⟩
      rw [if_neg hstop, List.find?_cons_of_neg hstop, Bool.eq_false_iff.mpr hstop]
      obtain ⟨s2, hview2, hrest⟩ := ih (n + 1) s1 hview hlt (by omega)
      refine ⟨s2, hview2, ?_⟩
      rw [← hnext, hrest, cond_false, Nat.succ_sub_succ, Nat.add_assoc, Nat.add_comm 1]
    · obtain rfl : n = count := by omega
      rw [Nat.sub_self]
      exact ⟨s, hs, rfl⟩

lemma addDirent_sat (hl : Layout sb) (devsw : Nat → Devsw) (name : List UInt8) (inum : Nat)
    (h : Consistent sb s.view) (hu : InUse sb (dinodeAt sb s.view) dnum)
    (hdir : (dinodeAt sb s.view dnum).type = T_DIR) :
    Sat (addDirent sb devsw name inum dnum (dinodeAt sb s.view dnum) s)
      (fun r => Kept sb dnum s.view r.2.1 r.2.2.view)
      (fun e => e = .panic "dirlink read" ∨ e = .panic "balloc: out of blocks" ∨
        e = .panic "dirlink") := by
  rw [addDirent]
  refine ((scanFrom_sat devsw _ _ _ 0 s h hu (.inr hdir)).mono (fun r hr => hr)
    (fun e he => .inl he)).bind ?_
  rintro ⟨⟨off, de⟩, ip, s1⟩ ⟨hip, hview⟩
  dsimp only at hip hview ⊢
  rw [hip]
  rw [← hview] at h hu ⊢
  refine ((writei_kept hl devsw (newDirent name inum) h hu (by decide)).mono (fun r hr => hr)
    (fun e he => .inr (.inl he))).bind ?_
  rintro ⟨r, ip2, s2⟩ hkept
  dsimp only at hkept ⊢
  split
  · exact Sat.error (.inr (.inr rfl))
  · exact Sat.ok hkept

end Search

end Xv6Dir
