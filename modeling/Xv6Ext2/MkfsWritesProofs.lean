import Xv6Ext2.MkfsAddrsProofs

/-! # Where mkfs writes

    The sectors that `mkfs` writes after the superblock, in order: an inode, a block of a file or of
    the root directory (or the indirect block of one), and at the end the bitmap.  The lists follow
    the functions of `mkfs` call by call; they are meant for the runs in which every call returns.

    The inode blocks have room for `TABLE` inodes, and `ialloc` does not look at that number.

    - `iappend_writes` : the data of files goes behind the bitmap;
    - `addFiles_inodes` : each host file gets the next inode;
    - `main_apart_iff` : the inodes stay in the inode blocks, and apart from the bitmap and the
      data, exactly when there are at most 206 host files. -/

namespace Mkfs

open ByteBlock BufCache Param Outcome FileIo DirName Xv6Alloc Xv6Inode Xv6Image

/-! ## The writes of a run -/

/-- A call of `wsect`: by `winode`, by `iappend`, or by `balloc`. -/
inductive Write where
  | inode (inum : Nat)
  | block (sec : Nat)
  | bitmap
  deriving DecidableEq, Repr

def Write.sector : Write → Nat
  | .inode inum => IBLOCK inum sb
  | .block sec => sec
  | .bitmap => sb.bmapstart

/-- `sectOf` writes the indirect block when it gets a new word. -/
def sectWrites (fbn : Nat) (din : Dinode) (g : Img) : List Write :=
  if fbn < NDIRECT then []
  else
    let r := addrOf NDIRECT din g
    after (rsect (r.1.addrs NDIRECT) r.2) fun indirect =>
      if getLE indirect 4 (4 * (fbn - NDIRECT)) = 0 then [.block (r.1.addrs NDIRECT)] else []

def appendWrites : Nat → Nat → List UInt8 → Dinode → Img → List Write
  | 0, _, _, _, _ => []
  | fuel + 1, off, p, din, g =>
    if p.length = 0 ∨ MAXFILE ≤ off / BSIZE then []
    else
      sectWrites (off / BSIZE) din g ++ after (sectOf (off / BSIZE) din g) fun r =>
        .block r.1 :: appendWrites fuel (off + chunk off p.length)
          (p.drop (chunk off p.length)) r.2.1 (stored r.1 off p r.2.2)

def iappendWrites (inum : Nat) (p : List UInt8) (g : Img) : List Write :=
  after (rinode inum g) fun din => appendWrites p.length din.size p din g ++ [.inode inum]

def iallocWrites (g : Img) : List Write := [.inode g.freeinode]

def copyWrites (inum : Nat) : Nat → List UInt8 → Img → List Write
  | 0, _, _ => []
  | fuel + 1, data, g =>
    if data.length = 0 then []
    else iappendWrites inum (data.take BSIZE) g ++
      after (iappend inum (data.take BSIZE) g) (copyWrites inum fuel (data.drop BSIZE))

def addFileWrites (f : HostFile) (g : Img) : List Write :=
  iallocWrites g ++ after (ialloc T_FILE g) fun r =>
    iappendWrites ROOTINO (dirent (hostName f.name) r.1) r.2 ++
      after (iappend ROOTINO (dirent (hostName f.name) r.1) r.2)
        (copyWrites r.1 f.data.length f.data)

def addFilesWrites : List HostFile → Img → List Write
  | [], _ => []
  | f :: fs, g => addFileWrites f g ++ after (addFile f g) (addFilesWrites fs)

def makeRootWrites (g : Img) : List Write :=
  iallocWrites g ++ after (ialloc T_DIR g) fun r =>
    iappendWrites r.1 (dirent DOT r.1) r.2 ++ after (iappend r.1 (dirent DOT r.1) r.2) fun g =>
      iappendWrites r.1 (dirent DOTDOT r.1) g ++ after (iappend r.1 (dirent DOTDOT r.1) g) fun g =>
        iappendWrites r.1 (dirent MNT r.1) g

/-- `fixRoot` writes the inode of the root directory, and `balloc` the bitmap. -/
def mainWrites (files : List HostFile) : List Write :=
  makeRootWrites blank ++ after (makeRoot blank) fun g =>
    addFilesWrites files g ++ after (addFiles files g) fun _ => [.inode ROOTINO, .bitmap]

/-- The inodes stay in their blocks, and no sector of an inode is one of the bitmap or of data. -/
structure Apart (ws : List Write) : Prop where
  inside : ∀ inum, .inode inum ∈ ws →
    sb.inodestart ≤ IBLOCK inum sb ∧ IBLOCK inum sb < sb.bmapstart
  apart  : ∀ inum, .inode inum ∈ ws → ∀ w ∈ ws, (∀ j, w ≠ .inode j) →
    w.sector ≠ IBLOCK inum sb

/-- An inode in the inode blocks, or a sector from the bitmap on. -/
def Write.Placed : Write → Prop
  | .inode inum => inum < TABLE
  | .block sec => nmeta ≤ sec
  | .bitmap => True

lemma apart_of_placed {ws : List Write} (h : ∀ w ∈ ws, w.Placed) : Apart ws := by
  have hin : ∀ inum, .inode inum ∈ ws → IBLOCK inum sb < sb.bmapstart :=
    fun inum hmem => (IBLOCK_lt_iff inum).mpr (h _ hmem)
  refine ⟨fun inum hmem => ⟨Nat.le_add_left _ _, hin inum hmem⟩, fun inum hmem w hw hne => ?_⟩
  have hlt := hin inum hmem
  have hplaced := h w hw
  cases w with
  | inode j => exact absurd rfl (hne j)
  | block sec =>
    have hmeta : nmeta = 46 := rfl
    have hbmap : sb.bmapstart = 45 := rfl
    have hsec : nmeta ≤ sec := hplaced
    show sec ≠ _
    omega
  | bitmap => exact Nat.ne_of_gt hlt

/-! ## Up to TABLE inodes the writes are placed -/

variable {fbn x : Nat} {din din' : Dinode} {g g' : Img}

/-- The only sector that `sectOf` writes is that of the indirect block. -/
lemma mem_sectWrites {w : Write} (h : sectOf fbn din g = .ok (x, din', g'))
    (hw : w ∈ sectWrites fbn din g) : NDIRECT ≤ fbn ∧ w = .block (din'.addrs NDIRECT) := by
  rw [sectWrites] at hw
  rw [sectOf] at h
  by_cases hd : fbn < NDIRECT
  · rw [if_pos hd] at hw
    cases hw
  rw [if_neg hd] at hw h
  obtain ⟨⟨din1, g1⟩, haddr⟩ : ∃ r, addrOf NDIRECT din g = r := ⟨_, rfl⟩
  rw [haddr] at hw h
  obtain ⟨⟨y, g2⟩, hword, h⟩ := bind_eq_ok.mp h
  obtain ⟨-, rfl, -⟩ := ok_triple_inj h
  obtain ⟨buf, hread, -⟩ := bind_eq_ok.mp hword
  dsimp only at hw
  rw [after_ok hread] at hw
  split at hw
  · exact ⟨Nat.not_lt.mp hd, List.mem_singleton.mp hw⟩
  · cases hw

section Placed

variable {g : Img} {inum : Nat}

/-- **The loop of `iappend`** writes data blocks. -/
lemma appendWrites_placed (fuel : Nat) : ∀ (off : Nat) (p : List UInt8) (D : Nat → Dinode)
    (g : Img) (r : Nat × Dinode × Img), Fits g → Working (table TABLE) D inum (blocks off) g.view →
    appendFrom fuel off p (D inum) g = .ok r →
    ∀ w ∈ appendWrites fuel off p (D inum) g, w.Placed := by
  induction fuel with
  | zero =>
    intro off p D g r _ _ _ w hw
    cases hw
  | succ fuel ih =>
    intro off p D g r hf h hr w hw
    rw [appendWrites] at hw
    split at hw
    · cases hw
    next hgo =>
      rw [not_or] at hgo
      obtain ⟨hmax, x, din1, g1, hsect, hx, hr⟩ := appendFrom_turn hgo.1 hr
      rw [hf.size] at hx
      obtain ⟨hge, hf2, -, D1, rfl, hw2, -⟩ :=
        stored_wrote (Nat.le_refl TABLE) hf h hmax hsect hx hgo.1
      rw [after_ok hsect, List.mem_append, List.mem_cons] at hw
      rcases hw with hw | rfl | hw
      · -- the indirect block is one of the file
        obtain ⟨hind, rfl⟩ := mem_sectWrites hsect hw
        have hn := (chunk_bounds off hgo.1).1
        have hi : (D1 inum).addrs NDIRECT ≠ 0 := by
          refine hw2.covers.indirect.mpr ?_
          unfold blocks BSIZE at *
          omega
        have hdata := hw2.core.tracked.in_data (inum, NDIRECT)
        rw [owns_of_inUse hw2.core.inUse, ownBlock_addr le_rfl] at hdata
        exact (dataBlock_bounds (hdata hi)).1
      · exact hge
      · exact ih _ _ D1 _ r hf2 hw2 hr w hw

lemma iappend_writes (h : Sound TABLE g)
    (hu : InUse (table TABLE) (dinodeAt (table TABLE) g.view) inum)
    (hf : IsFile (dinodeAt (table TABLE) g.view inum)) {p : List UInt8} {g' : Img}
    (hr : iappend inum p g = .ok g') : ∀ w ∈ iappendWrites inum p g, w.Placed := by
  intro w hw
  have hread := rinode_eq (Nat.le_refl TABLE) h.fits hu.2.1
  rw [iappend, hread, ok_bind] at hr
  obtain ⟨r, happend, -⟩ := bind_eq_ok.mp hr
  rw [iappendWrites, after_ok hread, List.mem_append, List.mem_singleton] at hw
  rcases hw with hw | rfl
  · exact appendWrites_placed _ _ _ _ _ r h.fits (h.consistent.working hu hf) happend w hw
  · exact hu.2.1

lemma copyWrites_placed (fuel : Nat) : ∀ (data : List UInt8) (g g' : Img), Sound TABLE g →
    InUse (table TABLE) (dinodeAt (table TABLE) g.view) inum →
    IsFile (dinodeAt (table TABLE) g.view inum) → copyFrom inum fuel data g = .ok g' →
    ∀ w ∈ copyWrites inum fuel data g, w.Placed := by
  induction fuel with
  | zero =>
    intro data g g' _ _ _ _ w hw
    cases hw
  | succ fuel ih =>
    intro data g g' h hu hf hr w hw
    rw [copyWrites] at hw
    rw [copyFrom] at hr
    by_cases hnil : data.length = 0
    · rw [if_pos hnil] at hw
      cases hw
    rw [if_neg hnil] at hw hr
    obtain ⟨g1, happend, hr⟩ := bind_eq_ok.mp hr
    rw [after_ok happend, List.mem_append] at hw
    rcases hw with hw | hw
    · exact iappend_writes h hu hf happend w hw
    have hp : data.take BSIZE ≠ [] := by
      rw [← List.length_pos_iff, List.length_take]
      unfold BSIZE
      omega
    have h1 := iappend_grew (Nat.le_refl TABLE) h hu hf hp happend
    refine ih _ g1 g' h1.image ⟨hu.1, hu.2.1, by rw [h1.type]; exact hu.2.2⟩ ?_ hr w hw
    unfold IsFile
    rwa [h1.type]

lemma addFileWrites_placed {files : List HostFile} (h : Filled TABLE files g) (f : HostFile)
    (hlt : g.freeinode < TABLE) {g' : Img} (hr : addFile f g = .ok g') :
    ∀ w ∈ addFileWrites f g, w.Placed := by
  intro w hw
  rw [addFile] at hr
  split at hr
  · cases hr
  obtain ⟨⟨inum, g1⟩, halloc, hr⟩ := bind_eq_ok.mp hr
  obtain ⟨g2, happend, hr⟩ := bind_eq_ok.mp hr
  obtain ⟨rfl, -, himage, hself, hothers, -, -⟩ :=
    ialloc_image (Nat.le_refl TABLE) h.image hlt (.inr rfl) halloc
  have hne : g.freeinode ≠ ROOTINO := by
    rw [h.count, ROOTINO]
    omega
  have hroot := hothers ROOTINO hne.symm
  have hu1 := (inUse_congr hroot).mpr h.inUse
  have hdir1 : IsFile (dinodeAt (table TABLE) g1.view ROOTINO) := by
    rw [hroot]
    exact .inr h.dir
  have h2 := iappend_grew (Nat.le_refl TABLE) himage hu1 hdir1 (dirent_ne_nil _ _) happend
  have hnew : dinodeAt (table TABLE) g2.view g.freeinode = fresh T_FILE := by
    rw [h2.others g.freeinode hne hlt, hself]
  rw [addFileWrites, after_ok halloc] at hw
  dsimp only at hw
  rw [after_ok happend, iallocWrites, List.mem_append, List.mem_append, List.mem_singleton] at hw
  rcases hw with rfl | hw | hw
  · exact hlt
  · exact iappend_writes himage hu1 hdir1 happend w hw
  · refine copyWrites_placed _ _ g2 g' h2.image ⟨h.image.first, hlt, ?_⟩ ?_ hr w hw
    · rw [hnew]
      decide
    · rw [hnew]
      exact .inl rfl

lemma addFilesWrites_placed (files : List HostFile) : ∀ (done : List HostFile) (g g' : Img),
    Filled TABLE done g → done.length + files.length + 1 < TABLE → addFiles files g = .ok g' →
    ∀ w ∈ addFilesWrites files g, w.Placed := by
  induction files with
  | nil =>
    intro done g g' _ _ _ w hw
    cases hw
  | cons f files ih =>
    intro done g g' h hlen hr w hw
    obtain ⟨g1, hadd, hr⟩ := bind_eq_ok.mp hr
    rw [List.length_cons] at hlen
    have hlt : g.freeinode < TABLE := by rw [h.count]; omega
    rw [addFilesWrites, after_ok hadd, List.mem_append] at hw
    rcases hw with hw | hw
    · exact addFileWrites_placed h f hlt hadd w hw
    · exact ih (done ++ [f]) g1 g' (h.addFile (Nat.le_refl TABLE) f hlt hadd)
        (by rw [List.length_append, List.length_singleton]; omega) hr w hw

end Placed

lemma makeRootWrites_eq : makeRootWrites blank =
    [.inode 1, .block 46, .inode 1, .block 46, .inode 1, .block 46, .inode 1] := by
  decide +kernel

variable {files : List HostFile}

/-- Up to 206 host files every write is placed. -/
lemma mainWrites_placed (hfiles : files.length ≤ 206)
    (hr : main files = .ok g) : ∀ w ∈ mainWrites files, w.Placed := by
  obtain ⟨g1, hroot, hr⟩ := bind_eq_ok.mp hr
  obtain ⟨g2, hadd, -⟩ := bind_eq_ok.mp hr
  intro w hw
  rw [mainWrites, after_ok hroot, after_ok hadd, List.mem_append, List.mem_append] at hw
  rcases hw with hw | hw | hw
  · rw [makeRootWrites_eq] at hw
    have heither : w = .inode 1 ∨ w = .block 46 := by
      revert w
      decide
    rcases heither with rfl | rfl
    · show 1 < TABLE
      decide
    · show nmeta ≤ 46
      decide
  · exact addFilesWrites_placed files [] g1 g2
      (makeRoot_filled (Nat.le_refl TABLE) (by decide) hroot)
      (show 0 + files.length + 1 < 208 by omega) hadd w hw
  · rw [List.mem_cons, List.mem_singleton] at hw
    rcases hw with rfl | rfl
    · show ROOTINO < TABLE
      decide
    · trivial

/-! ## Each host file takes the next inode -/

variable {inum : Nat}

lemma winode_inode {ip : Dinode} (h : winode inum ip g = .ok g') : g'.freeinode = g.freeinode := by
  obtain ⟨buf, -, h⟩ := bind_eq_ok.mp h
  obtain rfl := Except.ok.inj h
  rfl

lemma addrOf_inode (i : Nat) (din : Dinode) (g : Img) :
    (addrOf i din g).2.freeinode = g.freeinode := by
  rw [addrOf]
  split <;> rfl

lemma sectOf_inode (h : sectOf fbn din g = .ok (x, din', g')) : g'.freeinode = g.freeinode := by
  rw [sectOf] at h
  split at h
  · obtain ⟨-, -, rfl⟩ := ok_triple_inj h
    exact addrOf_inode _ _ _
  obtain ⟨⟨y, g1⟩, hword, h⟩ := bind_eq_ok.mp h
  obtain ⟨-, -, rfl⟩ := ok_triple_inj h
  rw [← addrOf_inode NDIRECT din g]
  rw [wordOf] at hword
  obtain ⟨buf, -, hword⟩ := bind_eq_ok.mp hword
  split at hword
  · obtain ⟨-, rfl⟩ := ok_pair_inj hword
    rfl
  · obtain ⟨-, rfl⟩ := ok_pair_inj hword
    rfl

lemma appendFrom_inode (fuel : Nat) : ∀ (off : Nat) (p : List UInt8) (din : Dinode) (g : Img)
    (r : Nat × Dinode × Img), appendFrom fuel off p din g = .ok r →
    r.2.2.freeinode = g.freeinode := by
  induction fuel with
  | zero =>
    intro off p din g r h
    obtain rfl := Except.ok.inj h
    rfl
  | succ fuel ih =>
    intro off p din g r h
    by_cases hnil : p.length = 0
    · rw [appendFrom, if_pos hnil] at h
      obtain rfl := Except.ok.inj h
      rfl
    obtain ⟨-, x, din1, g1, hsect, -, hrest⟩ := appendFrom_turn hnil h
    rw [ih _ _ _ _ r hrest]
    show g1.freeinode = g.freeinode
    exact sectOf_inode hsect

lemma iappend_inode {p : List UInt8} (h : iappend inum p g = .ok g') :
    g'.freeinode = g.freeinode := by
  obtain ⟨din, -, h⟩ := bind_eq_ok.mp h
  obtain ⟨⟨off, din1, g1⟩, happend, h⟩ := bind_eq_ok.mp h
  rw [winode_inode h]
  exact appendFrom_inode _ _ _ _ _ _ happend

lemma copyFrom_inode (fuel : Nat) : ∀ (data : List UInt8) (g g' : Img),
    copyFrom inum fuel data g = .ok g' → g'.freeinode = g.freeinode := by
  induction fuel with
  | zero =>
    intro data g g' h
    obtain rfl := Except.ok.inj h
    rfl
  | succ fuel ih =>
    intro data g g' h
    rw [copyFrom] at h
    split at h
    · obtain rfl := Except.ok.inj h
      rfl
    · obtain ⟨g1, happend, h⟩ := bind_eq_ok.mp h
      rw [ih _ g1 g' h, iappend_inode happend]

lemma addFile_inode {f : HostFile} (h : addFile f g = .ok g') : g'.freeinode = g.freeinode + 1 := by
  rw [addFile] at h
  split at h
  · cases h
  obtain ⟨⟨inum, g1⟩, halloc, h⟩ := bind_eq_ok.mp h
  obtain ⟨g2, happend, hcopy⟩ := bind_eq_ok.mp h
  obtain ⟨g3, hwrite, halloc⟩ := bind_eq_ok.mp halloc
  obtain ⟨-, rfl⟩ := ok_pair_inj halloc
  rw [copyFrom_inode _ _ _ _ hcopy, iappend_inode happend, winode_inode hwrite]

lemma addFiles_inodes (files : List HostFile) : ∀ (g g' : Img), addFiles files g = .ok g' →
    ∀ k < files.length, Write.inode (g.freeinode + k) ∈ addFilesWrites files g := by
  induction files with
  | nil =>
    intro g g' _ k hk
    cases hk
  | cons f files ih =>
    intro g g' h k hk
    obtain ⟨g1, hadd, h⟩ := bind_eq_ok.mp h
    rw [addFilesWrites, after_ok hadd, List.mem_append]
    cases k with
    | zero =>
      refine .inl ?_
      rw [addFileWrites, iallocWrites]
      exact List.mem_cons_self
    | succ k =>
      have hrest := ih g1 g' h k (Nat.lt_of_succ_lt_succ hk)
      rw [addFile_inode hadd] at hrest
      rw [show g.freeinode + (k + 1) = g.freeinode + 1 + k by omega]
      exact .inr hrest

lemma mainWrites_inodes (hr : main files = .ok g) {k : Nat}
    (hk : k < files.length) : Write.inode (k + 2) ∈ mainWrites files := by
  obtain ⟨g1, hroot, hr⟩ := bind_eq_ok.mp hr
  obtain ⟨g2, hadd, -⟩ := bind_eq_ok.mp hr
  have hcount := (makeRoot_filled (Nat.le_refl TABLE) (by decide) hroot).count
  have hmem := addFiles_inodes files g1 g2 hadd k hk
  rw [hcount, List.length_nil, Nat.zero_add, Nat.add_comm] at hmem
  rw [mainWrites, after_ok hroot, List.mem_append, List.mem_append]
  exact .inr (.inl hmem)

/-- **Main result.** The inodes that `mkfs` writes lie in the inode blocks, apart from the
    bitmap and the data of files, exactly when there are at most 206 host files. -/
theorem main_apart_iff (files : List HostFile) (g : Img) (hmain : main files = .ok g) :
    Apart (mainWrites files) ↔ files.length ≤ 206 := by
  constructor
  · intro h
    by_contra hmany
    have hin := (h.inside _ (mainWrites_inodes hmain (show 206 < files.length by omega))).2
    exact absurd ((IBLOCK_lt_iff _).mp hin) (by decide)
  · intro hfiles
    exact apart_of_placed (mainWrites_placed hfiles hmain)

theorem main_apart_iff_empty : ∃ g, main [] = .ok g ∧ Apart (mainWrites []) := by
  obtain ⟨g, hg⟩ := main_empty
  exact ⟨g, hg, (main_apart_iff [] g hg).mpr (Nat.zero_le _)⟩

/-- With 207 empty files inode 208 is written into the bitmap block, and the bitmap then
    overwrites it. -/
theorem main_inode_in_bitmap : (∃ g, main (List.replicate 207 emptyFile) = .ok g) ∧
    Write.inode 208 ∈ mainWrites (List.replicate 207 emptyFile) ∧
    Write.sector (.inode 208) = Write.sector .bitmap ∧
    ¬Apart (mainWrites (List.replicate 207 emptyFile)) := by
  obtain ⟨g, hg⟩ := main_returns (Nat.le_refl 207)
  have hmem : Write.inode 208 ∈ mainWrites (List.replicate 207 emptyFile) :=
    mainWrites_inodes hg (by rw [List.length_replicate]; decide)
  refine ⟨⟨g, hg⟩, hmem, by decide, fun h => ?_⟩
  exact absurd (h.inside 208 hmem).2 (by decide)

end Mkfs
