import Xv6Ext2.MkfsTableProofs

/-! # What mkfs builds

    The images of fewer than `NINODES` host files, where every inode is one that the
    superblock counts.

    - `main_finished` : what `main` leaves behind;
    - `main_root` : the first three records of the root directory. -/

namespace Mkfs

open ByteBlock BufCache Param Outcome Ownership FileIo DirName Xv6Alloc Xv6Inode Xv6Image

lemma BBLOCK_eq {b : Nat} (h : b < FSSIZE) : BBLOCK b sb = sb.bmapstart ∧ b % BPB = b :=
  BBLOCK_table NINODES h

lemma bitOf_view (g : Img) {b : Nat} (h : b < FSSIZE) :
    bitOf sb g.view b = decide (b < g.freeblock) := bitOf_table NINODES g h

/-- The image between two operations. -/
structure Image (g : Img) : Prop where
  fits       : Fits g
  consistent : Consistent sb g.view
  first      : 1 ≤ g.freeinode
  unused     : ∀ j, g.freeinode ≤ j → j < NINODES → (dinodeAt sb g.view j).type = 0

/-- The image with the first host files: the root directory has a record for each of them,
    and their inodes have their bytes. -/
structure Built (files : List HostFile) (g : Img) : Prop where
  image : Image g
  super : g.view 1 = sbSector
  inUse : InUse sb (dinodeAt sb g.view) ROOTINO
  dir   : (dinodeAt sb g.view ROOTINO).type = T_DIR
  root  : content (dinodeAt sb g.view ROOTINO) g.view = recordsOf (namesOf files)
  count : g.freeinode = files.length + 2
  files : ∀ k f, files[k]? = some f → InUse sb (dinodeAt sb g.view) (k + 2) ∧
    (dinodeAt sb g.view (k + 2)).type = T_FILE ∧
    content (dinodeAt sb g.view (k + 2)) g.view = f.data

variable {files : List HostFile} {g : Img}

lemma Filled.built (h : Filled NINODES files g) : Built files g :=
  ⟨⟨h.image.fits, h.image.consistent, h.image.first, h.image.unused⟩, h.super, h.inUse, h.dir,
    h.root, h.count, h.files⟩

/-- The first block of the root directory holds the records of `rootHead`. -/
structure RootBlock (v : Disk) : Prop where
  dir  : (dinodeAt sb v ROOTINO).type = T_DIR
  size : rootHead.length ≤ (dinodeAt sb v ROOTINO).size
  addr : (dinodeAt sb v ROOTINO).addrs 0 ≠ 0
  head : ∀ k < rootHead.length, v ((dinodeAt sb v ROOTINO).addrs 0) k = rootHead.getD k 0

lemma length_rootHead : rootHead.length = 48 := by decide

lemma Built.block (h : Built files g) : RootBlock g.view := by
  have hhead : content (dinodeAt sb g.view ROOTINO) g.view =
      rootHead ++ recordsOf (files.mapIdx (fun k f => (hostName f.name, k + 2))) := by
    rw [h.root, namesOf, recordsOf, List.map_append, List.flatten_append, ← recordsOf, rootHead_eq,
      ← recordsOf]
  have hlen : rootHead.length ≤ (dinodeAt sb g.view ROOTINO).size := by
    rw [← length_content _ g.view, hhead, List.length_append]
    exact Nat.le_add_right _ _
  have hfirst : blockAt (dinodeAt sb g.view ROOTINO) g.view 0 =
      (dinodeAt sb g.view ROOTINO).addrs 0 := ownBlock_addr (Nat.zero_le _)
  rw [length_rootHead] at hlen
  refine ⟨h.dir, by rw [length_rootHead]; exact hlen, ?_, fun k hk => ?_⟩
  · rw [← hfirst, (h.image.consistent.covered ROOTINO h.inUse (.inr h.dir)).1 0, lt_blocks_iff]
    omega
  · rw [length_rootHead] at hk
    have hbyte := getD_content (v := g.view) (show k < (dinodeAt sb g.view ROOTINO).size by omega)
    rw [fileByte, Nat.div_eq_of_lt (by unfold BSIZE; omega), Nat.mod_eq_of_lt (by unfold BSIZE; omega),
      hfirst, hhead, List.getD_append _ _ _ _ (by rw [length_rootHead]; exact hk)] at hbyte
    exact hbyte.symm

/-- The image after the host files, with the size of the root directory rounded up and the
    bitmap written. -/
structure Finished (files : List HostFile) (g₂ g : Img) : Prop where
  built     : Built files g₂
  super     : g.sect 1 = sbSector
  freeblock : g.freeblock = g₂.freeblock
  root      : dinodeAt sb g.sect ROOTINO = { dinodeAt sb g₂.view ROOTINO with
    size := fixedSize (dinodeAt sb g₂.view ROOTINO).size }
  others    : ∀ j, j ≠ ROOTINO → dinodeAt sb g.sect j = dinodeAt sb g₂.view j
  blocks    : ∀ b, sb.bmapstart ≤ b → g.sect b = g₂.view b

lemma Finished.closed {g₂ : Img} (h : Finished files g₂ g) : Closed NINODES files g₂ g :=
  ⟨⟨⟨h.built.image.fits, h.built.image.consistent, h.built.image.first, h.built.image.unused⟩,
      h.built.super, h.built.inUse, h.built.dir, h.built.root, h.built.count, h.built.files⟩,
    h.super, h.freeblock, h.root, h.others, h.blocks⟩

/-- **What `main` leaves behind.** -/
lemma main_finished (hfiles : files.length + 1 < NINODES)
    (hr : main files = .ok g) : ∃ g₂, Finished files g₂ g := by
  obtain ⟨g2, h⟩ := main_closed (show NINODES ≤ TABLE by decide) hfiles hr
  exact ⟨g2, h.built.built, h.super, h.freeblock, h.root, h.others, h.blocks⟩

/-- **The root directory of every image starts with `.`, `..` and `mnt`**, and all three name
    the root directory. -/
lemma main_root (hfiles : files.length + 1 < NINODES)
    (hr : main files = .ok g) : RootBlock g.sect := by
  obtain ⟨g2, h⟩ := main_finished hfiles hr
  have hblock := h.built.block
  have hsize : (dinodeAt sb g2.view ROOTINO).size ≤
      fixedSize (dinodeAt sb g2.view ROOTINO).size := by
    unfold fixedSize BSIZE
    omega
  have haddr : ownBlock (dinodeAt sb g2.view ROOTINO) g2.view 0 =
      (dinodeAt sb g2.view ROOTINO).addrs 0 := ownBlock_addr (Nat.zero_le _)
  have hdata := h.built.image.consistent.in_data (ROOTINO, 0)
    (by rw [owns_of_inUse h.built.inUse, haddr]; exact hblock.addr)
  rw [owns_of_inUse h.built.inUse, haddr] at hdata
  have hge : 46 ≤ (dinodeAt sb g2.view ROOTINO).addrs 0 := hdata.1
  have hbmap : sb.bmapstart = 45 := rfl
  refine ⟨by rw [h.root]; exact hblock.dir, by rw [h.root]; exact hblock.size.trans hsize,
    by rw [h.root]; exact hblock.addr, fun k hk => ?_⟩
  rw [h.root, ← hblock.head k hk]
  exact congrFun (h.blocks ((dinodeAt sb g2.view ROOTINO).addrs 0) (by omega)) k

lemma main_empty : ∃ g, main [] = .ok g := by
  have hok : (main []).isOk = true := by decide +kernel
  cases hmain : main [] with
  | error e => rw [hmain] at hok; exact nomatch hok
  | ok g => exact ⟨g, rfl⟩

end Mkfs
