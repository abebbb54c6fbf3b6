import Xv6Ext2.Ext2StoredProofs
import Xv6Ext2.Ext2ViewProofs
import Xv6Ext2.RunsProofs

/-! # What survives when buffers and inodes are dropped

    Calls of `ext2fs_readi`, `ext2fs_writei` and `ext2fs_dirlink`, and between them the
    caches forget: `bget` recycles a buffer, or the last reference to an inode goes and
    the next call reads the inode from disk.  Each inode in use has a block map of its
    own here; the table of block maps is the subject of the inode cache.

    - `Synced` : the caches hold nothing that the device does not hold;
    - `Saved` : what one call does for that, for each of the three functions;
    - `drops_invisible` : as long as every call satisfies `FsSafe`, a run and the same
      run without the drops return the same;
    - `drop_loses_block` : the pointer of a block of the indirect range is lost. -/

namespace Ext2Persist

open ByteBlock BufCache Outcome Runs FileIo Ext2Alloc Ext2Bmap Ext2Inode Ext2Dir Ext2View
  Ext2Stored

open Except (ok.inj)

open Function (update update_of_ne update_self)

/-- The device with its buffers, the inodes in memory, and what the calls returned, the
    last one first. -/
structure FsState where
  bc    : Bcache
  inode : Nat → Option Dinode
  out   : List (Int × List UInt8)

/-- A call, or a drop between two calls.  `de` is the stack memory of the record in
    `ext2fs_dirlink`. -/
inductive FsAct where
  | readi (inum off n : Nat)
  | writei (inum : Nat) (src : Nat → UInt8) (off n : Nat)
  | dirlink (dnum : Nat) (name : List UInt8) (inum : Nat) (de : Block)
  | dropBuf (b : Nat)
  | dropInode (inum : Nat)

def FsAct.isCall : FsAct → Bool
  | .dropBuf _ => false
  | .dropInode _ => false
  | _ => true

/-- `ilock`: the inode in memory, or read from disk. -/
def loadInode (sb : Ext2Super) (inum : Nat) (st : FsState) : Except Err (Dinode × Bcache) :=
  match st.inode inum with
  | some ip => .ok (ip, st.bc)
  | none => ext2fsIread sb inum st.bc

/-- The state after a call on inode `inum` that returned `r`. -/
def FsState.record (st : FsState) (inum : Nat) (r : Int × List UInt8) (ip : Dinode)
    (bc : Bcache) : FsState where
  bc    := bc
  inode := update st.inode inum (some ip)
  out   := r :: st.out

def fsStep (sb : Ext2Super) (devsw : Nat → Devsw) (st : FsState) : FsAct → Except Err FsState
  | .readi inum off n => do
      let (ip, bc) ← loadInode sb inum st
      let (r, ip, bc) ← ext2fsReadi sb inum devsw ip off n bc
      .ok (st.record inum r ip bc)
  | .writei inum src off n => do
      let (ip, bc) ← loadInode sb inum st
      let (r, ip, bc) ← ext2fsWritei sb inum devsw ip src off n bc
      .ok (st.record inum (r, []) ip bc)
  | .dirlink dnum name inum de => do
      let (ip, bc) ← loadInode sb dnum st
      let (r, ip, bc) ← ext2fsDirlink dnum (ext2fsReadi sb dnum devsw)
        (ext2fsWritei sb dnum devsw) (ext2fsIupdate sb dnum) name inum de ip bc
      .ok (st.record dnum (r, []) ip bc)
  | .dropBuf b => .ok { st with bc := dropBuf b st.bc }
  | .dropInode inum => .ok { st with inode := update st.inode inum none }

/-- The inode a call on `inum` works on. -/
def FsState.theInode (sb : Ext2Super) (st : FsState) (inum : Nat) : Dinode :=
  (st.inode inum).getD (inodeAt sb st.bc.view inum)

/-- `ext2fs_writei` gets to its loop. -/
def Writes (ip : Dinode) (off n : Nat) : Prop :=
  0 < n ∧ off ≤ ip.size ∧ off + n ≤ EXT2_MAXFILE * BSIZE % 2 ^ 32

/-- The blocks of a directory, and one more, are stored outside of the metadata. -/
def DirSafe (sb : Ext2Super) (n : Nat) (ip : Dinode) (v : Disk) : Prop :=
  ∀ bn, InRange 0 (ip.size + BSIZE) bn → Stored ip.addrs v bn ∧
    ¬Kept sb n ip v 0 (ip.size + BSIZE) (bmapLeaf ip.addrs v bn) ∧
    ∀ b ∈ bmapInner ip.addrs v bn, ¬MetaBlock sb n v b

/-- The condition on a step: the inode is one of the `n` inodes of the image, the numbers
    are unsigned ints, reading meets no missing block, and writing is safe. -/
def FsSafe (sb : Ext2Super) (n : Nat) (st : FsState) : FsAct → Prop
  | .readi inum off m => (1 ≤ inum ∧ inum ≤ n) ∧ (off < 2 ^ 32 ∧ m < 2 ^ 32) ∧
      ∀ bn, InRange off (min (off + m) (st.theInode sb inum).size) bn →
        Stored (st.theInode sb inum).addrs st.bc.view bn
  | .writei inum _ off m => (1 ≤ inum ∧ inum ≤ n) ∧ (off < 2 ^ 32 ∧ m < 2 ^ 32) ∧
      (Writes (st.theInode sb inum) off m →
        WriteSafe sb n inum (st.theInode sb inum) st.bc.view off (off + m))
  | .dirlink dnum _ _ _ => (1 ≤ dnum ∧ dnum ≤ n) ∧
      DirSafe sb n (st.theInode sb dnum) st.bc.view
  | .dropBuf _ => True
  | .dropInode _ => True

/-- The caches hold nothing that the device does not hold. -/
structure Synced (sb : Ext2Super) (n : Nat) (st : FsState) : Prop where
  clean : Clean st.bc
  inode : ∀ i ip, st.inode i = some ip →
    (1 ≤ i ∧ i ≤ n) ∧ ip = inodeAt sb st.bc.view i

/-! ## One call -/

/-- What a call on inode `inum` leaves: everything is on the device, the inode as well,
    and the other inodes are as before. -/
structure Saved (sb : Ext2Super) (n inum : Nat) (s : Bcache) (ip' : Dinode) (s' : Bcache) :
    Prop where
  clean : Clean s'
  desc  : s'.view 2 = s.view 2
  self  : ip' = inodeAt sb s'.view inum
  other : ∀ j, 1 ≤ j → j ≤ n → j ≠ inum → inodeAt sb s'.view j = inodeAt sb s.view j

section Call

variable {sb : Ext2Super} {n inum : Nat} {s : Bcache}

variable {s' : Bcache}

lemma inodeAt_of_meta {v : Disk} (hmeta : ∀ b, MetaBlock sb n v b → s'.view b = v b) {j : Nat}
    (h1 : 1 ≤ j) (hn : j ≤ n) : inodeAt sb s'.view j = inodeAt sb v j :=
  inodeAt_congr (hmeta 2 (.inl rfl)) (hmeta _ (.inr ⟨j, h1, hn, rfl⟩))

/-- A call that changes data blocks only. -/
lemma Saved.of_meta (h1 : 1 ≤ inum) (hn : inum ≤ n) (hc : Clean s')
    (hmeta : ∀ b, MetaBlock sb n s.view b → s'.view b = s.view b) :
    Saved sb n inum s (inodeAt sb s.view inum) s' where
  clean := hc
  desc  := hmeta 2 (.inl rfl)
  self  := (inodeAt_of_meta hmeta h1 hn).symm
  other := fun _ hj1 hjn _ => inodeAt_of_meta hmeta hj1 hjn

lemma Saved.of_quiet (hc : Clean s) (hq : Quiet s s') :
    Saved sb n inum s (inodeAt sb s.view inum) s' := by
  refine ⟨hq.clean hc, ?_, ?_, fun j _ _ _ => ?_⟩
  · rw [hq.1]
  · rw [hq.1]
  · rw [hq.1]

variable {ip ip' : Dinode}

lemma Saved.trans {s₁ : Bcache} (h : Saved sb n inum s ip s₁)
    (h' : Saved sb n inum s₁ ip' s') : Saved sb n inum s ip' s' where
  clean := h'.clean
  desc  := h'.desc.trans h.desc
  self  := h'.self
  other := fun j h1 hn hne => (h'.other j h1 hn hne).trans (h.other j h1 hn hne)

lemma Saved.iupdate {s₁ : Bcache} (ht : InodeTables sb n (s.view 2)) (h1 : 1 ≤ inum)
    (hn : inum ≤ n) (hc : Clean s₁) (hmeta : ∀ b, MetaBlock sb n s.view b → s₁.view b = s.view b)
    (hip : Canonical ip) (hr : ext2fsIupdate sb inum ip s₁ = .ok s') : Saved sb n inum s ip s' := by
  have hdesc : s₁.view 2 = s.view 2 := hmeta 2 (.inl rfl)
  have ht₁ : InodeTables sb n (s₁.view 2) := by rw [hdesc]; exact ht
  refine ⟨?_, (ext2fsIupdate_desc ht₁ h1 hn hr).trans hdesc,
    (inodeAt_iupdate ht₁ h1 hn hr hip).symm, fun j hj1 hjn hne => ?_⟩
  · rw [ext2fsIupdate_eq ht₁.checkGeometry_eq] at hr
    obtain rfl := ok.inj hr
    exact (((Quiet.touch _ _).trans (Quiet.touch _ _)).clean hc).bwrite _ _
  · rw [inodeAt_iupdate_of_ne ht₁ h1 hn hr hj1 hjn hne]
    exact inodeAt_of_meta hmeta hj1 hjn

lemma inodeAt_canonical (sb : Ext2Super) (v : Disk) (inum : Nat) :
    Canonical (inodeAt sb v inum) := getExt2Inode_canonical _ _

variable {off : Nat}

variable {devsw : Nat → Devsw} {m : Nat}

lemma readi_saved {r : Int × List UInt8} (hc : Clean s) (hoff : off < 2 ^ 32) (hm : m < 2 ^ 32)
    (hst : ∀ bn, InRange off (min (off + m) (inodeAt sb s.view inum).size) bn →
      Stored (inodeAt sb s.view inum).addrs s.view bn)
    (hr : ext2fsReadi sb inum devsw (inodeAt sb s.view inum) off m s = .ok (r, ip', s')) :
    Saved sb n inum s ip' s' := by
  obtain ⟨rfl, hq⟩ := readi_quiet hoff hm hst hr
  exact Saved.of_quiet hc hq

lemma DirSafe.writeSafe {ip₂ : Dinode} {v v' : Disk}
    (h : DirSafe sb n ip v) (haddrs : ip₂.addrs = ip.addrs) (hoff : off ≤ ip.size)
    (hdesc : v' 2 = v 2) (hv : ∀ b, ¬MetaBlock sb n v b → v' b = v b) :
    WriteSafe sb n inum ip₂ v' off (off + BSIZE) := by
  have hin : ∀ bn, InRange off (off + BSIZE) bn → InRange 0 (ip.size + BSIZE) bn :=
    fun bn hbn => hbn.mono (Nat.zero_le _) (by omega)
  have hst : ∀ bn, InRange off (off + BSIZE) bn → Stored ip₂.addrs v' bn ∧
      bmapLeaf ip₂.addrs v' bn = bmapLeaf ip.addrs v bn ∧
      bmapInner ip₂.addrs v' bn = bmapInner ip.addrs v bn := by
    intro bn hbn
    obtain ⟨hs, -, hinner⟩ := h bn (hin bn hbn)
    rw [haddrs]
    exact hs.congr (fun _ _ => rfl) (fun b hb => hv b (hinner b hb))
  have hkept : ∀ b, Kept sb n ip₂ v' off (off + BSIZE) b →
      Kept sb n ip v 0 (ip.size + BSIZE) b := by
    rintro b (hb | ⟨bn, hbn, hb⟩)
    · left
      unfold MetaBlock at *
      rwa [hdesc] at hb
    · rw [(hst bn hbn).2.2] at hb
      exact .inr ⟨bn, hin bn hbn, hb⟩
  refine ⟨fun bn hbn => .inl (hst bn hbn).1, fun bn b hbn hb hk => ?_,
    fun bn hbn hno => absurd (hst bn hbn).1 hno⟩
  rcases hb with ⟨-, rfl⟩ | ⟨hno, -⟩
  · rw [(hst bn hbn).2.1] at hk
    exact (h bn (hin bn hbn)).2.1 (hkept _ hk)
  · exact hno (hst bn hbn).1

variable (ht : InodeTables sb n (s.view 2)) (h1 : 1 ≤ inum) (hn : inum ≤ n)
include ht h1 hn

lemma writei_saved {src : Nat → UInt8} {r : Int} (hc : Clean s) (hoff : off < 2 ^ 32)
    (hm : m < 2 ^ 32) (hw : Writes (inodeAt sb s.view inum) off m →
      WriteSafe sb n inum (inodeAt sb s.view inum) s.view off (off + m))
    (hr : ext2fsWritei sb inum devsw (inodeAt sb s.view inum) src off m s = .ok (r, ip', s')) :
    Saved sb n inum s ip' s' := by
  have hcan := inodeAt_canonical sb s.view inum
  obtain ⟨ip, hip⟩ : ∃ ip, ip = inodeAt sb s.view inum := ⟨_, rfl⟩
  rw [← hip] at hw hr hcan
  have hdev : ip.type ≠ T_DEV := by
    rcases hcan.type with h | h <;> rw [h] <;> decide
  have hquiet : Saved sb n inum s ip s := hip ▸ Saved.of_quiet hc (Quiet.refl s)
  rw [ext2fsWritei, writei, if_neg hdev] at hr
  split at hr
  · obtain ⟨-, rfl, rfl⟩ := ok_triple_inj hr
    exact hquiet
  split at hr
  · obtain ⟨-, rfl, rfl⟩ := ok_triple_inj hr
    exact hquiet
  · next hmax =>
    obtain ⟨⟨ip1, s1⟩, hloop, hrest⟩ := bind_eq_ok.mp hr
    dsimp only at hrest
    have hfit : (off + m) % 2 ^ 32 = off + m := by omega
    rw [hfit] at hmax hrest
    by_cases hm0 : m = 0
    · -- nothing to write
      subst hm0
      obtain ⟨rfl, rfl⟩ := ok_pair_inj hloop
      rw [if_neg (fun h => Nat.lt_irrefl 0 h.1)] at hrest
      obtain ⟨-, rfl, rfl⟩ := ok_triple_inj hrest
      exact hquiet
    have hws := hw ⟨by omega, by omega, by omega⟩
    have hinv : WriteInv sb n inum ip s.view off (off + m) ip1 s1 :=
      writeLoop_inv hws _ _ _ _ _ _ _ _ le_rfl le_rfl
        ⟨hc, fun _ _ => rfl, rfl, fun _ => .inl rfl, fun _ _ _ _ _ h => h⟩ hloop
    have hmeta : ∀ b, MetaBlock sb n s.view b → s1.view b = s.view b :=
      fun b hb => hinv.kept b (.inl hb)
    have hsize : ip1.size = ip.size := by rw [← hinv.fields]
    split at hrest
    · obtain ⟨s2, hup, hret⟩ := bind_eq_ok.mp hrest
      obtain ⟨-, rfl, rfl⟩ := ok_triple_inj hret
      exact Saved.iupdate ht h1 hn hinv.clean hmeta (hinv.canonical hcan (by omega)) hup
    obtain ⟨-, rfl, rfl⟩ := ok_triple_inj hrest
    rw [hinv.same (by omega), hip]
    exact Saved.of_meta h1 hn hinv.clean hmeta

lemma dirlink_saved {name : List UInt8} {ino : Nat} {de : Block} {r : Int} (hc : Clean s)
    (hd : DirSafe sb n (inodeAt sb s.view inum) s.view)
    (hr : ext2fsDirlink inum (ext2fsReadi sb inum devsw) (ext2fsWritei sb inum devsw)
      (ext2fsIupdate sb inum) name ino de (inodeAt sb s.view inum) s = .ok (r, ip', s')) :
    Saved sb n inum s ip' s' := by
  have hcan := inodeAt_canonical sb s.view inum
  obtain ⟨ip, hip⟩ : ∃ ip, ip = inodeAt sb s.view inum := ⟨_, rfl⟩
  rw [← hip] at hd hr hcan
  have hdev : ip.type ≠ T_DEV := by
    rcases hcan.type with h | h <;> rw [h] <;> decide
  have hst : ∀ bn, InRange 0 ip.size bn → Stored ip.addrs s.view bn :=
    fun bn hbn => (hd bn (hbn.mono le_rfl (by omega))).1
  obtain ⟨⟨found, ip1, s1⟩, h2, hr1⟩ := bind_eq_ok.mp hr
  obtain ⟨rfl, hq1⟩ := dirlookupFrom_quiet hcan.size _ _ _ _ _ _ hst h2
  cases found with
  | some p =>
    obtain ⟨off, i⟩ := p
    dsimp only at hr1
    split at hr1
    · exact nomatch hr1
    obtain ⟨-, rfl, rfl⟩ := ok_triple_inj hr1
    rw [hip]
    exact Saved.of_quiet hc hq1
  | none =>
    obtain ⟨⟨off, de2, ip2, s2⟩, h3, hr2⟩ := bind_eq_ok.mp hr1
    obtain ⟨hoff, rfl, hq2⟩ := freeDirent_quiet hdev hcan.size _ _ _ _ _ _ _ _
      (Nat.zero_le _) (by rw [hq1.1]; exact hst) h3
    obtain ⟨s3, hup, hr3⟩ := bind_eq_ok.mp hr2
    obtain ⟨⟨r4, ip4, s4⟩, hwr, hr4⟩ := bind_eq_ok.mp hr3
    obtain ⟨-, rfl, rfl⟩ := ok_triple_inj hr4
    have hq := hq1.trans hq2
    have ht2 : InodeTables sb n (s2.view 2) := by rw [hq.1]; exact ht
    -- the inode with its new size is saved, then the record is written
    have hsaved : Saved sb n inum s { ip2 with size := (off + BSIZE) % 2 ^ 32 } s3 :=
      Saved.iupdate ht h1 hn (hq.clean hc) (fun b _ => by rw [hq.1])
        ⟨hcan.type, hcan.major, hcan.minor, hcan.nlink, Nat.mod_lt _ (by decide),
          hcan.addrs, hcan.end_⟩ hup
    refine hsaved.trans ?_
    have hself := hsaved.self
    rw [hself] at hwr
    refine writei_saved (by rw [hsaved.desc]; exact ht) h1 hn hsaved.clean
      (Nat.lt_of_le_of_lt hoff hcan.size) (by decide) (fun _ => ?_) hwr
    rw [← hself]
    refine hd.writeSafe rfl hoff hsaved.desc (fun b hb => ?_)
    rw [ext2fsIupdate_view ht2 hup, hq.1, update_of_ne]
    rintro rfl
    exact hb (.inr ⟨inum, h1, hn, rfl⟩)

end Call

/-! ## Steps -/

section Step

variable {sb : Ext2Super} {n : Nat} {devsw : Nat → Devsw} {st : FsState}
  (hs : Synced sb n st)
include hs

lemma Synced.theInode_eq (inum : Nat) : st.theInode sb inum = inodeAt sb st.bc.view inum := by
  unfold FsState.theInode
  cases h : st.inode inum with
  | none => rfl
  | some ip => exact (hs.inode inum ip h).2

lemma Synced.loadInode_eq (ht : InodeTables sb n (st.bc.view 2)) (inum : Nat) :
    ∃ bc, loadInode sb inum st = .ok (inodeAt sb st.bc.view inum, bc) ∧ Quiet st.bc bc := by
  unfold loadInode
  cases h : st.inode inum with
  | none =>
    exact ⟨_, ext2fsIread_eq ht inum, (Quiet.touch _ _).trans (Quiet.touch _ _)⟩
  | some ip =>
    dsimp only
    rw [(hs.inode inum ip h).2]
    exact ⟨_, rfl, Quiet.refl _⟩

/-- A recycled buffer held what the device holds. -/
lemma Synced.dropBuf_quiet (b : Nat) : Quiet st.bc (dropBuf b st.bc) := by
  refine ⟨?_, rfl⟩
  funext c
  by_cases hc : c = b
  · subst hc
    rw [show st.bc.view = st.bc.disk from hs.clean]
    simp only [Bcache.view, dropBuf, update_self, Option.getD_none]
  · simp only [Bcache.view, dropBuf, update_of_ne hc]

lemma Synced.record {inum : Nat} {r : Int × List UInt8} {ip : Dinode} {bc bc' : Bcache}
    (hi : 1 ≤ inum ∧ inum ≤ n) (hq : Quiet st.bc bc) (h : Saved sb n inum bc ip bc') :
    Synced sb n (st.record inum r ip bc') ∧ bc'.view 2 = st.bc.view 2 := by
  refine ⟨⟨h.clean, fun i ip' hip => ?_⟩, by rw [h.desc, hq.1]⟩
  change update st.inode inum (some ip) i = some ip' at hip
  by_cases hne : i = inum
  · subst hne
    rw [update_self] at hip
    obtain rfl := Option.some.inj hip
    exact ⟨hi, h.self⟩
  rw [update_of_ne hne] at hip
  obtain ⟨hi', rfl⟩ := hs.inode i ip' hip
  refine ⟨hi', ?_⟩
  rw [← hq.1]
  exact (h.other i hi'.1 hi'.2 hne).symm

lemma Synced.step (ht : InodeTables sb n (st.bc.view 2)) {act : FsAct} {st' : FsState}
    (hsafe : FsSafe sb n st act) (hr : fsStep sb devsw st act = .ok st') :
    Synced sb n st' ∧ st'.bc.view 2 = st.bc.view 2 := by
  cases act with
  | readi inum off m =>
    obtain ⟨hi, ⟨hoff, hm⟩, hst⟩ := hsafe
    obtain ⟨bc, hload, hq⟩ := hs.loadInode_eq ht inum
    rw [hs.theInode_eq] at hst
    rw [fsStep, hload, ok_bind] at hr
    obtain ⟨⟨r, ip, bc'⟩, hcall, hret⟩ := bind_eq_ok.mp hr
    obtain rfl := ok.inj hret
    rw [← hq.1] at hst hcall
    exact hs.record hi hq (readi_saved (hq.clean hs.clean) hoff hm hst hcall)
  | writei inum src off m =>
    obtain ⟨hi, ⟨hoff, hm⟩, hw⟩ := hsafe
    obtain ⟨bc, hload, hq⟩ := hs.loadInode_eq ht inum
    rw [hs.theInode_eq] at hw
    rw [fsStep, hload, ok_bind] at hr
    obtain ⟨⟨r, ip, bc'⟩, hcall, hret⟩ := bind_eq_ok.mp hr
    obtain rfl := ok.inj hret
    rw [← hq.1] at hw hcall ht
    exact hs.record hi hq (writei_saved ht hi.1 hi.2 (hq.clean hs.clean) hoff hm hw hcall)
  | dirlink dnum name inum de =>
    obtain ⟨hi, hd⟩ := hsafe
    obtain ⟨bc, hload, hq⟩ := hs.loadInode_eq ht dnum
    rw [hs.theInode_eq] at hd
    rw [fsStep, hload, ok_bind] at hr
    obtain ⟨⟨r, ip, bc'⟩, hcall, hret⟩ := bind_eq_ok.mp hr
    obtain rfl := ok.inj hret
    rw [← hq.1] at hd hcall ht
    exact hs.record hi hq (dirlink_saved ht hi.1 hi.2 (hq.clean hs.clean) hd hcall)
  | dropBuf b =>
    obtain rfl := ok.inj hr
    have hq := hs.dropBuf_quiet b
    refine ⟨⟨hq.clean hs.clean, fun i ip hip => ?_⟩, congrFun hq.1 2⟩
    rw [show ({ st with bc := dropBuf b st.bc } : FsState).bc.view = st.bc.view from hq.1]
    exact hs.inode i ip hip
  | dropInode inum =>
    obtain rfl := ok.inj hr
    refine ⟨⟨hs.clean, fun i ip hip => ?_⟩, rfl⟩
    change update st.inode inum none i = some ip at hip
    by_cases hne : i = inum
    · rw [hne, update_self] at hip
      exact nomatch hip
    · rw [update_of_ne hne] at hip
      exact hs.inode i ip hip

end Step

/-! ## Runs -/

/-- Two runs side by side: the same contents and the same results, all of it saved. -/
structure Twin (sb : Ext2Super) (n : Nat) (u w : FsState) : Prop where
  left   : Synced sb n u
  right  : Synced sb n w
  tables : InodeTables sb n (u.bc.view 2)
  view   : SameView u.bc w.bc
  out    : u.out = w.out

section Run

variable {sb : Ext2Super} {n : Nat} {devsw : Nat → Devsw} {u w : FsState}

lemma Twin.tables_right (h : Twin sb n u w) : InodeTables sb n (w.bc.view 2) := by
  rw [← show u.bc.view = w.bc.view from h.view]
  exact h.tables

/-- Both runs work on the same inode. -/
lemma Twin.theInode_eq (h : Twin sb n u w) (inum : Nat) :
    w.theInode sb inum = u.theInode sb inum := by
  rw [h.left.theInode_eq, h.right.theInode_eq, show u.bc.view = w.bc.view from h.view]

variable {act : FsAct}

lemma Twin.safe (h : Twin sb n u w) (hsafe : FsSafe sb n u act) : FsSafe sb n w act := by
  have hv : u.bc.view = w.bc.view := h.view
  cases act with
  | readi inum off m =>
    simp only [FsSafe, h.theInode_eq, ← hv] at hsafe ⊢
    exact hsafe
  | writei inum src off m =>
    simp only [FsSafe, h.theInode_eq, ← hv] at hsafe ⊢
    exact hsafe
  | dirlink dnum name inum de =>
    simp only [FsSafe, h.theInode_eq, ← hv] at hsafe ⊢
    exact hsafe
  | dropBuf b => trivial
  | dropInode inum => trivial

lemma Twin.load (h : Twin sb n u w) (inum : Nat) :
    Rel (EqFst SameView) (loadInode sb inum u) (loadInode sb inum w) := by
  obtain ⟨bc, hu, hqu⟩ := h.left.loadInode_eq h.tables inum
  obtain ⟨bc', hw, hqw⟩ := h.right.loadInode_eq h.tables_right inum
  have hv : u.bc.view = w.bc.view := h.view
  rw [hu, hw, hv]
  exact Rel.ok ⟨rfl, hqu.1.trans (hv.trans hqw.1.symm)⟩

lemma Twin.call (h : Twin sb n u w) (hact : act.isCall = true) :
    Rel (fun u' w' => SameView u'.bc w'.bc ∧ u'.out = w'.out) (fsStep sb devsw u act)
      (fsStep sb devsw w act) := by
  cases act with
  | readi inum off m =>
    refine (h.load inum).bind ?_
    rintro ⟨ip, bc⟩ ⟨-, bc'⟩ ⟨rfl, hv⟩
    refine (ext2fsReadi_same sb inum devsw ip off m bc bc' hv).bind ?_
    rintro ⟨r, ip, bc⟩ ⟨-, -, bc'⟩ ⟨rfl, rfl, hv⟩
    exact Rel.ok ⟨hv, congrArg (List.cons r) h.out⟩
  | writei inum src off m =>
    refine (h.load inum).bind ?_
    rintro ⟨ip, bc⟩ ⟨-, bc'⟩ ⟨rfl, hv⟩
    refine (ext2fsWritei_same sb inum devsw ip src off m bc bc' hv).bind ?_
    rintro ⟨r, ip, bc⟩ ⟨-, -, bc'⟩ ⟨rfl, rfl, hv⟩
    exact Rel.ok ⟨hv, congrArg (List.cons (r, [])) h.out⟩
  | dirlink dnum name inum de =>
    refine (h.load dnum).bind ?_
    rintro ⟨ip, bc⟩ ⟨-, bc'⟩ ⟨rfl, hv⟩
    refine (ext2fsDirlink_same (ext2fsReadi_same sb dnum devsw)
      (ext2fsWritei_same sb dnum devsw) (ext2fsIupdate_same sb dnum) hv dnum name inum de
      ip).bind ?_
    rintro ⟨r, ip, bc⟩ ⟨-, -, bc'⟩ ⟨rfl, rfl, hv⟩
    exact Rel.ok ⟨hv, congrArg (List.cons (r, [])) h.out⟩
  | dropBuf b => exact nomatch hact
  | dropInode inum => exact nomatch hact

lemma Twin.drop (h : Twin sb n u w) (hact : act.isCall = false) :
    ∃ u', fsStep sb devsw u act = .ok u' ∧ Twin sb n u' w := by
  cases act with
  | dropBuf b =>
    have hstep : fsStep sb devsw u (.dropBuf b) = .ok { u with bc := dropBuf b u.bc } := rfl
    have hsafe : FsSafe sb n u (.dropBuf b) := trivial
    obtain ⟨hs, hdesc⟩ := h.left.step h.tables hsafe hstep
    exact ⟨_, rfl, hs, h.right, by rw [hdesc]; exact h.tables,
      (h.left.dropBuf_quiet b).1.trans h.view, h.out⟩
  | dropInode inum =>
    have hstep : fsStep sb devsw u (.dropInode inum) =
        .ok { u with inode := update u.inode inum none } := rfl
    have hsafe : FsSafe sb n u (.dropInode inum) := trivial
    obtain ⟨hs, -⟩ := h.left.step h.tables hsafe hstep
    exact ⟨_, rfl, hs, h.right, h.tables, h.view, h.out⟩
  | readi inum off m => exact nomatch hact
  | writei inum src off m => exact nomatch hact
  | dirlink dnum name inum de => exact nomatch hact

/-- The runs stay side by side when the right one leaves the drops out. -/
lemma Twin.run (as : List FsAct) :
    ∀ u w, Twin sb n u w → AllSteps (fsStep sb devsw) (FsSafe sb n) as u →
      Rel (Twin sb n) (exec (fsStep sb devsw) as u)
        (exec (fsStep sb devsw) (as.filter FsAct.isCall) w) := by
  induction as with
  | nil =>
    intro u w h _
    exact Rel.ok h
  | cons act as ih =>
    intro u w h hP
    by_cases hact : act.isCall = true
    · rw [List.filter_cons_of_pos hact, exec, exec]
      have hcall : Rel _ (fsStep sb devsw u act) (fsStep sb devsw w act) := h.call hact
      cases hu : fsStep sb devsw u act with
      | error e =>
        rw [hcall.of_error hu]
        exact Rel.error e
      | ok u' =>
        obtain ⟨w', hw, hv, hout⟩ := hcall.exists_ok hu
        rw [hw]
        obtain ⟨hl, hdesc⟩ := h.left.step h.tables hP.1 hu
        obtain ⟨hr, -⟩ := h.right.step h.tables_right (h.safe hP.1) hw
        exact ih u' w' ⟨hl, hr, by rw [hdesc]; exact h.tables, hv, hout⟩ (hP.tail hu)
    · rw [Bool.not_eq_true] at hact
      rw [List.filter_cons_of_neg (by rw [hact]; decide), exec]
      obtain ⟨u', hu, h'⟩ : ∃ u', fsStep sb devsw u act = .ok u' ∧ Twin sb n u' w := h.drop hact
      rw [hu]
      exact ih u' w h' (hP.tail hu)

end Run

/-- **Main result.**  Take a run from a state in which nothing is held in memory only,
    each of whose steps satisfies `FsSafe`.  With the drops left out the run ends in the
    same way: in the same error, or with the same results of all its calls; and nothing
    is held in memory only at its end. -/
theorem drops_invisible (sb : Ext2Super) (devsw : Nat → Devsw) (n : Nat) (st : FsState)
    (hs : Synced sb n st) (ht : InodeTables sb n (st.bc.view 2)) (as : List FsAct)
    (hsafe : AllSteps (fsStep sb devsw) (FsSafe sb n) as st) :
    Rel (fun u w => u.out = w.out ∧ Synced sb n u ∧ Synced sb n w) (exec (fsStep sb devsw) as st)
      (exec (fsStep sb devsw) (as.filter FsAct.isCall) st) := by
  have h : Rel (Twin sb n) (exec (fsStep sb devsw) as st)
      (exec (fsStep sb devsw) (as.filter FsAct.isCall) st) :=
    Twin.run as st st ⟨hs, hs, ht, rfl, rfl⟩ hsafe
  cases hu : exec (fsStep sb devsw) as st with
  | error e =>
    rw [h.of_error hu]
    exact Rel.error e
  | ok u =>
    obtain ⟨w, hw, htwin⟩ := h.exists_ok hu
    rw [hw]
    exact Rel.ok ⟨htwin.out, htwin.left, htwin.right⟩

/-! ## A small image -/

/-- One group with 16 inodes of 128 bytes. -/
def oneGroup : Ext2Super where
  sBlocksCount    := 8193
  sFirstDataBlock := 1
  sBlocksPerGroup := 8192
  sInodesPerGroup := 16
  sInodeSize      := 128

/-- The bitmap is block 3, with the first 24 bits set; the inode table is blocks 5 and
    6, and inode 12 has the size and the pointers given. -/
def oneGroupDisk (size : Nat) (addrs : Nat → Nat) : Disk := fun b =>
  if b = 2 then putLE (putLE (fun _ => 0) 4 0 3) 4 8 5
  else if b = 3 then fun k => if k < 3 then 255 else 0
  else if b = 6 then putWords (putLE (putLE (fun _ => 0) 2 384 S_IFREG) 4 388 size) 424 addrs 15 0
  else fun _ => 0

def oneGroupState (size : Nat) (addrs : Nat → Nat) : FsState where
  bc    := ⟨oneGroupDisk size addrs, fun _ => none⟩
  inode := fun _ => none
  out   := []

def noDevices : Nat → Devsw := fun _ => ⟨none, none⟩

lemma oneGroup_home : ∀ i < 17, 1 ≤ i →
    inodeHome oneGroup (oneGroupDisk 0 (fun _ => 0) 2) i = (5 + (i - 1) / 8, (i - 1) % 8 * 128) := by
  decide

lemma oneGroup_tables : InodeTables oneGroup 16 (oneGroupDisk 0 (fun _ => 0) 2) := by
  refine ⟨by decide, by decide, by decide, fun i h1 h16 => ?_, fun i h1 h16 j hj1 hj16 hne => ?_⟩
  · rw [oneGroup_home i (by omega) h1]
    unfold INODE_BYTES BSIZE
    dsimp only
    omega
  · rw [oneGroup_home i (by omega) h1, oneGroup_home j (by omega) hj1]
    unfold INODE_BYTES
    dsimp only
    omega

/-- An empty file can be written to: the blocks that are free start behind the inode table. -/
lemma oneGroup_writeSafe :
    WriteSafe oneGroup 16 12 ((oneGroupState 0 (fun _ => 0)).theInode oneGroup 12)
      (oneGroupState 0 (fun _ => 0)).bc.view 0 (0 + 1) := by
  obtain ⟨ip, hip⟩ : ∃ ip, ip = (oneGroupState 0 (fun _ => 0)).theInode oneGroup 12 := ⟨_, rfl⟩
  have hnull : ip.addrs 0 = 0 := by rw [hip]; decide
  have hsize : ip.size = 0 := by rw [hip]; decide
  rw [← hip]
  have hbn : ∀ bn, InRange 0 (0 + 1) bn → bn = 0 := by
    rintro bn ⟨-, h⟩
    unfold BSIZE at h
    omega
  have hmeta : ∀ b, b = 3 ∨ 27 ≤ b →
      ¬Kept oneGroup 16 ip (oneGroupState 0 (fun _ => 0)).bc.view 0 (0 + 1) b := by
    rintro b hb ((rfl | ⟨i, h1, h16, hi⟩) | ⟨bn, hin, hmem⟩)
    · omega
    · have := oneGroup_home i (by omega) h1
      rw [show (oneGroupState 0 (fun _ => 0)).bc.view 2 = oneGroupDisk 0 (fun _ => 0) 2 from rfl,
        this] at hi
      dsimp only at hi
      omega
    · rw [hbn bn hin] at hmem
      exact nomatch hmem
  have hfresh : ∀ bn b, InRange 0 (0 + 1) bn →
      MayStore oneGroup 12 ip (oneGroupState 0 (fun _ => 0)).bc.view bn b → 27 ≤ b := by
    rintro bn b hin (⟨hst, -⟩ | ⟨-, f, hf, hclear, rfl⟩)
    · rw [hbn bn hin, stored_direct (by decide)] at hst
      exact absurd hnull hst
    · have hlim : f < 524288 := hf
      have hbb : bitmapOf oneGroup (oneGroupState 0 (fun _ => 0)).bc.view 12 = 3 := by decide
      rw [hbb] at hclear ⊢
      have hset : ∀ g < 24, scanBit ((oneGroupState 0 (fun _ => 0)).bc.view 3) g = true := by
        decide
      by_contra hlt
      rw [hset f (by omega)] at hclear
      exact nomatch hclear
  refine ⟨fun bn hin => .inr ⟨by omega, ?_⟩, fun bn b hin hb => hmeta b (.inr (hfresh bn b hin hb)),
    fun bn hin _ => ⟨hmeta _ (.inl (by decide)), fun bn' b hin' hb => ?_⟩⟩
  · rw [hbn bn hin]
    decide
  · have := hfresh bn' b hin' hb
    have hbb : bitmapOf oneGroup (oneGroupState 0 (fun _ => 0)).bc.view 12 = 3 := by decide
    omega

/-- Write a byte to an empty file, drop its buffer and the inode, and read it. -/
def growingFile : List FsAct :=
  [.writei 12 (fun _ => 65) 0 1, .dropBuf 27, .dropInode 12, .readi 12 0 1]

lemma growingFile_safe : AllSteps (fsStep oneGroup noDevices) (FsSafe oneGroup 16)
    growingFile (oneGroupState 0 (fun _ => 0)) := by
  obtain ⟨v, w, hv, hw, hsize, haddr⟩ : ∃ v w, exec (fsStep oneGroup noDevices)
      [.writei 12 (fun _ => 65) 0 1, .dropBuf 27, .dropInode 12]
      (oneGroupState 0 (fun _ => 0)) = .ok v ∧ fsStep oneGroup noDevices v (.readi 12 0 1) = .ok w ∧
      (v.theInode oneGroup 12).size = 1 ∧ (v.theInode oneGroup 12).addrs 0 ≠ 0 :=
    ⟨_, _, rfl, rfl, by decide, by decide⟩
  have hread : FsSafe oneGroup 16 v (.readi 12 0 1) := by
    refine ⟨by decide, by decide, fun bn hbn => ?_⟩
    obtain ⟨-, hlt⟩ := hbn
    rw [hsize] at hlt
    have h0 : bn = 0 := by unfold BSIZE at hlt; omega
    rwa [h0, stored_direct (by decide)]
  obtain ⟨v1, h1, hv⟩ := exec_cons_ok hv
  obtain ⟨v2, h2, hv⟩ := exec_cons_ok hv
  obtain ⟨v3, h3, hv⟩ := exec_cons_ok hv
  obtain rfl := ok.inj hv
  exact .cons ⟨by decide, by decide, fun _ => oneGroup_writeSafe⟩ h1
    (.cons trivial h2 (.cons trivial h3 (.cons hread hw trivial)))

/-- The byte is there after the drops, as it is without them. -/
theorem drops_invisible_growingFile :
    ∃ u w, exec (fsStep oneGroup noDevices) growingFile (oneGroupState 0 (fun _ => 0)) = .ok u ∧
      exec (fsStep oneGroup noDevices) (growingFile.filter FsAct.isCall)
        (oneGroupState 0 (fun _ => 0)) = .ok w ∧ u.out = w.out ∧ u.out = [(1, [65]), (1, [])] := by
  have hs : Synced oneGroup 16 (oneGroupState 0 (fun _ => 0)) := ⟨rfl, fun i ip h => nomatch h⟩
  obtain ⟨u, hu, hout⟩ : ∃ u, exec (fsStep oneGroup noDevices) growingFile
      (oneGroupState 0 (fun _ => 0)) = .ok u ∧ u.out = [(1, [65]), (1, [])] := ⟨_, rfl, by decide⟩
  obtain ⟨w, hw, heq, -⟩ := (drops_invisible oneGroup noDevices 16 _ hs oneGroup_tables _
    growingFile_safe).exists_ok hu
  exact ⟨u, w, hu, hw, heq, hout⟩

/-- The twelve direct blocks of a file of 12 KB. -/
def twelveBlocks (i : Nat) : Nat := if i < 12 then 10 + i else 0

/-- One byte more is written to a file of 12 KB, and read back: the byte is lost when the
    buffer of the indirect block is recycled in between. -/
theorem drop_loses_block : Synced oneGroup 16 (oneGroupState 12288 twelveBlocks) ∧
    (∃ u, exec (fsStep oneGroup noDevices) [.writei 12 (fun _ => 65) 12288 1,
        .readi 12 12288 1] (oneGroupState 12288 twelveBlocks) = .ok u ∧
      u.out = [(1, [65]), (1, [])]) ∧
    (∃ u, exec (fsStep oneGroup noDevices) [.writei 12 (fun _ => 65) 12288 1, .dropBuf 27,
        .readi 12 12288 1] (oneGroupState 12288 twelveBlocks) = .ok u ∧
      u.out = [(1, [0]), (1, [])]) := by
  refine ⟨⟨rfl, fun i ip h => nomatch h⟩, ⟨_, rfl, ?_⟩, ⟨_, rfl, ?_⟩⟩
  · decide
  · decide

end Ext2Persist
