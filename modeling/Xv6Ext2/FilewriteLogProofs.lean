import Xv6Ext2.FilewriteProofs

/-! # The blocks that a transaction of filewrite logs

    The arguments of `log_write`, in order, for each function that `filewrite` calls on the
    root device; the lists follow the functions call by call, also when a call panics.  The
    chunk limit `max` is written for blocks of 512 bytes, and a chunk of 1536 bytes touches at
    most three blocks of 1024.

    - `writei_unlogged` : a block that a write changes is on its list;
    - `writeLoop_logs` : for each block of the chunk, the block itself and the bitmap block of
      its allocation; once per run, the indirect block and the bitmap block of its allocation;
    - `writei_logs` : with the inode block at most nine blocks;
    - `filewrite_fits` : every transaction of every `filewrite`. -/

namespace FilewriteLog

open BufCache Param ByteBlock Outcome FileIo Xv6Alloc Xv6Inode Xv6Image Icache Xv6Calls Ext2Alloc
  Kernel Filewrite

open Except (ok.inj)

open List (mem_append mem_cons mem_singleton)

/-! ## The calls of log_write -/

def bzeroLogs (held : List Nat) (bno : Nat) (s : Bcache) : List Nat :=
  after (bread held bno s) fun _ => [bno]

/-- The loop of `xv6fs_balloc`: the bitmap block, and the new block that is zeroed. -/
def ballocFromLogs (sb : Superblock) (held : List Nat) : Nat → Nat → Bcache → List Nat
  | 0, _, _ => []
  | fuel + 1, b, s =>
    if b < sb.size then
      after (bread held (BBLOCK b sb) s) fun r =>
        match ballocBit sb.size b r.1 BPB 0 with
        | some bi => BBLOCK b sb :: bzeroLogs held (b + bi) (logWrite (BBLOCK b sb)
            (Function.update r.1 (bi / 8) (r.1 (bi / 8) ||| bitMask (bi % 8))) r.2)
        | none => ballocFromLogs sb held fuel (b + BPB) r.2
    else []

def ballocLogs (sb : Superblock) (held : List Nat) (s : Bcache) : List Nat :=
  ballocFromLogs sb held (sb.size / BPB + 1) 0 s

def addrSlotLogs (sb : Superblock) (ip : Dinode) (i : Nat) (s : Bcache) : List Nat :=
  if ip.addrs i = 0 then ballocLogs sb [] s else []

/-- The indirect block `blk` is logged when it gets a new word. -/
def entrySlotLogs (sb : Superblock) (blk i : Nat) (s : Bcache) : List Nat :=
  after (bread [] blk s) fun r =>
    if getLE r.1 4 (4 * i) = 0 then
      ballocLogs sb [blk] r.2 ++ after (xv6fsBalloc sb [blk] r.2) fun _ => [blk]
    else []

def bmapLogs (sb : Superblock) (ip : Dinode) (bn : Nat) (s : Bcache) : List Nat :=
  if bn < NDIRECT then addrSlotLogs sb ip bn s
  else if bn - NDIRECT < NINDIRECT then
    addrSlotLogs sb ip NDIRECT s ++ after (addrSlot sb ip NDIRECT s) fun r =>
      entrySlotLogs sb r.1 (bn - NDIRECT) r.2.2
  else []

def writeLoopLogs (sb : Superblock) : Nat → Dinode → (Nat → UInt8) → Nat → Nat → Bcache → List Nat
  | 0, _, _, _, _, _ => []
  | fuel + 1, ip, src, off, r, s =>
    if r = 0 then []
    else
      bmapLogs sb ip (off / BSIZE) s ++ after (xv6fsBmap sb ip (off / BSIZE) s) fun p =>
        after (bread [] p.1 p.2.2) fun q =>
          p.1 :: writeLoopLogs sb fuel p.2.1 (fun k => src (min r (BSIZE - off % BSIZE) + k))
            (off + min r (BSIZE - off % BSIZE)) (r - min r (BSIZE - off % BSIZE))
            (logWrite p.1 (blit q.1 (off % BSIZE) (min r (BSIZE - off % BSIZE)) src) q.2)

def iupdateLogs (sb : Superblock) (inum : Nat) (s : Bcache) : List Nat :=
  after (bread [] (IBLOCK inum sb) s) fun _ => [IBLOCK inum sb]

/-- `xv6fs_writei`; the write function of a device logs nothing. -/
def writeiLogs (sb : Superblock) (inum : Nat) (ip : Dinode) (src : Nat → UInt8) (off n : Nat)
    (s : Bcache) : List Nat :=
  if ip.type = T_DEV then []
  else if ip.size < off ∨ (off + n) % 2 ^ 32 < off then []
  else if MAXFILE * BSIZE < (off + n) % 2 ^ 32 then []
  else
    writeLoopLogs sb n ip src off n s ++
      after (writeLoop (xv6fsBmap sb) logWrite n ip src off n s) fun p =>
        if 0 < n ∧ p.1.size < (off + n) % 2 ^ 32 then iupdateLogs sb inum p.2 else []

/-- The transaction of one chunk: `ilock` and `iunlock` log nothing. -/
def turnLogs (sb : Superblock) (esb : Ext2Super) (c : Write) (n1 : Nat) (f : File) (st : Cache) :
    List Nat :=
  after (ilock sb esb f.ip st) fun st =>
    match (st.inode f.ip).addrs with
    | none => []
    | some p => writeiLogs sb (st.inode f.ip).inum ((st.inode f.ip).copy (st.slot p).addrs)
        (fun k => c.addr.getD (c.i + k) 0) f.off n1 st.root

def nextChunk (c : Write) : Nat :=
  if MAXWRITE < c.addr.length - c.i then MAXWRITE else c.addr.length - c.i

/-- The transactions of a call of `filewrite`, from `c.i` on. -/
def filewriteLogs (sb : Superblock) (esb : Ext2Super) (devsw : Nat → Devsw) :
    Nat → Write → File → Cache → List (List Nat)
  | 0, _, _, _ => []
  | fuel + 1, c, f, st =>
    if c.i < c.addr.length then
      turnLogs sb esb c (nextChunk c) f st ::
        after (turn sb esb devsw c (nextChunk c) f st) fun r =>
          if r.1 ≠ (nextChunk c : Int) then []
          else filewriteLogs sb esb devsw fuel { c with i := c.i + nextChunk c } r.2.1 r.2.2
    else []

/-- The transaction fits into what `begin_op` reserved for it. -/
def Fits (logs : List Nat) : Prop := logs.toFinset.card ≤ MAXOPBLOCKS

/-! ## A block that is not logged is unchanged -/

section Unlogged

variable (sb : Superblock) {b : Nat}

lemma logWrite_view_of_ne {c : Nat} (d : Block) (s : Bcache) (h : b ≠ c) :
    (logWrite c d s).view b = s.view b := by
  rw [logWrite, bput_view, Function.update_of_ne h]

variable {s : Bcache}

lemma bread_view {held : List Nat} {c : Nat} {s' : Bcache} {d : Block}
    (h : bread held c s = .ok (d, s')) : s'.view = s.view := by
  rw [(bread_ok h).2.2, touch_view]

lemma ballocFrom_unlogged (held : List Nat) (fuel : Nat) : ∀ (c : Nat) (s : Bcache)
    (r : Nat × Bcache), ballocFrom sb held fuel c s = .ok r → b ∉ ballocFromLogs sb held fuel c s →
    r.2.view b = s.view b := by
  induction fuel with
  | zero =>
    intro c s r hr _
    cases hr
  | succ fuel ih =>
    intro c s r hr hb
    rw [ballocFromLogs] at hb
    rw [ballocFrom] at hr
    by_cases hc : c < sb.size
    · rw [if_pos hc] at hb hr
      obtain ⟨⟨data, s1⟩, hread, hr⟩ := bind_eq_ok.mp hr
      rw [after_ok hread] at hb
      have hview : s1.view = s.view := bread_view hread
      dsimp only at hr hb
      cases hbit : ballocBit sb.size c data BPB 0 with
      | none =>
        rw [hbit] at hr hb
        rw [ih _ _ r hr hb, hview]
      | some bi =>
        rw [hbit] at hr hb
        obtain ⟨s2, hzero, hr⟩ := bind_eq_ok.mp hr
        obtain rfl := ok.inj hr
        obtain ⟨⟨d, s3⟩, hread3, hzero⟩ := bind_eq_ok.mp hzero
        obtain rfl := ok.inj hzero
        rw [mem_cons, not_or, bzeroLogs, after_ok hread3, mem_singleton] at hb
        show (logWrite _ _ s3).view b = s.view b
        rw [logWrite_view_of_ne _ _ hb.2, bread_view hread3, logWrite_view_of_ne _ _ hb.1, hview]
    · rw [if_neg hc] at hr
      cases hr

variable {ip : Dinode} {i : Nat} {r : Nat × Dinode × Bcache}

lemma addrSlot_unlogged (hr : addrSlot sb ip i s = .ok r) (hb : b ∉ addrSlotLogs sb ip i s) :
    r.2.2.view b = s.view b := by
  rw [addrSlot] at hr
  rw [addrSlotLogs] at hb
  split at hr
  · next h0 =>
    rw [if_pos h0] at hb
    obtain ⟨⟨c, s1⟩, hcall, hr⟩ := bind_eq_ok.mp hr
    obtain rfl := ok.inj hr
    exact ballocFrom_unlogged sb _ _ _ _ (c, s1) hcall hb
  · obtain rfl := ok.inj hr
    rfl

lemma entrySlot_unlogged {blk : Nat} {r : Nat × Bcache} (hr : entrySlot sb blk i s = .ok r)
    (hb : b ∉ entrySlotLogs sb blk i s) : r.2.view b = s.view b := by
  rw [entrySlot] at hr
  rw [entrySlotLogs] at hb
  obtain ⟨⟨a, s1⟩, hread, hr⟩ := bind_eq_ok.mp hr
  rw [after_ok hread] at hb
  dsimp only at hr hb
  split at hr
  · next h0 =>
    rw [if_pos h0] at hb
    obtain ⟨⟨c, s2⟩, hcall, hr⟩ := bind_eq_ok.mp hr
    obtain rfl := ok.inj hr
    rw [after_ok hcall, mem_append, not_or, mem_singleton] at hb
    show (logWrite blk _ s2).view b = s.view b
    rw [logWrite_view_of_ne _ _ hb.2, ballocFrom_unlogged sb _ _ _ _ (c, s2) hcall hb.1,
      bread_view hread]
  · obtain rfl := ok.inj hr
    exact congrFun (bread_view hread) b

lemma bmap_unlogged {bn : Nat} (hr : xv6fsBmap sb ip bn s = .ok r) (hb : b ∉ bmapLogs sb ip bn s) :
    r.2.2.view b = s.view b := by
  rw [xv6fsBmap] at hr
  rw [bmapLogs] at hb
  split at hr
  · next hd =>
    rw [if_pos hd] at hb
    exact addrSlot_unlogged sb hr hb
  · next hd =>
    dsimp only at hr
    rw [if_neg hd] at hb
    split at hr
    · next hk =>
      rw [if_pos hk] at hb
      obtain ⟨p, hslot, hr⟩ := bind_eq_ok.mp hr
      obtain ⟨q, hentry, hr⟩ := bind_eq_ok.mp hr
      obtain rfl := ok.inj hr
      rw [after_ok hslot, mem_append, not_or] at hb
      rw [entrySlot_unlogged sb hentry hb.2, addrSlot_unlogged sb hslot hb.1]
    · cases hr

lemma writeLoop_unlogged (fuel : Nat) : ∀ (ip : Dinode) (src : Nat → UInt8) (off r : Nat)
    (s : Bcache) (p : Dinode × Bcache),
    writeLoop (xv6fsBmap sb) logWrite fuel ip src off r s = .ok p →
    b ∉ writeLoopLogs sb fuel ip src off r s → p.2.view b = s.view b := by
  induction fuel with
  | zero =>
    intro ip src off r s p hp _
    obtain rfl := ok.inj hp
    rfl
  | succ fuel ih =>
    intro ip src off r s p hp hb
    rw [writeLoop] at hp
    rw [writeLoopLogs] at hb
    split at hp
    · obtain rfl := ok.inj hp
      rfl
    · next hr0 =>
      rw [if_neg hr0] at hb
      obtain ⟨q, hmap, hp⟩ := bind_eq_ok.mp hp
      obtain ⟨⟨d, s1⟩, hread, hp⟩ := bind_eq_ok.mp hp
      rw [after_ok hmap, after_ok hread, mem_append, not_or, mem_cons, not_or] at hb
      rw [ih _ _ _ _ _ p hp hb.2.2, logWrite_view_of_ne _ _ hb.2.1, bread_view hread,
        bmap_unlogged sb hmap hb.1]

/-- **The list is complete**: a block that `xv6fs_writei` changes is logged. -/
theorem writei_unlogged {inum : Nat} {devsw : Nat → Devsw} {src : Nat → UInt8} {off n : Nat}
    {r : Int × Dinode × Bcache} (hr : xv6fsWritei sb inum devsw ip src off n s = .ok r)
    (hb : b ∉ writeiLogs sb inum ip src off n s) : r.2.2.view b = s.view b := by
  rw [xv6fsWritei, FileIo.writei] at hr
  rw [writeiLogs] at hb
  by_cases hdev : ip.type = T_DEV
  · rw [if_pos hdev] at hr
    repeat' split at hr
    all_goals
      obtain rfl := ok.inj hr
      rfl
  rw [if_neg hdev] at hr hb
  by_cases hin : ip.size < off ∨ (off + n) % 2 ^ 32 < off
  · rw [if_pos hin] at hr
    obtain rfl := ok.inj hr
    rfl
  rw [if_neg hin] at hr hb
  by_cases hfits : MAXFILE * BSIZE < (off + n) % 2 ^ 32
  · rw [if_pos hfits] at hr
    obtain rfl := ok.inj hr
    rfl
  rw [if_neg hfits] at hr hb
  obtain ⟨p, hloop, hr⟩ := bind_eq_ok.mp hr
  rw [after_ok hloop, mem_append, not_or] at hb
  have hview := writeLoop_unlogged sb n ip src off n s p hloop hb.1
  dsimp only at hr
  split at hr
  · next hgrow =>
    rw [if_pos hgrow] at hb
    obtain ⟨s1, hupdate, hr⟩ := bind_eq_ok.mp hr
    obtain rfl := ok.inj hr
    obtain ⟨⟨d, s2⟩, hread, hupdate⟩ := bind_eq_ok.mp hupdate
    obtain rfl := ok.inj hupdate
    rw [iupdateLogs, after_ok hread, mem_singleton] at hb
    show (logWrite _ _ s2).view b = s.view b
    rw [logWrite_view_of_ne _ _ hb.2, bread_view hread, hview]
  · obtain rfl := ok.inj hr
    exact hview

end Unlogged

/-! ## Allocation -/

section Blocks

variable (sb : Superblock)

/-- `xv6fs_balloc` logs one bitmap block and the block that it returns. -/
lemma ballocFrom_logs (held : List Nat) (fuel : Nat) : ∀ (b : Nat) (s : Bcache),
    ∃ x y, (∀ l ∈ ballocFromLogs sb held fuel b s, l = x ∨ l = y) ∧
      ∀ r, ballocFrom sb held fuel b s = .ok r → r.1 = y := by
  induction fuel with
  | zero =>
    intro b s
    refine ⟨0, 0, fun l hl => ?_, fun r hr => ?_⟩
    · cases hl
    · cases hr
  | succ fuel ih =>
    intro b s
    rw [ballocFromLogs, ballocFrom]
    by_cases hb : b < sb.size
    · rw [if_pos hb, if_pos hb]
      cases hread : bread held (BBLOCK b sb) s with
      | error e =>
        refine ⟨0, 0, fun l hl => ?_, fun r hr => ?_⟩
        · cases hl
        · cases hr
      | ok p =>
        obtain ⟨data, s1⟩ := p
        rw [after_ok rfl, ok_bind]
        dsimp only
        cases ballocBit sb.size b data BPB 0 with
        | some bi =>
          refine ⟨BBLOCK b sb, b + bi, fun l hl => ?_, fun r hr => ?_⟩
          · rcases mem_cons.mp hl with rfl | hl
            · exact .inl rfl
            rw [bzeroLogs, mem_after] at hl
            obtain ⟨-, -, hl⟩ := hl
            exact .inr (mem_singleton.mp hl)
          · obtain ⟨s2, -, hr⟩ := bind_eq_ok.mp hr
            rw [← ok.inj hr]
        | none => exact ih (b + BPB) s1
    · rw [if_neg hb, if_neg hb]
      refine ⟨0, 0, fun l hl => ?_, fun r hr => ?_⟩
      · cases hl
      · cases hr

lemma addrSlot_logs (ip : Dinode) (i : Nat) (s : Bcache) :
    ∃ x y, (∀ l ∈ addrSlotLogs sb ip i s, ip.addrs i = 0 ∧ (l = x ∨ l = y)) ∧
      ∀ r, addrSlot sb ip i s = .ok r → r.1 = y ∧ r.2.1.addrs i = y ∧
        ∀ j, j ≠ i → r.2.1.addrs j = ip.addrs j := by
  rw [addrSlotLogs, addrSlot]
  by_cases h0 : ip.addrs i = 0
  · rw [if_pos h0, if_pos h0]
    obtain ⟨x, y, hlogs, hok⟩ := ballocFrom_logs sb [] (sb.size / BPB + 1) 0 s
    refine ⟨x, y, fun l hl => ⟨h0, hlogs l hl⟩, fun r hr => ?_⟩
    obtain ⟨⟨b, s1⟩, hcall, hr⟩ := bind_eq_ok.mp hr
    obtain rfl := ok.inj hr
    obtain rfl : b = y := hok _ hcall
    exact ⟨rfl, Function.update_self _ _ _, fun j hj => Function.update_of_ne hj _ _⟩
  · rw [if_neg h0, if_neg h0]
    refine ⟨0, ip.addrs i, fun l hl => ?_, fun r hr => ?_⟩
    · cases hl
    · obtain rfl := ok.inj hr
      exact ⟨rfl, rfl, fun _ _ => rfl⟩

lemma entrySlot_logs (blk i : Nat) (s : Bcache) :
    ∃ x y, (∀ l ∈ entrySlotLogs sb blk i s, l = blk ∨ l = x ∨ l = y) ∧
      ∀ r, entrySlot sb blk i s = .ok r → r.1 = y := by
  rw [entrySlotLogs, entrySlot, bread_of_notMem List.not_mem_nil, after_ok rfl, ok_bind]
  dsimp only
  split
  · obtain ⟨x, y, hlogs, hok⟩ := ballocFrom_logs sb [blk] (sb.size / BPB + 1) 0 (s.touch blk)
    refine ⟨x, y, fun l hl => ?_, fun r hr => ?_⟩
    · rcases mem_append.mp hl with hl | hl
      · exact .inr (hlogs l hl)
      · obtain ⟨-, -, hl⟩ := mem_after.mp hl
        exact .inl (mem_singleton.mp hl)
    · obtain ⟨⟨b, s1⟩, hcall, hr⟩ := bind_eq_ok.mp hr
      obtain rfl := ok.inj hr
      exact hok (b, s1) hcall
  · refine ⟨0, getLE (s.view blk) 4 (4 * i), fun l hl => ?_, fun r hr => ?_⟩
    · cases hl
    · obtain rfl := ok.inj hr
      rfl

lemma bmap_direct_logs (ip : Dinode) {bn : Nat} (hbn : bn < NDIRECT) (s : Bcache) :
    ∃ x y, (∀ l ∈ bmapLogs sb ip bn s, l = x ∨ l = y) ∧
      ∀ r, xv6fsBmap sb ip bn s = .ok r → r.1 = y ∧ r.2.1.addrs NDIRECT = ip.addrs NDIRECT := by
  rw [bmapLogs, xv6fsBmap, if_pos hbn, if_pos hbn]
  obtain ⟨x, y, hlogs, hok⟩ := addrSlot_logs sb ip bn s
  refine ⟨x, y, fun l hl => (hlogs l hl).2, fun r hr => ?_⟩
  obtain ⟨hr1, -, hr2⟩ := hok r hr
  exact ⟨hr1, hr2 NDIRECT (Nat.ne_of_gt hbn)⟩

/-- A block behind the indirect block: itself and a bitmap block, the indirect block, and a
    bitmap block of the indirect block when that is new. -/
lemma bmap_indirect_logs (ip : Dinode) {bn : Nat} (hbn : ¬bn < NDIRECT) (s : Bcache) : ∃ x y z i,
      (∀ l ∈ bmapLogs sb ip bn s, l = x ∨ l = y ∨ l = i ∨ (ip.addrs NDIRECT = 0 ∧ l = z)) ∧
      (ip.addrs NDIRECT ≠ 0 → i = ip.addrs NDIRECT) ∧
      ∀ r, xv6fsBmap sb ip bn s = .ok r → r.1 = y ∧ r.2.1.addrs NDIRECT = i := by
  rw [bmapLogs, xv6fsBmap, if_neg hbn, if_neg hbn]
  dsimp only
  obtain ⟨z, i, hlogs, hok⟩ := addrSlot_logs sb ip NDIRECT s
  have hsame : ip.addrs NDIRECT ≠ 0 → i = ip.addrs NDIRECT := by
    intro h0
    have hslot : addrSlot sb ip NDIRECT s = .ok (ip.addrs NDIRECT, ip, s) := if_neg h0
    exact (hok _ hslot).1.symm
  have hnew : ∀ l ∈ addrSlotLogs sb ip NDIRECT s, l = i ∨ (ip.addrs NDIRECT = 0 ∧ l = z) := by
    intro l hl
    obtain ⟨h0, rfl | rfl⟩ := hlogs l hl
    · exact .inr ⟨h0, rfl⟩
    · exact .inl rfl
  by_cases hk : bn - NDIRECT < NINDIRECT
  · rw [if_pos hk, if_pos hk]
    cases hslot : addrSlot sb ip NDIRECT s with
    | error e =>
      refine ⟨0, 0, z, i, fun l hl => ?_, hsame, fun r hr => ?_⟩
      · rcases mem_append.mp hl with hl | hl
        · exact .inr (.inr (hnew l hl))
        · cases hl
      · cases hr
    | ok p =>
      obtain ⟨hp1, hp2, -⟩ := hok p hslot
      obtain ⟨x, y, hentry, hret⟩ := entrySlot_logs sb p.1 (bn - NDIRECT) p.2.2
      refine ⟨x, y, z, i, fun l hl => ?_, hsame, fun r hr => ?_⟩
      · rcases mem_append.mp hl with hl | hl
        · exact .inr (.inr (hnew l hl))
        rcases hentry l hl with rfl | rfl | rfl
        · exact .inr (.inr (.inl hp1))
        · exact .inl rfl
        · exact .inr (.inl rfl)
      · rw [ok_bind] at hr
        obtain ⟨⟨b, s1⟩, hcall, hr⟩ := bind_eq_ok.mp hr
        obtain rfl := ok.inj hr
        exact ⟨hret (b, s1) hcall, hp2⟩
  · rw [if_neg hk, if_neg hk]
    refine ⟨0, 0, z, i, fun l hl => ?_, hsame, fun r hr => ?_⟩
    · cases hl
    · cases hr

end Blocks

/-! ## The loop of xv6fs_writei -/

/-- The turns of the loop for `r` bytes at `off`. -/
def turns (off r : Nat) : Nat := if r = 0 then 0 else (off % BSIZE + r + (BSIZE - 1)) / BSIZE

lemma turns_step (off : Nat) {r : Nat} (hr : r ≠ 0) :
    turns (off + min r (BSIZE - off % BSIZE)) (r - min r (BSIZE - off % BSIZE)) + 1 ≤
      turns off r := by
  rw [turns, turns, if_neg hr]
  unfold BSIZE
  split <;> omega

/-- The blocks of the indirect block at `addr`: up to two while it has no address, only
    itself when it has one. -/
def Indirect (addr : Nat) (ind : List Nat) : Prop :=
  (addr = 0 → ind.length ≤ 2) ∧ (addr ≠ 0 → ind = [addr])

/-- The logged blocks are those of the indirect block and at most `n` others. -/
def Covered (addr n : Nat) (logs : List Nat) : Prop :=
  ∃ ind rest, (∀ l ∈ logs, l ∈ ind ++ rest) ∧ rest.length ≤ n ∧ Indirect addr ind

lemma covered_nil (addr n : Nat) : Covered addr n [] := by
  have hnil : ∀ l ∈ ([] : List Nat), ∀ c : List Nat, l ∈ c := fun l hl => absurd hl List.not_mem_nil
  by_cases h0 : addr = 0
  · exact ⟨[], [], fun l hl => hnil l hl _, Nat.zero_le _, fun _ => Nat.zero_le _,
      fun h => absurd h0 h⟩
  · exact ⟨[addr], [], fun l hl => hnil l hl _, Nat.zero_le _, fun h => absurd h h0, fun _ => rfl⟩

variable {addr n : Nat}

lemma Covered.mono {m : Nat} {logs : List Nat} (h : Covered addr n logs) (hm : n ≤ m) :
    Covered addr m logs := by
  obtain ⟨ind, rest, hlogs, hlen, hind⟩ := h
  exact ⟨ind, rest, hlogs, Nat.le_trans hlen hm, hind⟩

variable {x y : Nat} {here next : List Nat}

/-- A turn with a direct block leaves the indirect block to the turns that follow. -/
lemma Covered.direct (h : Covered addr n next)
    (hhere : ∀ l ∈ here, l = x ∨ l = y) : Covered addr (n + 2) (here ++ y :: next) := by
  obtain ⟨ind, rest, hlogs, hlen, hind⟩ := h
  refine ⟨ind, x :: y :: rest, fun l hl => ?_, Nat.succ_le_succ (Nat.succ_le_succ hlen), hind⟩
  rcases mem_append.mp hl with hl | hl
  · rcases hhere l hl with rfl | rfl <;> simp
  rcases mem_cons.mp hl with rfl | hl
  · simp
  · rcases mem_append.mp (hlogs l hl) with hl | hl <;> simp [hl]

/-- A turn behind the indirect block `i`, whose allocation, if it is new, logs `z`; in the
    turns that follow it has an address. -/
lemma Covered.indirect {z i : Nat} (h : Covered i n next) (hi : i ≠ 0)
    (hsame : addr ≠ 0 → i = addr) (hhere : ∀ l ∈ here, l = x ∨ l = y ∨ l = i ∨ (addr = 0 ∧ l = z)) :
    Covered addr (n + 2) (here ++ y :: next) := by
  obtain ⟨ind, rest, hlogs, hlen, hind⟩ := h
  obtain rfl := hind.2 hi
  have hlen' := Nat.succ_le_succ (Nat.succ_le_succ hlen)
  by_cases h0 : addr = 0
  · refine ⟨[i, z], x :: y :: rest, fun l hl => ?_, hlen', fun _ => le_rfl, fun h => absurd h0 h⟩
    rcases mem_append.mp hl with hl | hl
    · rcases hhere l hl with rfl | rfl | rfl | ⟨-, rfl⟩ <;> simp
    rcases mem_cons.mp hl with rfl | hl
    · simp
    rcases mem_append.mp (hlogs l hl) with hl | hl
    · simp [mem_singleton.mp hl]
    · simp [hl]
  obtain rfl := hsame h0
  refine ⟨[i], x :: y :: rest, fun l hl => ?_, hlen', fun h => absurd h h0, fun _ => rfl⟩
  rcases mem_append.mp hl with hl | hl
  · rcases hhere l hl with rfl | rfl | rfl | ⟨hz, -⟩
    · simp
    · simp
    · simp
    · exact absurd hz h0
  rcases mem_cons.mp hl with rfl | hl
  · simp
  rcases mem_append.mp (hlogs l hl) with hl | hl
  · simp [mem_singleton.mp hl]
  · simp [hl]

lemma covered_full {z i : Nat} (hn : 2 ≤ n) (hsame : addr ≠ 0 → i = addr)
    (hhere : ∀ l ∈ here, l = x ∨ l = y ∨ l = i ∨ (addr = 0 ∧ l = z)) : Covered addr n here := by
  by_cases h0 : addr = 0
  · refine ⟨[i, z], [x, y], fun l hl => ?_, hn, fun _ => le_rfl, fun h => absurd h0 h⟩
    rcases hhere l hl with rfl | rfl | rfl | ⟨-, rfl⟩ <;> simp
  obtain rfl := hsame h0
  refine ⟨[i], [x, y], fun l hl => ?_, hn, fun h => absurd h h0, fun _ => rfl⟩
  rcases hhere l hl with rfl | rfl | rfl | ⟨hz, -⟩
  · simp
  · simp
  · simp
  · exact absurd hz h0

section Loop

variable {sb : Superblock} {inum : Nat}

/-- **The loop of `xv6fs_writei`** logs two blocks in each turn, and those of the indirect
    block: once it has an address, its allocation is not repeated. -/
lemma writeLoop_logs (hl : Layout sb) (fuel : Nat) : ∀ (D : Nat → Dinode) (nb off r : Nat)
    (src : Nat → UInt8) (s : Bcache), Working sb D inum nb s.view → off ≤ nb * BSIZE →
    off + r ≤ MAXFILE * BSIZE → Covered ((D inum).addrs NDIRECT) (2 * turns off r)
      (writeLoopLogs sb fuel (D inum) src off r s) := by
  induction fuel with
  | zero =>
    intro D nb off r src s _ _ _
    exact covered_nil _ _
  | succ fuel ih =>
    intro D nb off r src s h hoff hmax
    rw [writeLoopLogs]
    by_cases hr0 : r = 0
    · rw [if_pos hr0]
      exact covered_nil _ _
    rw [if_neg hr0]
    have hturns := turns_step off hr0
    obtain ⟨m, hm⟩ : ∃ m, m = min r (BSIZE - off % BSIZE) := ⟨_, rfl⟩
    rw [← hm] at hturns ⊢
    have hbn : off / BSIZE ≤ nb := by unfold BSIZE at *; omega
    have hbmax : off / BSIZE < MAXFILE := by unfold BSIZE at *; omega
    have hblk : off % BSIZE + m ≤ BSIZE := by unfold BSIZE at *; omega
    have hoff' : off + m ≤ max nb (off / BSIZE + 1) * BSIZE := by unfold BSIZE at *; omega
    have hspan : 2 * turns (off + m) (r - m) + 2 ≤ 2 * turns off r := by omega
    cases hcall : xv6fsBmap sb (D inum) (off / BSIZE) s with
    | error e =>
      rw [after, List.append_nil]
      by_cases hd : off / BSIZE < NDIRECT
      · obtain ⟨x, y, hlogs, -⟩ := bmap_direct_logs sb (D inum) hd s
        refine covered_full (x := x) (y := y) (z := 0) (by omega) (fun _ => rfl) (fun l hl => ?_)
        rcases hlogs l hl with hx | hy
        · exact .inl hx
        · exact .inr (.inl hy)
      · obtain ⟨x, y, z, i, hlogs, hsame, -⟩ := bmap_indirect_logs sb (D inum) hd s
        exact covered_full (by omega) hsame hlogs
    | ok p =>
      obtain ⟨b, ip, s1⟩ := p
      obtain ⟨D', hip, h', hg, hb, -⟩ := (bmap_reach hl h hbn hbmax).of_ok hcall
      dsimp only at hip h' hg hb
      subst hip
      rw [after_ok rfl]
      dsimp only
      rw [bread_of_notMem List.not_mem_nil, after_ok rfl]
      dsimp only
      have hview : (logWrite b (blit (s1.view b) (off % BSIZE) m src) (s1.touch b)).view =
          Function.update s1.view (blockAt (D' inum) s1.view (off / BSIZE))
            (fillBlock (s1.view (blockAt (D' inum) s1.view (off / BSIZE)))
              (blit (s1.view (blockAt (D' inum) s1.view (off / BSIZE))) (off % BSIZE) m src)) := by
        rw [← hb, logWrite, bput_view, touch_view]
      obtain ⟨hw, -, -⟩ := write_turn hl h hoff hblk h' hg hview
      have hnext := ih D' _ (off + m) (r - m) (fun k => src (m + k)) _ hw hoff' (by omega)
      by_cases hd : off / BSIZE < NDIRECT
      · obtain ⟨x, y, hlogs, hok⟩ := bmap_direct_logs sb (D inum) hd s
        obtain ⟨rfl, hsame⟩ := hok _ hcall
        rw [← hsame]
        exact (hnext.direct hlogs).mono hspan
      obtain ⟨x, y, z, i, hlogs, hsame, hok⟩ := bmap_indirect_logs sb (D inum) hd s
      obtain ⟨rfl, rfl⟩ := hok _ hcall
      have hne : (D' inum).addrs NDIRECT ≠ 0 := hw.covers.indirect.mpr (by omega)
      exact (hnext.indirect hne hsame hlogs).mono hspan

lemma Covered.card_le {addr n : Nat} {logs : List Nat} (h : Covered addr n logs) :
    logs.toFinset.card ≤ n + 2 := by
  obtain ⟨ind, rest, hlogs, hlen, hind⟩ := h
  have hsub : logs.toFinset ⊆ (ind ++ rest).toFinset := by
    intro l hl
    exact List.mem_toFinset.mpr (hlogs l (List.mem_toFinset.mp hl))
  have hind2 : ind.length ≤ 2 := by
    by_cases h0 : addr = 0
    · exact hind.1 h0
    · rw [hind.2 h0]
      exact Nat.le_succ 1
  calc logs.toFinset.card ≤ (ind ++ rest).toFinset.card := Finset.card_le_card hsub
    _ ≤ (ind ++ rest).length := List.toFinset_card_le _
    _ ≤ n + 2 := by rw [List.length_append]; omega

/-- **A call of `xv6fs_writei`** logs two blocks in each turn, two for the indirect block and that
    of the inode. -/
lemma writei_logs_card (hl : Layout sb) {s : Bcache} (h : Consistent sb s.view)
    (hu : InUse sb (dinodeAt sb s.view) inum) (src : Nat → UInt8) {off n : Nat} (hn : n < 2 ^ 31) :
    (writeiLogs sb inum (dinodeAt sb s.view inum) src off n s).toFinset.card ≤
      2 * turns off n + 3 := by
  rw [writeiLogs]
  split
  · exact Nat.zero_le _
  split
  · exact Nat.zero_le _
  split
  · exact Nat.zero_le _
  next hdev hin hfits =>
    have hf : IsFile (dinodeAt sb s.view inum) := by
      rcases h.types inum hu with hf | ht
      · exact hf
      · exact absurd ht hdev
    have hlim : MAXFILE * BSIZE = 274432 := rfl
    have hsize := size_le_max h hu hf
    have hloop := writeLoop_logs hl n (dinodeAt sb s.view) _ off n src s (h.working hu hf)
      (by unfold blocks BSIZE at *; omega) (by omega)
    have hcard := hloop.card_le
    have hsub : (writeLoopLogs sb n (dinodeAt sb s.view inum) src off n s ++
        after (writeLoop (xv6fsBmap sb) logWrite n (dinodeAt sb s.view inum) src off n s)
          (fun p => if 0 < n ∧ p.1.size < (off + n) % 2 ^ 32 then iupdateLogs sb inum p.2
            else [])).toFinset ⊆ insert (IBLOCK inum sb)
          (writeLoopLogs sb n (dinodeAt sb s.view inum) src off n s).toFinset := by
      intro l hl
      rw [List.mem_toFinset, mem_append] at hl
      rw [Finset.mem_insert, List.mem_toFinset]
      refine hl.symm.imp_left (fun hl => ?_)
      obtain ⟨p, -, hl⟩ := mem_after.mp hl
      split at hl
      · rw [iupdateLogs, mem_after] at hl
        obtain ⟨-, -, hl⟩ := hl
        exact mem_singleton.mp hl
      · cases hl
    have h1 := Finset.card_le_card hsub
    have h2 := Finset.card_insert_le (IBLOCK inum sb)
      (writeLoopLogs sb n (dinodeAt sb s.view inum) src off n s).toFinset
    omega

/-- **A chunk** of at most `max` bytes has three turns. -/
lemma writei_logs (hl : Layout sb) {s : Bcache} (h : Consistent sb s.view)
    (hu : InUse sb (dinodeAt sb s.view) inum) (src : Nat → UInt8) {off n : Nat}
    (hn : n ≤ MAXWRITE) : Fits (writeiLogs sb inum (dinodeAt sb s.view inum) src off n s) := by
  have hmax : MAXWRITE = 1536 := rfl
  have hop : MAXOPBLOCKS = 10 := rfl
  have hcard : (writeiLogs sb inum (dinodeAt sb s.view inum) src off n s).toFinset.card ≤
      2 * turns off n + 3 := writei_logs_card hl h hu src (by omega)
  have hturns : turns off n ≤ 3 := by
    unfold turns BSIZE
    split <;> omega
  unfold Fits
  omega

end Loop

/-! ## The transactions of filewrite -/

section Transactions

variable {sb : Superblock} {st st' : Cache} {f : File}

lemma ilock_locked (esb : Ext2Super) (h : Sync sb st) {a : Nat} (href : Referenced st a)
    (hok : ilock sb esb a st = .ok st') : Sync sb st' ∧ Locked st' a := by
  refine ⟨(h.ilock esb href).of_ok hok, ?_⟩
  obtain ⟨hiops, -⟩ := h.entry href.1 href.2
  rw [Icache.ilock, hiops] at hok
  rcases ilockWith_ok hok with ⟨hv, rfl⟩ | ⟨p, d, bc, -, -, -, -, rfl⟩
  · exact ⟨href, hv⟩
  refine ⟨⟨href.1, ?_⟩, ?_⟩
  · rw [setInode_self]
    exact href.2
  · rw [setInode_self]

/-- **One transaction**, in any state of the cache that is in step with the image. -/
lemma turn_logs (hl : Layout sb) (esb : Ext2Super) (h : Sync sb st) (href : Referenced st f.ip)
    (c : Write) {n1 : Nat} (hn : n1 ≤ MAXWRITE) : Fits (turnLogs sb esb c n1 f st) := by
  rw [turnLogs]
  cases hlock : ilock sb esb f.ip st with
  | error e => exact Nat.zero_le _
  | ok st1 =>
    obtain ⟨hsync, hlocked⟩ := ilock_locked esb h href hlock
    obtain ⟨⟨ha, hr⟩, hv⟩ := hlocked
    obtain ⟨-, i, hp⟩ := hsync.entry ha hr
    rw [after_ok rfl, hp]
    dsimp only
    rw [(hsync.synced f.ip ha hr hv _ hp).1]
    exact writei_logs hl hsync.image (hsync.inUse ha hr hv) _ hn

lemma turn_sync (hl : Layout sb) (esb : Ext2Super) (devsw : Nat → Devsw) (h : Sync sb st)
    (href : Referenced st f.ip) {c : Write} {n1 : Nat} (hn : n1 ≤ MAXWRITE) {r : Int × File × Cache}
    (hok : turn sb esb devsw c n1 f st = .ok r) : Sync sb r.2.2 ∧ Referenced r.2.2 r.2.1.ip := by
  obtain ⟨st1, hlock, hok⟩ := bind_eq_ok.mp hok
  obtain ⟨⟨res, st2⟩, hwrite, hok⟩ := bind_eq_ok.mp hok
  obtain ⟨hsync, hlocked⟩ := ilock_locked esb h href hlock
  have hlt : n1 < 2 ^ 32 := by
    have hmax : MAXWRITE = 1536 := rfl
    omega
  have hkept : Sat (xv6fsWritei sb (st1.inode f.ip).inum devsw
      (dinodeAt sb st1.root.view (st1.inode f.ip).inum) (fun k => c.addr.getD (c.i + k) 0) f.off n1
      st1.root) (fun r => True ∧ Kept sb (st1.inode f.ip).inum st1.root.view r.2.1 r.2.2.view)
      (fun _ => True) :=
    (writei_kept hl devsw _ hsync.image (hsync.inUse hlocked.1.1 hlocked.1.2 hlocked.2) hlt).mono
      (fun r hr => ⟨trivial, hr⟩) (fun _ _ => trivial)
  obtain ⟨-, hsync2, hsame⟩ := (hsync.onEntry (f := fun inum ip s =>
    xv6fsWritei sb inum devsw ip (fun k => c.addr.getD (c.i + k) 0) f.off n1 s) hlocked
    hkept).of_ok hwrite
  have href2 : Referenced st2 f.ip := by
    refine ⟨href.1, ?_⟩
    rw [hsame.2.2.1]
    exact hlocked.1.2
  dsimp only at hok
  split at hok
  · obtain rfl := ok.inj hok
    exact ⟨hsync2, href2⟩
  · obtain rfl := ok.inj hok
    exact ⟨hsync2, href2⟩

lemma nextChunk_le (c : Write) : nextChunk c ≤ MAXWRITE := by
  unfold nextChunk
  split <;> omega

lemma filewrite_logs (hl : Layout sb) (esb : Ext2Super) (devsw : Nat → Devsw) (fuel : Nat) :
    ∀ (c : Write) (f : File) (st : Cache), Sync sb st → Referenced st f.ip →
    ∀ tx ∈ filewriteLogs sb esb devsw fuel c f st, Fits tx := by
  induction fuel with
  | zero =>
    intro c f st _ _ tx htx
    cases htx
  | succ fuel ih =>
    intro c f st h href tx htx
    rw [filewriteLogs] at htx
    split at htx
    · rcases mem_cons.mp htx with rfl | htx
      · exact turn_logs hl esb h href c (nextChunk_le c)
      obtain ⟨r, hturn, htx⟩ := mem_after.mp htx
      split at htx
      · cases htx
      · obtain ⟨hsync, href'⟩ := turn_sync hl esb devsw h href (nextChunk_le c) hturn
        exact ih _ _ _ hsync href' tx htx
    · cases htx

end Transactions

/-- **Main result.** On every consistent image, with any number of bitmap blocks, for every offset
    and every count of bytes: each transaction that `filewrite` issues logs at most `MAXOPBLOCKS`
    distinct blocks.  The first part is about one transaction in any state, as other processes may
    leave it between two chunks; the second about all transactions of a call. -/
theorem filewrite_fits {sb : Superblock} (hl : Layout sb) (esb : Ext2Super) (devsw : Nat → Devsw) :
    (∀ (st : Cache) (f : File) (c : Write), Sync sb st → Referenced st f.ip →
      (turnLogs sb esb c (nextChunk c) f st).toFinset.card ≤ MAXOPBLOCKS) ∧
    (∀ (fuel : Nat) (c : Write) (f : File) (st : Cache), Sync sb st → Referenced st f.ip →
      ∀ tx ∈ filewriteLogs sb esb devsw fuel c f st, tx.toFinset.card ≤ MAXOPBLOCKS) :=
  ⟨fun _ _ c h href => turn_logs hl esb h href c (nextChunk_le c),
    fun fuel c f st h href => filewrite_logs hl esb devsw fuel c f st h href⟩

/-- The two processes on the small image. -/
theorem filewrite_fits_two : Referenced twoWriters.cache twoWriters.file.ip ∧
    ∀ tx ∈ filewriteLogs smallDisk Ext2Layout.smallSuper (fun _ => ⟨none, none⟩) 2 ⟨[1, 2], 0⟩
      twoWriters.file twoWriters.cache, tx.toFinset.card ≤ MAXOPBLOCKS :=
  ⟨twoWriters_started.atEnd.ref,
    (filewrite_fits smallDisk_layout Ext2Layout.smallSuper (fun _ => ⟨none, none⟩)).2 2 ⟨[1, 2], 0⟩
      _ _ twoWriters_started.atEnd.sync twoWriters_started.atEnd.ref⟩

/-- A write of two bytes does not change the superblock. -/
theorem writei_unlogged_super : ∃ r, xv6fsWritei smallDisk 2 (fun _ => ⟨none, none⟩)
      (dinodeAt smallDisk smallImage 2) (fun _ => 7) 5 2 ⟨smallImage, fun _ => none⟩ = .ok r ∧
    r.1 = 2 ∧ r.2.2.view 1 = smallImage 1 := by
  refine (exists_ok_of_map (f := Prod.fst) (b := 2) ?_).imp
    fun r ⟨hr, hcount⟩ => ⟨hr, hcount, writei_unlogged smallDisk hr ?_⟩
  · decide +kernel
  · decide +kernel

end FilewriteLog
