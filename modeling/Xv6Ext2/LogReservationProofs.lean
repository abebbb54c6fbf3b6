import Mathlib.Algebra.BigOperators.Group.List.Lemmas
import Mathlib.Algebra.Order.BigOperators.Group.List
import Mathlib.Algebra.Order.Ring.Nat
import Mathlib.Algebra.Group.Action.Defs
import Xv6Ext2.LogProtocolProofs

/-! # Log space: what `begin_op` reserves and when `log_write` panics (log.c)

    `begin_op` admits an operation when `n + (outstanding + 1) * MAXOPBLOCKS` does not exceed
    `LOGSIZE`.  The on-disk log has `sb.nlog = LOGSIZE` blocks, but the first of them is the header:
    `log_write` panics as soon as `log.lh.n >= log.size - 1`, one block short of what was reserved,
    and it makes this test before it looks for the block in the header.

    * `log_write_panics_iff`: the exact condition, in terms of what the
      operations have logged since the last commit, and that operations of at
      most `MAXOPBLOCKS - 1` blocks never meet it;
    * `threeBigOps_panics`: three operations of `MAXOPBLOCKS` blocks do.

    The second part of the first result is the reservation invariant `Reserved`:
    what is logged plus what the running operations may still log fits. -/

namespace LogProtocol

open BufCache Param Runs

open Function (update update_apply update_of_ne update_self)

/-- The different blocks logged since the last commit. -/
def txBlocks (s : LogState) : List Nat :=
  ((s.hist.filter (fun w => w.epoch = s.epoch)).map Logged.block).dedup

/-- The different blocks that the running operation of process `p` has logged. -/
def opBlocks (s : LogState) (p : Nat) : List Nat :=
  ((s.hist.filter (fun w => w.op = s.opOf p)).map Logged.block).dedup

/-- A `log_write` keeps its operation within `k` different blocks. -/
def OpFits (k : Nat) (s : LogState) : Act → Prop
  | .logTest p b => (b :: opBlocks s p).dedup.length ≤ k
  | _ => True

instance (k : Nat) (s : LogState) : ∀ a, Decidable (OpFits k s a)
  | .logTest p b => inferInstanceAs (Decidable ((b :: opBlocks s p).dedup.length ≤ k))
  | .call _ => isTrue trivial
  | .beginOp _ => isTrue trivial
  | .logAppend _ => isTrue trivial
  | .endOp _ => isTrue trivial
  | .commitStep _ => isTrue trivial

variable {s : LogState} {b : Nat}

lemma mem_txBlocks : b ∈ txBlocks s ↔ ∃ o, ⟨s.epoch, o, b⟩ ∈ s.hist := by
  rw [txBlocks, List.mem_dedup, List.mem_map]
  constructor
  · rintro ⟨w, hw, rfl⟩
    obtain ⟨hmem, he⟩ := List.mem_filter.mp hw
    have he' : w.epoch = s.epoch := by simpa using he
    exact ⟨w.op, he' ▸ hmem⟩
  · rintro ⟨o, ho⟩
    exact ⟨_, List.mem_filter.mpr ⟨ho, by simp⟩, rfl⟩

variable {p : Nat}

lemma mem_opBlocks : b ∈ opBlocks s p ↔ ∃ e, ⟨e, s.opOf p, b⟩ ∈ s.hist := by
  rw [opBlocks, List.mem_dedup, List.mem_map]
  constructor
  · rintro ⟨w, hw, rfl⟩
    obtain ⟨hmem, he⟩ := List.mem_filter.mp hw
    have he' : w.op = s.opOf p := by simpa using he
    exact ⟨w.epoch, he' ▸ hmem⟩
  · rintro ⟨e, he⟩
    exact ⟨_, List.mem_filter.mpr ⟨he, by simp⟩, rfl⟩

/-- While no commit has emptied it, the header holds what was logged since the last commit. -/
lemma length_txBlocks (h : History s) (hc : ¬ Cleared s.pc) :
    (txBlocks s).length = s.lh.length := by
  have hnd : (txBlocks s).Nodup := List.nodup_dedup _
  refine List.Perm.length_eq ((List.perm_ext_iff_of_nodup hnd h.nodup).mpr ?_)
  intro b
  rw [mem_txBlocks, h.logged hc]

lemma logTest_panics_iff (h : Inv s) (hsize : s.size = LOGSIZE) (hp : s.pc p = .op) :
    step s (.logTest p b) = .error (.panic "too big a transaction") ↔
      LOGSIZE - 1 ≤ (txBlocks s).length := by
  have hnc := h.not_committing (p := p) (by rw [hp]; rfl)
  have hctl := h.control
  rw [hnc] at hctl
  rw [length_txBlocks h.history (not_cleared hctl), step, if_pos hp, logTest, hsize]
  have hle : LOGSIZE - 1 ≤ LOGSIZE := Nat.sub_le _ _
  constructor
  · intro hpanic
    by_contra hlt
    rw [if_neg (by omega)] at hpanic
    split at hpanic
    · simp at hpanic
    · cases hpanic
  · intro hfull
    rw [if_pos (Or.inr hfull)]

/-! ## The reservation -/

/-- What the operation of process `p` has left of its `MAXOPBLOCKS` blocks. -/
def reserve (s : LogState) (p : Nat) : Nat := MAXOPBLOCKS - (opBlocks s p).length

/-- Log space with operations of at most `MAXOPBLOCKS - 1` blocks; `l` are the
    processes inside an operation.  `alone` is what the last one of them has
    gained when the others ended without using up their reservation. -/
structure Reserved (s : LogState) (l : List Nat) : Prop where
  nodup   : l.Nodup
  mem     : ∀ p, p ∈ l ↔ (s.pc p).inOp = true
  count   : s.outstanding = l.length
  apart   : ∀ p ∈ l, ∀ q ∈ l, s.opOf p = s.opOf q → p = q
  few     : ∀ p ∈ l, (opBlocks s p).length < MAXOPBLOCKS
  pending : ∀ p b, s.pc p = .logging b → (b :: opBlocks s p).dedup.length < MAXOPBLOCKS
  space   : s.lh.length + (l.map (reserve s)).sum ≤ LOGSIZE
  alone   : ∀ p, l = [p] → s.lh.length + MAXOPBLOCKS < LOGSIZE + (opBlocks s p).length
  empty   : l = [] → s.committing = false → s.lh = []

variable {l : List Nat}

/-- With the reservation `log_write` finds room for one more block. -/
lemma Reserved.room (h : Reserved s l) (hp : p ∈ l) : s.lh.length < LOGSIZE - 1 := by
  have hone : ∀ q ∈ l, 1 ≤ reserve s q := by
    intro q hq
    have := h.few q hq
    unfold reserve
    omega
  have hsum : reserve s p + ((l.erase p).map (reserve s)).sum = (l.map (reserve s)).sum :=
    List.sum_map_erase _ hp
  have hspace := h.space
  have hsize : LOGSIZE = 30 := rfl
  have hmax : MAXOPBLOCKS = 10 := rfl
  cases hrest : l.erase p with
  | nil =>
    -- `p` is alone
    have hl : l = [p] := by
      have hlen := List.length_erase_of_mem hp
      rw [hrest] at hlen
      have : l.length = 1 := by
        have := List.length_pos_of_mem hp
        simp only [List.length_nil] at hlen
        omega
      obtain ⟨q, rfl⟩ := List.length_eq_one_iff.mp this
      rw [List.mem_singleton.mp hp]
    have h1 := h.alone p hl
    have h2 := h.few p hp
    omega
  | cons q rest =>
    have hq : q ∈ l := List.mem_of_mem_erase (hrest ▸ List.mem_cons_self)
    have h1 := hone p hp
    have h2 := hone q hq
    rw [hrest, List.map_cons, List.sum_cons] at hsum
    omega

lemma Reserved.move (h : Reserved s l) (pc : Nat → Pc) (hop : ∀ q, (pc q).inOp = (s.pc q).inOp)
    (hpend : ∀ q b, pc q = .logging b → (b :: opBlocks s q).dedup.length < MAXOPBLOCKS) :
    Reserved { s with pc := pc } l where
  nodup := h.nodup
  mem := fun q => by rw [h.mem q, ← hop q]
  count := h.count
  apart := h.apart
  few := h.few
  pending := hpend
  space := h.space
  alone := h.alone
  empty := h.empty

lemma Reserved.goto (h : Reserved s l) {d : Pc} (hop : d.inOp = (s.pc p).inOp)
    (hd : ∀ b, d = .logging b → (b :: opBlocks s p).dedup.length < MAXOPBLOCKS) :
    Reserved (s.goto p d) l := by
  have hpend := h.pending
  refine h.move (update s.pc p d) ?_ ?_ <;> simp only [update_apply] <;> grind

/-- `begin_op` reserves `MAXOPBLOCKS` for every operation, the new one included. -/
lemma Reserved.admitted (h : Reserved s l) (hist : History s) (hp : s.pc p = .beginning)
    (hc : s.committing = false) (hres : s.lh.length + (s.outstanding + 1) * MAXOPBLOCKS ≤ LOGSIZE) :
    Reserved { s.goto p .op with
      outstanding := s.outstanding + 1
      opOf := update s.opOf p s.nextOp
      nextOp := s.nextOp + 1 } (p :: l) := by
  have hpl : p ∉ l := by rw [h.mem, hp]; exact nofun
  obtain ⟨s', hs'⟩ : ∃ s', s' = { s.goto p .op with
      outstanding := s.outstanding + 1
      opOf := update s.opOf p s.nextOp
      nextOp := s.nextOp + 1 } := ⟨_, rfl⟩
  have hpc : s'.pc = update s.pc p .op := by rw [hs']; rfl
  have hopOf : s'.opOf = update s.opOf p s.nextOp := by rw [hs']
  have hhist : s'.hist = s.hist := by rw [hs']; rfl
  have hlh : s'.lh = s.lh := by rw [hs']; rfl
  have hold : ∀ q, q ≠ p → opBlocks s' q = opBlocks s q := by
    intro q hq
    rw [opBlocks, opBlocks, hhist, hopOf, update_of_ne hq]
  -- the new operation has logged nothing
  have hnew : opBlocks s' p = [] := by
    refine List.eq_nil_iff_forall_not_mem.mpr (fun b hb => ?_)
    obtain ⟨e, he⟩ := mem_opBlocks.mp hb
    rw [hhist, hopOf, update_self] at he
    exact Nat.lt_irrefl _ (hist.past _ he).2
  have hcur : ∀ q ∈ l, s.opOf q < s.nextOp := fun q hq => (hist.current q ((h.mem q).mp hq)).1
  have hmax : MAXOPBLOCKS = 10 := rfl
  have hempty := h.empty
  obtain ⟨hnodup, hmem, hcount, hapart, hfew, hpending, -, -, -⟩ := h
  rw [← hs']
  refine ⟨List.nodup_cons.mpr ⟨hpl, hnodup⟩, ?_, ?_, ?_, ?_, fun q b hb => ?_, ?_, ?_, nofun⟩
  · simp only [hpc, update_apply]
    grind [Pc.inOp]
  · rw [hs', List.length_cons, ← hcount]
  · simp only [hopOf, update_apply]
    grind
  · grind
  · have := hpending q b
    rw [hpc, update_apply] at hb
    grind
  · have hbound : ((p :: l).map (reserve s')).sum ≤ (p :: l).length * MAXOPBLOCKS := by
      have := List.sum_le_card_nsmul ((p :: l).map (reserve s')) MAXOPBLOCKS (by
        intro x hx
        obtain ⟨q, -, rfl⟩ := List.mem_map.mp hx
        exact Nat.sub_le _ _)
      rwa [List.length_map, smul_eq_mul] at this
    rw [List.length_cons, ← hcount] at hbound
    rw [hlh]
    omega
  · intro q hq
    -- the only one: nobody else was inside, so the header is empty
    rw [hlh, hempty (List.cons.inj hq).2 hc, hmax]
    show 0 + 10 < 30 + _
    omega

lemma sum_map_change {f g : Nat → Nat} (hnd : l.Nodup) (hp : p ∈ l)
    (h : ∀ q ∈ l, q ≠ p → g q = f q) : (l.map g).sum + f p = (l.map f).sum + g p := by
  have hrest : (l.erase p).map g = (l.erase p).map f := by
    refine List.map_congr_left (fun q hq => ?_)
    have hq' := (hnd.mem_erase_iff).mp hq
    exact h q hq'.2 hq'.1
  rw [← List.sum_map_erase g hp, ← List.sum_map_erase f hp, hrest]
  omega

lemma opBlocks_subset (h : Inv s)
    (hp : (s.pc p).inOp = true) (hb : b ∈ opBlocks s p) : b ∈ s.lh := by
  have hctl := h.control
  rw [h.not_committing hp] at hctl
  obtain ⟨e, he⟩ := mem_opBlocks.mp hb
  have hep : e = s.epoch := (h.history.current p hp).2 _ he rfl
  exact (h.history.logged (not_cleared hctl) b).mpr ⟨s.opOf p, hep ▸ he⟩

lemma opBlocks_append_self : opBlocks (logAppend s p b) p = if b ∈ opBlocks s p then opBlocks s p
      else b :: opBlocks s p := by
  have hlist : opBlocks (logAppend s p b) p
      = (b :: (s.hist.filter (fun w => w.op = s.opOf p)).map Logged.block).dedup := by
    rw [opBlocks]
    show ((List.filter (fun w => decide (w.op = s.opOf p))
      (⟨s.epoch, s.opOf p, b⟩ :: s.hist)).map Logged.block).dedup = _
    rw [List.filter_cons_of_pos (by simp), List.map_cons]
  rw [hlist]
  by_cases hb : b ∈ opBlocks s p
  · rw [if_pos hb, List.dedup_cons_of_mem (List.mem_dedup.mp hb)]; rfl
  · rw [if_neg hb, List.dedup_cons_of_notMem (fun h => hb (List.mem_dedup.mpr h))]; rfl

lemma opBlocks_append_of_ne {q : Nat} (h : s.opOf q ≠ s.opOf p) :
    opBlocks (logAppend s p b) q = opBlocks s q := by
  rw [opBlocks, opBlocks]
  show ((List.filter (fun w => decide (w.op = s.opOf q))
    (⟨s.epoch, s.opOf p, b⟩ :: s.hist)).map Logged.block).dedup = _
  rw [List.filter_cons_of_neg (by simpa using Ne.symm h)]

lemma Reserved.append (h : Reserved s l) (hinv : Inv s) (hp : s.pc p = .logging b) : Reserved
    (logAppend s p b) l := by
  have hin : (s.pc p).inOp = true := by rw [hp]; rfl
  have hpl : p ∈ l := (h.mem p).mpr hin
  have hmoved : Reserved (s.goto p .op) l := h.goto (by rw [hin]; rfl) nofun
  have hother : ∀ q ∈ l, q ≠ p → opBlocks (logAppend s p b) q = opBlocks s q :=
    fun q hq hqp => opBlocks_append_of_ne (fun he => hqp (h.apart q hq p hpl he))
  have hself := opBlocks_append_self (s := s) (p := p) (b := b)
  have hfew := h.few p hpl
  have hpend := h.pending p b hp
  -- the operation's own count goes up by at most one and stays in bounds
  have hfew' : (opBlocks (logAppend s p b) p).length < MAXOPBLOCKS := by
    rw [hself]
    split
    · exact hfew
    rename_i hb
    have hnd : (opBlocks s p).Nodup := List.nodup_dedup _
    rwa [(List.nodup_cons.mpr ⟨hb, hnd⟩).dedup] at hpend
  have hgrow : s.lh.length + (opBlocks (logAppend s p b) p).length
      ≥ (absorb b s.lh).length + (opBlocks s p).length := by
    rw [hself]
    by_cases hlh : b ∈ s.lh
    · rw [absorb_of_mem hlh]
      split
      · omega
      · rw [List.length_cons]; omega
    · rw [absorb_of_notMem hlh, if_neg (fun hb => hlh (opBlocks_subset hinv hin hb)),
        List.length_append, List.length_cons, List.length_singleton]
      omega
  have hsum := sum_map_change (f := reserve s) (g := reserve (logAppend s p b)) h.nodup hpl
    (fun q hq hqp => by rw [reserve, reserve, hother q hq hqp])
  have hlh : (logAppend s p b).lh = absorb b s.lh := rfl
  obtain ⟨hnodup, hmem, hcount, hapart, hall, hpending, hspace, halone, hempty⟩ := h
  refine ⟨hnodup, hmoved.mem, hcount, hapart, ?_, ?_, ?_, ?_, ?_⟩
  · grind
  · intro q c hq
    have hql : q ∈ l := (hmoved.mem q).mpr (by
      rw [show (s.goto p .op).pc q = .logging c from hq]; rfl)
    replace hq : update s.pc p .op q = .logging c := hq
    rw [update_apply] at hq
    have := hpending q c
    grind
  · rw [hlh]
    unfold reserve at hsum hspace ⊢
    omega
  · rw [hlh]
    grind
  · grind

/-- `end_op` gives back what its operation has not used; that is at least one block. -/
lemma Reserved.leave (h : Reserved s l) (hp : s.pc p = .op) (ho : s.outstanding - 1 ≠ 0) :
    Reserved { s with
      outstanding := s.outstanding - 1
      pc := update (wakeup s.pc) p .idle } (l.erase p) := by
  have hpl : p ∈ l := (h.mem p).mpr (by rw [hp]; rfl)
  have hmem : ∀ q, q ∈ l.erase p ↔ q ≠ p ∧ q ∈ l := fun q => h.nodup.mem_erase_iff
  have hsum : reserve s p + ((l.erase p).map (reserve s)).sum = (l.map (reserve s)).sum :=
    List.sum_map_erase _ hpl
  have hlen := List.length_erase_of_mem hpl
  obtain ⟨hnodup, hin, hcount, hapart, hfew, hpending, hspace, -, -⟩ := h
  refine ⟨hnodup.erase p, ?_, ?_, ?_, ?_, ?_, ?_, fun q hq => ?_, ?_⟩
  · simp only [wakeup, update_apply]
    grind [Pc.inOp]
  · dsimp only
    omega
  · exact fun q hq r hr => hapart q ((hmem q).mp hq).2 r ((hmem r).mp hr).2
  · exact fun q hq => hfew q ((hmem q).mp hq).2
  · intro q c hq
    refine hpending q c ?_
    simp only [wakeup, update_apply] at hq
    grind
  · show s.lh.length + ((l.erase p).map (reserve s)).sum ≤ LOGSIZE
    omega
  · show s.lh.length + MAXOPBLOCKS < LOGSIZE + (opBlocks s q).length
    rw [hq, List.map_singleton, List.sum_singleton] at hsum
    have := hfew p hpl
    have := hfew q ((hmem q).mp (hq ▸ List.mem_singleton_self q)).2
    have hrp : reserve s p = MAXOPBLOCKS - (opBlocks s p).length := rfl
    have hrq : reserve s q = MAXOPBLOCKS - (opBlocks s q).length := rfl
    omega
  · grind

lemma Reserved.of_nil (hpc : ∀ q, (s.pc q).inOp = false) (ho : s.outstanding = 0)
    (hlh : s.lh.length ≤ LOGSIZE) (hempty : s.committing = false → s.lh = []) : Reserved s [] where
  nodup := List.nodup_nil
  mem := fun q => by rw [hpc q]; simp
  count := ho
  apart := nofun
  few := nofun
  pending := fun q b hq => by
    have := hpc q
    rw [hq] at this
    exact nomatch this
  space := hlh
  alone := nofun
  empty := fun _ => hempty

lemma reserved_step {s' : LogState} {a : Act} (hinv : Inv s) (h : ∃ l, Reserved s l)
    (hfit : OpFits (MAXOPBLOCKS - 1) s a) (hs : step s a = .ok s') : ∃ l, Reserved s' l := by
  obtain ⟨l, hl⟩ := h
  have hinv' := inv_step s a s' hinv hs
  have hlh : s.lh.length ≤ LOGSIZE := Nat.le_trans (Nat.le_add_right _ _) hl.space
  -- once a commit runs, nobody is inside
  have hquiet : s'.committing = true → s'.lh.length ≤ LOGSIZE → ∃ l, Reserved s' l := by
    intro hc hle
    exact ⟨[], Reserved.of_nil (hinv'.notInOp hc) (hinv'.control.quiet hc) hle
      (fun hf => by rw [hc] at hf; exact nomatch hf)⟩
  cases trans_of_step hs with
  | call p hp => exact ⟨l, hl.goto (by rw [hp]; rfl) nofun⟩
  | sleep p hp => exact ⟨l, hl.goto (by rw [hp]; rfl) nofun⟩
  | admitted p hp hc hres => exact ⟨p :: l, hl.admitted hinv.history hp hc hres⟩
  | test p b hp =>
    refine ⟨l, hl.goto (by rw [hp]; rfl) ?_⟩
    intro c hc
    obtain rfl := Pc.logging.inj hc
    exact Nat.lt_of_le_of_lt hfit (by decide)
  | append p b hp => exact ⟨l, hl.append hinv hp⟩
  | leave p hp hc ho => exact ⟨l.erase p, hl.leave hp ho⟩
  | last p hp hc ho => exact hquiet rfl hlh
  | phase p ph hp =>
    have hc : s.committing = true := hinv.control.committer p ph hp
    cases ph with
    | clear => exact hquiet hc (Nat.zero_le _)
    | finish =>
      have hnil : s.lh = [] := hinv.history.cleared ((cleared_iff hinv.control hp).mpr rfl)
      refine ⟨[], Reserved.of_nil ?_ (hinv.control.quiet hc) hlh (fun _ => hnil)⟩
      intro q
      show (update (wakeup s.pc) p .idle q).inOp = false
      by_cases hq : q = p
      · subst hq; rw [update_self]; rfl
      have hctl := hinv.control
      rw [hc] at hctl
      rw [update_of_ne hq]
      exact hctl.woken.notInOp q
    | _ => exact hquiet hc hlh

lemma reserved_init (size : Nat) : Reserved (init size) [] :=
  Reserved.of_nil (fun _ => rfl) rfl (Nat.zero_le _) (fun _ => rfl)

/-! ## When `log_write` panics -/

/-- **The reservation is one block short.**  In every reachable state, a process that calls
    `log_write` reaches `panic("too big a transaction")` exactly when the operations since the last
    commit have already logged `LOGSIZE - 1` different blocks; operations of at most `MAXOPBLOCKS -
    1` different blocks each never get there. -/
theorem log_write_panics_iff (acts : List Act) (s : LogState)
    (h : exec step acts (init LOGSIZE) = .ok s) (p b : Nat) (hp : s.pc p = .op) :
    (step s (.logTest p b) = .error (.panic "too big a transaction") ↔
      LOGSIZE - 1 ≤ (txBlocks s).length) ∧
    (AllSteps step (OpFits (MAXOPBLOCKS - 1)) acts (init LOGSIZE) →
      step s (.logTest p b) ≠ .error (.panic "too big a transaction")) := by
  have hinv := inv_exec h
  have hsize : s.size = LOGSIZE := by
    refine exec_invariant_of_step (I := fun u => u.size = LOGSIZE) ?_ rfl h
    intro u a u' hu hs
    cases trans_of_step hs with
    | phase q ph hq => cases ph <;> exact hu
    | _ => exact hu
  refine ⟨logTest_panics_iff hinv hsize hp, ?_⟩
  intro hfit
  have hres : Inv s ∧ ∃ l, Reserved s l := by
    refine exec_invariant (I := fun u => Inv u ∧ ∃ l, Reserved u l) ?_ acts _ s
      ⟨inv_init _, [], reserved_init _⟩ hfit h
    intro u a u' hu hP hs
    exact ⟨inv_step u a u' hu.1 hs, reserved_step hu.1 hu.2 hP hs⟩
  obtain ⟨l, hl⟩ := hres.2
  have hroom := hl.room ((hl.mem p).mpr (by rw [hp]; rfl))
  rw [Ne, logTest_panics_iff hinv hsize hp]
  have hctl := hinv.control
  rw [hinv.not_committing (p := p) (by rw [hp]; rfl)] at hctl
  rw [length_txBlocks hinv.history (not_cleared hctl)]
  omega

def logAll (p : Nat) (bs : List Nat) : List Act :=
  bs.flatMap (fun b => [.logTest p b, .logAppend p])

/-- Three operations run at once, as `begin_op` allows with an empty log; two of
    them log `MAXOPBLOCKS` blocks and the third one block fewer. -/
def threeBigOps : List Act :=
  [.call 1, .beginOp 1, .call 2, .beginOp 2, .call 3, .beginOp 3]
    ++ logAll 1 [1, 2, 3, 4, 5, 6, 7, 8, 9, 10]
    ++ logAll 2 [11, 12, 13, 14, 15, 16, 17, 18, 19, 20]
    ++ logAll 3 [21, 22, 23, 24, 25, 26, 27, 28, 29]

set_option maxRecDepth 10000 in
/-- The third operation's tenth block panics. -/
theorem threeBigOps_panics :
    AllSteps step (OpFits MAXOPBLOCKS) (threeBigOps ++ [.logTest 3 30]) (init LOGSIZE) ∧
    exec step (threeBigOps ++ [.logTest 3 30]) (init LOGSIZE)
      = .error (.panic "too big a transaction") := by
  constructor
  · decide
  · rfl

set_option maxRecDepth 10000 in
/-- Without its last two `log_write`s the same run has room. -/
theorem log_write_panics_iff_threeBigOps :
    ∃ s, exec step (threeBigOps.take 62) (init LOGSIZE) = .ok s ∧ s.pc 3 = .op ∧
      (txBlocks s).length = 28 ∧
      step s (.logTest 3 29) ≠ .error (.panic "too big a transaction") := by
  refine ⟨_, rfl, rfl, by decide, ?_⟩
  rw [Ne, (log_write_panics_iff (threeBigOps.take 62) _ rfl 3 29 rfl).1]
  decide

end LogProtocol
