import Xv6Ext2.IdeProofs

/-! # The buffer cache (bio.c)

    `NBUF` buffers on a list, most recently used first.  `bget` looks for a block on the list
    and else recycles a buffer that is not in use; `bread` locks the buffer and reads the block
    if it is not valid; `bwrite` writes it through, `log_write` marks it dirty; `brelse` gives
    it back.  What runs under `bcache.lock` is one step, and so is each of the things that the
    holder of a buffer's lock does, `iderw` included.

    A thread is one use of a buffer, from `bread` to `brelse`: a process has as many of them as
    it uses buffers.  `released` is the contents of each block when it was last released, the
    contents of the disk at the start if it never was.

    - `bcache_coherent` : the cache and the disk together are one array of blocks. -/

namespace Bio

open ByteBlock BufCache Param Outcome Runs Ide

open Except (ok.inj)

open Option (some.inj)

open Function (update update_apply update_of_ne update_self)

def NBUF : Nat := MAXOPBLOCKS * 3

abbrev Key : Type := Nat × Nat

def key (x : Buf) : Key := (x.dev, x.blockno)

/-- Where a thread is: not using a buffer; after `bget`; with the lock, before the test of
    `B_VALID`; with the buffer that `bread` returned, changed since it was last marked or
    written or not; after `releasesleep` in `brelse`. -/
inductive Phase where
  | idle
  | waits (b : Nat) (k : Key)
  | locked (b : Nat) (k : Key)
  | holds (b : Nat) (k : Key) (changed : Bool)
  | releases (b : Nat)
  deriving DecidableEq

/-- A `bread` that returned: the block, the data in the buffer, and the contents of the block
    when it was last released. -/
structure Read where
  block    : Key
  data     : Block
  released : Block

/-- A buffer that `bget` recycled: `refcnt` and `B_DIRTY` at that moment. -/
structure Recycled where
  refcnt : Nat
  dirty  : Bool

structure State where
  buf      : Nat → Buf
  refcnt   : Nat → Nat
  lock     : Nat → Option Nat
  order    : List Nat
  disk     : Key → Block
  phase    : Nat → Phase
  released : Key → Block
  reads    : List Read
  recycled : List Recycled

inductive Act where
  | bget (t dev blockno : Nat)
  | acquiresleep (t : Nat)
  | bread (t : Nat)
  | change (t : Nat) (d : Block)
  | bwrite (t : Nat)
  | logWrite (t : Nat)
  | releasesleep (t : Nat)
  | brelse (t : Nat)

def State.setPhase (s : State) (t : Nat) (ph : Phase) : State :=
  { s with phase := update s.phase t ph }

def State.setBuf (s : State) (b : Nat) (x : Buf) : State :=
  { s with buf := update s.buf b x }

/-- The buffer on the list that caches the block. -/
def lookup (k : Key) (s : State) : Option Nat :=
  s.order.find? (fun b => decide (key (s.buf b) = k))

/-- The least recently used buffer that is not in use. -/
def victim (s : State) : Option Nat :=
  s.order.reverse.find? (fun b => decide (s.refcnt b = 0 ∧ (s.buf b).dirty = false))

def bget (t : Nat) (k : Key) (s : State) : Except Err State :=
  match lookup k s with
  | some b =>
    .ok { s.setPhase t (.waits b k) with refcnt := update s.refcnt b (s.refcnt b + 1) }
  | none =>
    match victim s with
    | some b =>
      .ok { (s.setPhase t (.waits b k)).setBuf b
          { s.buf b with dev := k.1, blockno := k.2, valid := false, dirty := false } with
        refcnt   := update s.refcnt b 1
        recycled := s.recycled ++ [⟨s.refcnt b, (s.buf b).dirty⟩] }
    | none => .error (.panic "bget: no buffers")

variable (disks : Disks)

/-- `iderw` of buffer `b`, from the test of the flags to the completion of the request; the
    disk answers without an error. -/
def iderw (b : Nat) (s : State) : Except Err State :=
  let x := s.buf b
  if x.done = true then .error (.panic "iderw: nothing to do")
  else if x.dev ≠ 0 ∧ disks.havedisk1 = false then .error (.panic "iderw: ide disk 1 not present")
  else if x.dev ≠ 0 ∧ disks.havedisk2 = false then .error (.panic "iderw: ide disk 2 not present")
  else if x.dev = ROOTDEV ∧ FSSIZE ≤ x.blockno then .error (.panic "incorrect xv6 blockno")
  else if x.dev = EXT2DEV ∧ EXT2FSSIZE ≤ x.blockno then .error (.panic "incorrect ext2 blockno")
  else .ok { s.setBuf b (finish (busOf x.dev) false (fun _ => s.disk (key x)) x) with
    disk := if x.dirty = true then update s.disk (key x) x.data else s.disk }

/-- `bread` reads the block if the buffer is not valid. -/
def readIn (b : Nat) (s : State) : Except Err State :=
  if (s.buf b).valid = false then iderw disks b s else .ok s

def returnBuf (t b : Nat) (k : Key) (s : State) : State :=
  { s.setPhase t (.holds b k false) with
    reads := s.reads ++ [⟨k, (s.buf b).data, s.released k⟩] }

def dropRef (t b : Nat) (s : State) : State :=
  { s.setPhase t .idle with
    refcnt := update s.refcnt b (s.refcnt b - 1)
    order  := if s.refcnt b - 1 = 0 then b :: s.order.erase b else s.order }

/-- One step.  An action for which its thread is not ready does nothing. -/
def step (s : State) : Act → Except Err State
  | .bget t dev blockno =>
    if s.phase t = .idle ∧ dev ≠ 0 then bget t (dev, blockno) s else .ok s
  | .acquiresleep t =>
    match s.phase t with
    | .waits b k =>
      if s.lock b = none then
        .ok { s.setPhase t (.locked b k) with lock := update s.lock b (some t) }
      else .ok s
    | _ => .ok s
  | .bread t =>
    match s.phase t with
    | .locked b k => do
        let s' ← readIn disks b s
        .ok (returnBuf t b k s')
    | _ => .ok s
  | .change t d =>
    match s.phase t with
    | .holds b k _ => .ok ((s.setBuf b { s.buf b with data := d }).setPhase t (.holds b k true))
    | _ => .ok s
  | .bwrite t =>
    match s.phase t with
    | .holds b k _ =>
      iderw disks b ((s.setBuf b { s.buf b with dirty := true }).setPhase t (.holds b k false))
    | _ => .ok s
  | .logWrite t =>
    match s.phase t with
    | .holds b k _ =>
      .ok ((s.setBuf b { s.buf b with dirty := true }).setPhase t (.holds b k false))
    | _ => .ok s
  | .releasesleep t =>
    match s.phase t with
    -- a buffer that was changed is marked or written before it is released
    | .holds b k changed =>
      if changed = false ∨ (s.buf b).dirty = true then
        .ok { s.setPhase t (.releases b) with
          lock     := update s.lock b none
          released := update s.released k (s.buf b).data }
      else .ok s
    | _ => .ok s
  | .brelse t =>
    match s.phase t with
    | .releases b => .ok (dropRef t b s)
    | _ => .ok s

/-- After `binit`; the buffers are zero. -/
def start (disk : Key → Block) : State where
  buf      := fun _ => ⟨false, false, 0, 0, fun _ => 0⟩
  refcnt   := fun _ => 0
  lock     := fun _ => none
  order    := (List.range NBUF).reverse
  disk     := disk
  phase    := fun _ => .idle
  released := disk
  reads    := []
  recycled := []

/-! ## The invariant -/

/-- The buffer that a thread counts as a use of. -/
def Phase.uses : Phase → Option Nat
  | .idle => none
  | .waits b _ => some b
  | .locked b _ => some b
  | .holds b _ _ => some b
  | .releases b => some b

/-- The buffer and the block that a thread asked for. -/
def Phase.asks : Phase → Option (Nat × Key)
  | .waits b k => some (b, k)
  | .locked b k => some (b, k)
  | .holds b k _ => some (b, k)
  | _ => none

def Phase.locks : Phase → Option Nat
  | .locked b _ => some b
  | .holds b _ _ => some b
  | _ => none

/-- The buffer that `bread` returned to a thread, and whether it was changed. -/
def Phase.held : Phase → Option (Nat × Bool)
  | .holds b _ changed => some (b, changed)
  | _ => none

/-- `refcnt` counts the threads that use a buffer. -/
structure Refs (refcnt : Nat → Nat) (order : List Nat) (phase : Nat → Phase) : Prop where
  order : ∀ b, b ∈ order ↔ b < NBUF
  users : ∀ b, ∃ L : List Nat, L.Nodup ∧ (∀ t, t ∈ L ↔ (phase t).uses = some b) ∧
    refcnt b = L.length
  bound : ∀ t b, (phase t).uses = some b → b < NBUF

/-- No two buffers cache one block, and threads have the buffer of the block they asked for. -/
structure Names (buf : Nat → Buf) (phase : Nat → Phase) : Prop where
  asks   : ∀ t b k, (phase t).asks = some (b, k) → key (buf b) = k ∧ k.1 ≠ 0
  unique : ∀ b b', b < NBUF → b' < NBUF → (buf b).dev ≠ 0 → key (buf b) = key (buf b') → b = b'

/-- What the buffers and the disk contain. -/
structure Contents (buf : Nat → Buf) (disk released : Key → Block) (phase : Nat → Phase) :
    Prop where
  valid    : ∀ t b c, (phase t).held = some (b, c) → (buf b).valid = true
  invalid  : ∀ b, (buf b).valid = false → (buf b).dirty = false
  data     : ∀ b < NBUF, (buf b).dev ≠ 0 → (buf b).valid = true →
    (∀ t c, (phase t).held ≠ some (b, c)) → (buf b).data = released (key (buf b))
  clean    : ∀ b < NBUF, (buf b).dev ≠ 0 → (buf b).valid = true → (buf b).dirty = false →
    (∀ t, (phase t).held ≠ some (b, true)) → disk (key (buf b)) = (buf b).data
  unread   : ∀ b < NBUF, (buf b).dev ≠ 0 → (buf b).valid = false →
    disk (key (buf b)) = released (key (buf b))
  uncached : ∀ k : Key, k.1 ≠ 0 → (∀ b < NBUF, key (buf b) ≠ k) → disk k = released k

structure Inv (s : State) : Prop where
  refs     : Refs s.refcnt s.order s.phase
  locks    : ∀ t b, (s.phase t).locks = some b → s.lock b = some t
  names    : Names s.buf s.phase
  contents : Contents s.buf s.disk s.released s.phase
  reads    : ∀ r ∈ s.reads, r.data = r.released
  recycled : ∀ r ∈ s.recycled, r.refcnt = 0 ∧ r.dirty = false

lemma Inv.start (disk : Key → Block) : Inv (start disk) := by
  refine ⟨⟨fun b => ?_, fun b => ⟨[], List.nodup_nil, fun t => ?_, rfl⟩, fun t b h => (nomatch h)⟩,
    fun t b h => (nomatch h), ⟨fun t b k h => (nomatch h), fun b b' _ _ h => absurd rfl h⟩,
    ⟨fun t b c h => (nomatch h), fun b _ => rfl, fun b _ h => absurd rfl h,
      fun b _ h => absurd rfl h, fun b _ h => absurd rfl h, fun k _ _ => rfl⟩,
    fun r hr => absurd hr List.not_mem_nil, fun r hr => absurd hr List.not_mem_nil⟩
  · show b ∈ (List.range NBUF).reverse ↔ b < NBUF
    rw [List.mem_reverse, List.mem_range]
  · exact ⟨fun h => absurd h List.not_mem_nil, fun h => (nomatch h)⟩

variable {disks : Disks} {s s' : State} {t b : Nat} {k : Key} {w : Phase}

/-! ## References -/

section Refs

variable {refcnt : Nat → Nat} {order : List Nat} {phase : Nat → Phase}

/-- A thread that goes on with the same buffer. -/
lemma Refs.same (h : Refs refcnt order phase) (hu : w.uses = (phase t).uses) :
    Refs refcnt order (update phase t w) := by
  have huses : ∀ r, (update phase t w r).uses = (phase r).uses := by
    simp only [update_apply]
    grind
  refine ⟨h.order, fun b => ?_, fun r b hr => h.bound r b (huses r ▸ hr)⟩
  obtain ⟨L, hnodup, hmem, hlen⟩ := h.users b
  exact ⟨L, hnodup, fun r => (hmem r).trans (by rw [huses r]), hlen⟩

lemma Refs.add (h : Refs refcnt order phase) (hidle : (phase t).uses = none) (hb : b < NBUF)
    (hu : w.uses = some b) : Refs (update refcnt b (refcnt b + 1)) order (update phase t w) := by
  refine ⟨h.order, fun c => ?_, fun r c hr => ?_⟩
  · obtain ⟨L, hnodup, hmem, hlen⟩ := h.users c
    by_cases hc : c = b
    · subst hc
      have ht : t ∉ L := by
        rw [hmem, hidle]
        exact nofun
      refine ⟨t :: L, List.nodup_cons.mpr ⟨ht, hnodup⟩, fun r => ?_, ?_⟩
      · rw [List.mem_cons]
        by_cases hr : r = t
        · rw [hr, update_self]
          exact ⟨fun _ => hu, fun _ => .inl rfl⟩
        · rw [update_of_ne hr, ← hmem]
          exact ⟨fun h => h.resolve_left hr, .inr⟩
      · rw [update_self, hlen, List.length_cons]
    · refine ⟨L, hnodup, fun r => ?_, by rw [update_of_ne hc, hlen]⟩
      by_cases hr : r = t
      · rw [hr, update_self, hmem, hidle, hu]
        exact ⟨fun e => (nomatch e), fun e => absurd (some.inj e).symm hc⟩
      · rw [update_of_ne hr]
        exact hmem r
  · by_cases hr' : r = t
    · rw [hr', update_self, hu] at hr
      exact some.inj hr ▸ hb
    · rw [update_of_ne hr'] at hr
      exact h.bound r c hr

lemma Refs.unused (h : Refs refcnt order phase) (hb : refcnt b = 0) (r : Nat) :
    (phase r).uses ≠ some b := by
  obtain ⟨L, -, hmem, hlen⟩ := h.users b
  intro hr
  have := List.length_pos_of_mem ((hmem r).mpr hr)
  omega

lemma Refs.drop (h : Refs refcnt order phase) (hu : (phase t).uses = some b)
    (hidle : w.uses = none) {order' : List Nat} (horder : ∀ c, c ∈ order' ↔ c < NBUF) :
    Refs (update refcnt b (refcnt b - 1)) order' (update phase t w) := by
  refine ⟨horder, fun c => ?_, fun r c hr => ?_⟩
  · obtain ⟨L, hnodup, hmem, hlen⟩ := h.users c
    by_cases hc : c = b
    · subst hc
      have ht : t ∈ L := (hmem t).mpr hu
      refine ⟨L.erase t, hnodup.erase t, fun r => ?_, ?_⟩
      · rw [hnodup.mem_erase_iff]
        by_cases hr : r = t
        · rw [hr, update_self, hidle]
          exact ⟨fun h => absurd rfl h.1, fun e => (nomatch e)⟩
        · rw [update_of_ne hr, ← hmem]
          exact ⟨And.right, fun h => ⟨hr, h⟩⟩
      · rw [update_self, hlen, List.length_erase_of_mem ht]
    · refine ⟨L, hnodup, fun r => ?_, by rw [update_of_ne hc, hlen]⟩
      by_cases hr : r = t
      · rw [hr, update_self, hmem, hidle, hu]
        exact ⟨fun e => absurd (some.inj e).symm hc, fun e => (nomatch e)⟩
      · rw [update_of_ne hr]
        exact hmem r
  · by_cases hr' : r = t
    · rw [hr', update_self, hidle] at hr
      exact nomatch hr
    · rw [update_of_ne hr'] at hr
      exact h.bound r c hr

end Refs

/-! ## Names and locks -/

lemma Phase.asks_of_held {c : Bool} (h : w.held = some (b, c)) : ∃ k, w = .holds b k c := by
  cases w with
  | holds b' k c' =>
    obtain ⟨rfl, rfl⟩ := Prod.mk.inj (some.inj h)
    exact ⟨k, rfl⟩
  | _ => exact nomatch h

lemma Inv.lock_of_held (h : Inv s) {c : Bool} (hr : (s.phase t).held = some (b, c)) :
    s.lock b = some t := by
  obtain ⟨k, hk⟩ := Phase.asks_of_held hr
  exact h.locks t b (by rw [hk]; rfl)

lemma Phase.uses_of_asks (h : w.asks = some (b, k)) : w.uses = some b := by
  cases w with
  | idle => exact nomatch h
  | waits b' k' => exact congrArg some (Prod.mk.inj (some.inj h)).1
  | locked b' k' => exact congrArg some (Prod.mk.inj (some.inj h)).1
  | holds b' k' c => exact congrArg some (Prod.mk.inj (some.inj h)).1
  | releases b' => exact nomatch h

lemma Inv.bound (h : Inv s) (ht : (s.phase t).asks = some (b, k)) : b < NBUF :=
  h.refs.bound t b (Phase.uses_of_asks ht)

section Names

variable {buf : Nat → Buf} {phase : Nat → Phase}

lemma Names.move (h : Names buf phase)
    (hask : ∀ b k, w.asks = some (b, k) → key (buf b) = k ∧ k.1 ≠ 0) :
    Names buf (update phase t w) := by
  obtain ⟨hasks, hunique⟩ := h
  refine ⟨?_, hunique⟩
  simp only [update_apply]
  grind

lemma Names.setBuf (h : Names buf phase) {x : Buf} (hx : key x = key (buf b)) :
    Names (update buf b x) phase := by
  obtain ⟨hasks, hunique⟩ := h
  constructor <;> simp only [update_apply] <;> grind [key]

lemma Names.recycle (h : Names buf phase) {x : Buf} (hfree : ∀ r k, (phase r).asks ≠ some (b, k))
    (hnew : ∀ c < NBUF, key (buf c) ≠ key x) : Names (update buf b x) phase := by
  obtain ⟨hasks, hunique⟩ := h
  constructor <;> simp only [update_apply] <;> grind

end Names

lemma locks_move {lock lock' : Nat → Option Nat} {phase : Nat → Phase}
    (h : ∀ t b, (phase t).locks = some b → lock b = some t)
    (hself : ∀ b, w.locks = some b → lock' b = some t)
    (hkeep : ∀ r b, r ≠ t → lock b = some r → lock' b = some r) :
    ∀ r b, (update phase t w r).locks = some b → lock' b = some r := by
  simp only [update_apply]
  grind

/-! ## Contents -/

section Contents

variable {buf : Nat → Buf} {disk released : Key → Block} {phase : Nat → Phase}

/-- A thread moves on and is handed no buffer by it, and gives none back. -/
lemma Contents.move (h : Contents buf disk released phase) (hph : w.held = (phase t).held) :
    Contents buf disk released (update phase t w) := by
  have hheld : ∀ r, (update phase t w r).held = (phase r).held := by
    simp only [update_apply]
    grind
  refine ⟨fun r b c hr => h.valid r b c (hheld r ▸ hr), h.invalid,
    fun b hb hdev hv hno => h.data b hb hdev hv (fun r c => hheld r ▸ hno r c),
    fun b hb hdev hv hd hno => h.clean b hb hdev hv hd (fun r => hheld r ▸ hno r),
    h.unread, h.uncached⟩

/-- The holder of buffer `b` changes it, or writes it to the disk: what has to be checked about
    this buffer. -/
lemma Contents.hold (h : Contents buf disk released phase) (hn : Names buf phase) {x : Buf}
    {disk' : Key → Block} {c : Bool} (hb : b < NBUF) (hdev : (buf b).dev ≠ 0)
    (hkey : key x = key (buf b)) (hvalid : x.valid = true) (hph : w.held = some (b, c))
    (hold : ∀ b' c', (phase t).held = some (b', c') → b' = b)
    (hdisk : ∀ k, k ≠ key (buf b) → disk' k = disk k)
    (hclean : x.dirty = false → c = false → disk' (key x) = x.data) :
    Contents (update buf b x) disk' released (update phase t w) := by
  -- other buffers have other blocks, and the same holders as before
  have hkne : ∀ b' < NBUF, b' ≠ b → key (buf b') ≠ key (buf b) :=
    fun b' hb' hne e => hne (hn.unique b b' hb hb' hdev e.symm).symm
  have hheld : ∀ r b' c', b' ≠ b →
      ((update phase t w r).held = some (b', c') ↔ (phase r).held = some (b', c')) := by
    simp only [update_apply]
    grind
  have hself : (update phase t w t).held = some (b, c) := by rw [update_self, hph]
  obtain ⟨hvalids, hinvalid, hdata, hcleans, hunread, huncached⟩ := h
  generalize update phase t w = phase' at hheld hself
  refine ⟨?_, ?_, fun b' hb' hd hv hno => ?_, fun b' hb' hd hv hdirty hno => ?_, ?_, ?_⟩ <;>
    simp only [update_apply] at *
  · grind
  · grind
  · have hne : b' ≠ b := by
      rintro rfl
      exact hno t c hself
    rw [if_neg hne] at hd hv ⊢
    exact hdata b' hb' hd hv (fun r c' e => hno r c' ((hheld r b' c' hne).mpr e))
  · by_cases hne : b' = b
    · grind
    · rw [if_neg hne] at hd hv hdirty ⊢
      rw [hdisk _ (hkne b' hb' hne)]
      exact hcleans b' hb' hd hv hdirty (fun r e => hno r ((hheld r b' true hne).mpr e))
  · grind
  · grind

lemma Contents.release (h : Contents buf disk released phase) (hn : Names buf phase) {c : Bool}
    (hb : b < NBUF) (hdev : (buf b).dev ≠ 0) (ht : (phase t).held = some (b, c))
    (hph : w.held = none) (hc : c = false ∨ (buf b).dirty = true) :
    Contents buf disk (update released (key (buf b)) (buf b).data) (update phase t w) := by
  have hkne : ∀ b' < NBUF, b' ≠ b → key (buf b') ≠ key (buf b) :=
    fun b' hb' hne e => hne (hn.unique b b' hb hb' hdev e.symm).symm
  have hheld : ∀ r x, (update phase t w r).held = some x ↔ r ≠ t ∧ (phase r).held = some x := by
    simp only [update_apply]
    grind
  obtain ⟨hvalid, hinvalid, hdata, hclean, hunread, huncached⟩ := h
  generalize update phase t w = phase' at hheld
  refine ⟨fun r b' c' hr => hvalid r b' c' ((hheld r _).mp hr).2, hinvalid,
    fun b' hb' hd hv hno => ?_, fun b' hb' hd hv hdirty hno => hclean b' hb' hd hv hdirty ?_, ?_, ?_⟩
  · by_cases hne : b' = b
    · rw [hne, update_self]
    · rw [update_of_ne (hkne b' hb' hne)]
      exact hdata b' hb' hd hv (fun r c' e => hno r c' ((hheld r _).mpr ⟨by grind, e⟩))
  · intro r e
    by_cases hrt : r = t
    · grind
    · exact hno r ((hheld r _).mpr ⟨hrt, e⟩)
  · simp only [update_apply]
    grind
  · simp only [update_apply]
    grind

/-- `bget` recycles buffer `b`, which nobody holds, for a block that is not cached. -/
lemma Contents.recycle (h : Contents buf disk released phase) {x : Buf} (hb : b < NBUF)
    (hfree : ∀ r c, (phase r).held ≠ some (b, c)) (hdirty : (buf b).dirty = false)
    (hnew : ∀ c < NBUF, key (buf c) ≠ key x) (hv : x.valid = false) (hd : x.dirty = false) :
    Contents (update buf b x) disk released phase := by
  -- the block that was cached before is on the disk
  have hold : (buf b).dev ≠ 0 → disk (key (buf b)) = released (key (buf b)) := by
    intro hdev
    cases hvb : (buf b).valid with
    | true =>
      rw [h.clean b hb hdev hvb hdirty (fun r => hfree r true)]
      exact h.data b hb hdev hvb hfree
    | false => exact h.unread b hb hdev hvb
  obtain ⟨hvalid, hinvalid, hdata, hclean, hunread, huncached⟩ := h
  constructor <;> simp only [update_apply] <;> grind [key]

end Contents

/-! ## Steps -/

lemma iderw_ok (h : iderw disks b s = .ok s') :
    s' = { s.setBuf b (finish (busOf (s.buf b).dev) false (fun _ => s.disk (key (s.buf b)))
        (s.buf b)) with
      disk := if (s.buf b).dirty = true then
        update s.disk (key (s.buf b)) (s.buf b).data else s.disk } := by
  rw [iderw] at h
  dsimp only at h
  split at h
  · exact nomatch h
  split at h
  · exact nomatch h
  split at h
  · exact nomatch h
  split at h
  · exact nomatch h
  split at h
  · exact nomatch h
  · exact (ok.inj h).symm

lemma Inv.hit (h : Inv s) (hidle : s.phase t = .idle) (hk : k.1 ≠ 0) (hb : b < NBUF)
    (hkey : key (s.buf b) = k) :
    Inv { s.setPhase t (.waits b k) with refcnt := update s.refcnt b (s.refcnt b + 1) } := by
  refine ⟨h.refs.add (by rw [hidle]; rfl) hb rfl,
    locks_move h.locks (fun b hb => (nomatch hb)) (fun _ _ _ hb => hb),
    h.names.move (fun b' k' hask => ?_), h.contents.move (by rw [hidle]; rfl), h.reads, h.recycled⟩
  obtain ⟨rfl, rfl⟩ := Prod.mk.inj (some.inj hask)
  exact ⟨hkey, hk⟩

lemma Inv.miss (h : Inv s) (hidle : s.phase t = .idle) (hk : k.1 ≠ 0)
    (hnone : lookup k s = none) (hvictim : victim s = some b) :
    Inv { (s.setPhase t (.waits b k)).setBuf b
        { s.buf b with dev := k.1, blockno := k.2, valid := false, dirty := false } with
      refcnt   := update s.refcnt b 1
      recycled := s.recycled ++ [⟨s.refcnt b, (s.buf b).dirty⟩] } := by
  have hmem : b ∈ s.order := List.mem_reverse.mp (List.mem_of_find?_eq_some hvictim)
  have hb : b < NBUF := (h.refs.order b).mp hmem
  have hsome : decide (s.refcnt b = 0 ∧ (s.buf b).dirty = false) = true :=
    List.find?_some (p := fun b => decide (s.refcnt b = 0 ∧ (s.buf b).dirty = false)) hvictim
  obtain ⟨hzero, hdirty⟩ := of_decide_eq_true hsome
  -- the list has every buffer, so none of them has the block
  have hnew : ∀ c < NBUF, key (s.buf c) ≠ k := by
    intro c hc e
    have := List.find?_eq_none.mp hnone c ((h.refs.order c).mpr hc)
    exact this (decide_eq_true e)
  have hasks : ∀ r k', (s.phase r).asks ≠ some (b, k') :=
    fun r k' e => h.refs.unused hzero r (Phase.uses_of_asks e)
  have hheld : ∀ r c, (s.phase r).held ≠ some (b, c) := by
    intro r c e
    obtain ⟨k', hk'⟩ := Phase.asks_of_held e
    exact hasks r k' (by rw [hk']; rfl)
  have hrefs := h.refs.add (t := t) (b := b) (w := .waits b k) (by rw [hidle]; rfl) hb rfl
  rw [hzero] at hrefs
  refine ⟨hrefs, locks_move h.locks (fun b hb => (nomatch hb)) (fun _ _ _ hb => hb), ?_, ?_, h.reads,
    fun r hr => ?_⟩
  · refine (h.names.recycle (x := { s.buf b with
      dev := k.1, blockno := k.2, valid := false, dirty := false }) hasks hnew).move
      (fun b' k' hask => ?_)
    obtain ⟨rfl, rfl⟩ := Prod.mk.inj (some.inj hask)
    rw [update_self]
    exact ⟨rfl, hk⟩
  · exact (h.contents.recycle (x := { s.buf b with
      dev := k.1, blockno := k.2, valid := false, dirty := false }) hb hheld hdirty hnew rfl rfl).move
      (by rw [hidle]; rfl)
  · rcases List.mem_append.mp hr with hr | hr
    · exact h.recycled r hr
    · rw [List.mem_singleton.mp hr]
      exact ⟨hzero, hdirty⟩

lemma Inv.bget (h : Inv s) (hidle : s.phase t = .idle) (hk : k.1 ≠ 0)
    (hr : bget t k s = .ok s') : Inv s' := by
  rw [Bio.bget] at hr
  cases hlookup : lookup k s with
  | some b =>
    rw [hlookup] at hr
    rw [← ok.inj hr]
    have hb := (h.refs.order b).mp (List.mem_of_find?_eq_some hlookup)
    have hsome : decide (key (s.buf b) = k) = true :=
      List.find?_some (p := fun b => decide (key (s.buf b) = k)) hlookup
    exact h.hit hidle hk hb (of_decide_eq_true hsome)
  | none =>
    rw [hlookup] at hr
    cases hvictim : victim s with
    | some b =>
      rw [hvictim] at hr
      rw [← ok.inj hr]
      exact h.miss hidle hk hlookup hvictim
    | none =>
      rw [hvictim] at hr
      exact nomatch hr

lemma Inv.sole (h : Inv s) (ht : (s.phase t).locks = some b) (r : Nat) (c : Bool) (hr : r ≠ t) :
    (s.phase r).held ≠ some (b, c) := by
  intro e
  have := h.lock_of_held e
  rw [h.locks t b ht] at this
  exact hr (some.inj this).symm

/-- The holder of a buffer changes the buffer or the disk. -/
lemma Inv.hold (h : Inv s) (ht : (s.phase t).asks = some (b, k))
    (hlock : (s.phase t).locks = some b)
    {x : Buf} {disk' : Key → Block} {c : Bool} (hkey : key x = key (s.buf b))
    (hvalid : x.valid = true) (hold : ∀ b' c', (s.phase t).held = some (b', c') → b' = b)
    (hdisk : ∀ k, k ≠ key (s.buf b) → disk' k = s.disk k)
    (hclean : x.dirty = false → c = false → disk' (key x) = x.data)
    (huses : (s.phase t).uses = some b) {reads' : List Read}
    (hreads : ∀ r ∈ reads', r.data = r.released) :
    Inv { (s.setBuf b x).setPhase t (.holds b k c) with disk := disk', reads := reads' } := by
  obtain ⟨hk, hdev⟩ := h.names.asks t b k ht
  have hdev' : (s.buf b).dev ≠ 0 := fun e => hdev (hk ▸ e)
  refine ⟨h.refs.same huses.symm, locks_move h.locks (fun b' hb' => ?_) (fun _ _ _ hb => hb),
    (h.names.setBuf hkey).move (fun b' k' hask => ?_),
    h.contents.hold h.names (h.bound ht) hdev' hkey hvalid rfl hold hdisk hclean, hreads, h.recycled⟩
  · obtain rfl := some.inj hb'
    exact h.locks t b hlock
  · obtain ⟨rfl, rfl⟩ := Prod.mk.inj (some.inj hask)
    rw [update_self, hkey]
    exact ⟨hk, hdev⟩

lemma Inv.bread (h : Inv s) (ht : s.phase t = .locked b k)
    (hr : readIn disks b s = .ok s') : Inv (returnBuf t b k s') := by
  have hasks : (s.phase t).asks = some (b, k) := by rw [ht]; rfl
  have hlock : (s.phase t).locks = some b := by rw [ht]; rfl
  have huses : (s.phase t).uses = some b := by rw [ht]; rfl
  have hb := h.bound hasks
  obtain ⟨hk, hdev⟩ := h.names.asks t b k hasks
  have hdev' : (s.buf b).dev ≠ 0 := fun e => hdev (hk ▸ e)
  -- nobody has been handed the buffer
  have hnone : ∀ r c, (s.phase r).held ≠ some (b, c) := by
    intro r c
    by_cases hrt : r = t
    · rw [hrt, ht]
      exact nofun
    · exact h.sole hlock r c hrt
  have hnoold : ∀ b' c', (s.phase t).held = some (b', c') → b' = b := by
    rw [ht]
    exact fun b' c' e => (nomatch e)
  cases hv : (s.buf b).valid with
  | true =>
    rw [readIn, if_neg (by rw [hv]; exact fun e => (nomatch e))] at hr
    rw [← ok.inj hr]
    have hreads : ∀ r ∈ s.reads ++ [⟨k, (s.buf b).data, s.released k⟩], r.data = r.released := by
      intro r hr
      rcases List.mem_append.mp hr with hr | hr
      · exact h.reads r hr
      · rw [List.mem_singleton.mp hr, ← hk]
        exact h.contents.data b hb hdev' hv hnone
    have hkeep := h.hold (c := false) (x := s.buf b) hasks hlock rfl hv hnoold (fun _ _ => rfl)
      (fun hd _ => h.contents.clean b hb hdev' hv hd (fun r => hnone r true)) huses hreads
    rwa [State.setBuf, Function.update_eq_self] at hkeep
  | false =>
    rw [readIn, if_pos hv] at hr
    have hdirty := h.contents.invalid b hv
    rw [iderw_ok hr]
    have hfill : finish (busOf (s.buf b).dev) false (fun _ => s.disk (key (s.buf b))) (s.buf b) =
        { s.buf b with valid := true, dirty := false, data := s.disk (key (s.buf b)) } := by
      rw [finish, if_pos ⟨hdirty, rfl⟩]
    rw [hfill, if_neg (by rw [hdirty]; exact fun e => (nomatch e))]
    refine h.hold (c := false) (x := { s.buf b with
        valid := true, dirty := false, data := s.disk (key (s.buf b)) }) hasks hlock rfl rfl hnoold
      (fun _ _ => rfl) (fun _ _ => rfl) huses (fun r hr => ?_)
    rcases List.mem_append.mp hr with hr | hr
    · exact h.reads r hr
    rw [List.mem_singleton.mp hr]
    show (update s.buf b _ b).data = s.released k
    rw [update_self, ← hk]
    exact h.contents.unread b hb hdev' hv

lemma Inv.acquiresleep (h : Inv s) (ht : s.phase t = .waits b k) (hfree : s.lock b = none) :
    Inv { s.setPhase t (.locked b k) with lock := update s.lock b (some t) } := by
  refine ⟨h.refs.same (by rw [ht]; rfl), locks_move h.locks ?_ ?_, h.names.move (fun b' k' hask => ?_),
    h.contents.move (by rw [ht]; rfl), h.reads, h.recycled⟩
  · simp only [update_apply]
    grind [Phase.locks]
  · simp only [update_apply]
    grind
  · exact h.names.asks t b' k' (by rw [ht]; exact hask)

/-- What the holder of a buffer does with it before it releases it. -/
lemma Inv.mark (h : Inv s) {c d : Bool} (ht : s.phase t = .holds b k c) {x : Buf}
    {disk' : Key → Block} (hkey : key x = key (s.buf b)) (hvalid : x.valid = (s.buf b).valid)
    (hdisk : ∀ k, k ≠ key (s.buf b) → disk' k = s.disk k)
    (hclean : x.dirty = false → d = false → disk' (key x) = x.data) :
    Inv { (s.setBuf b x).setPhase t (.holds b k d) with disk := disk' } := by
  have hheld : (s.phase t).held = some (b, c) := by rw [ht]; rfl
  refine h.hold (by rw [ht]; rfl) (by rw [ht]; rfl) hkey ?_ (fun b' c' e => ?_) hdisk hclean
    (by rw [ht]; rfl) h.reads
  · rw [hvalid, h.contents.valid t b c hheld]
  · rw [hheld] at e
    exact (Prod.mk.inj (some.inj e)).1.symm

lemma Inv.bwrite (h : Inv s) {c : Bool} (ht : s.phase t = .holds b k c)
    (hr : iderw disks b ((s.setBuf b { s.buf b with dirty := true }).setPhase t (.holds b k false))
      = .ok s') : Inv s' := by
  have hx : ((s.setBuf b { s.buf b with dirty := true }).setPhase t (.holds b k false)).buf b =
      { s.buf b with dirty := true } := update_self _ _ _
  rw [iderw_ok hr, hx, if_pos rfl]
  have hvalid := h.contents.valid t b c (by rw [ht]; rfl)
  have hkeep := h.mark (d := false) ht
    (x := finish (busOf (s.buf b).dev) false (fun _ => s.disk (key (s.buf b)))
      { s.buf b with dirty := true }) rfl hvalid.symm
    (fun k' hk' => update_of_ne hk' (s.buf b).data s.disk) (fun _ _ => update_self _ _ _)
  rw [State.setBuf] at hkeep ⊢
  rwa [State.setBuf, State.setPhase, Function.update_idem]

lemma Inv.releasesleep (h : Inv s) {c : Bool} (ht : s.phase t = .holds b k c)
    (hc : c = false ∨ (s.buf b).dirty = true) :
    Inv { s.setPhase t (.releases b) with
      lock     := update s.lock b none
      released := update s.released k (s.buf b).data } := by
  have hlock : (s.phase t).locks = some b := by rw [ht]; rfl
  have hasks : (s.phase t).asks = some (b, k) := by rw [ht]; rfl
  obtain ⟨hk, hdev⟩ := h.names.asks t b k hasks
  have hcont := h.contents.release (w := .releases b) h.names (h.bound hasks)
    (fun e => hdev (hk ▸ e)) (by rw [ht]; rfl) rfl hc
  rw [hk] at hcont
  refine ⟨h.refs.same (by rw [ht]; rfl), locks_move h.locks (fun b' hb' => (nomatch hb')) ?_,
    h.names.move (fun b' k' hask => (nomatch hask)), hcont, h.reads, h.recycled⟩
  have hmine := h.locks t b hlock
  simp only [update_apply]
  grind

lemma Inv.brelse (h : Inv s) (ht : s.phase t = .releases b) : Inv (dropRef t b s) := by
  have huses : (s.phase t).uses = some b := by rw [ht]; rfl
  refine ⟨h.refs.drop huses rfl (fun c => ?_), locks_move h.locks (fun b' hb' => (nomatch hb'))
    (fun _ _ _ hb' => hb'), h.names.move (fun b' k' hask => (nomatch hask)),
    h.contents.move (by rw [ht]; rfl), h.reads, h.recycled⟩
  have horder := h.refs.order
  have hbound := h.refs.bound t b huses
  -- the buffer is moved to the front of the list
  rw [dropRef]
  dsimp only
  split
  · by_cases hcb : c = b
    · grind
    · rw [List.mem_cons, List.mem_erase_of_ne hcb]
      grind
  · exact horder c

lemma Inv.step {a : Act} (h : Inv s) (hr : step disks s a = .ok s') : Inv s' := by
  cases a with
  | bget t dev blockno =>
    rw [Bio.step] at hr
    split at hr
    · next hc => exact h.bget hc.1 hc.2 hr
    · rwa [← ok.inj hr]
  | acquiresleep t =>
    rw [Bio.step] at hr
    split at hr
    · next ht =>
      split at hr
      · next hfree => exact ok.inj hr ▸ h.acquiresleep ht hfree
      · rwa [← ok.inj hr]
    · rwa [← ok.inj hr]
  | bread t =>
    rw [Bio.step] at hr
    split at hr
    · next ht =>
      obtain ⟨s₁, h₁, h₂⟩ := bind_eq_ok.mp hr
      exact ok.inj h₂ ▸ h.bread ht h₁
    · rwa [← ok.inj hr]
  | change t d =>
    rw [Bio.step] at hr
    split at hr
    · next ht => exact ok.inj hr ▸ h.mark ht rfl rfl (fun _ _ => rfl) nofun
    · rwa [← ok.inj hr]
  | bwrite t =>
    rw [Bio.step] at hr
    split at hr
    · next ht => exact h.bwrite ht hr
    · rwa [← ok.inj hr]
  | logWrite t =>
    rw [Bio.step] at hr
    split at hr
    · next ht => exact ok.inj hr ▸ h.mark ht rfl rfl (fun _ _ => rfl) nofun
    · rwa [← ok.inj hr]
  | releasesleep t =>
    rw [Bio.step] at hr
    split at hr
    · next ht =>
      split at hr
      · next hc => exact ok.inj hr ▸ h.releasesleep ht hc
      · rwa [← ok.inj hr]
    · rwa [← ok.inj hr]
  | brelse t =>
    rw [Bio.step] at hr
    split at hr
    · next ht => exact ok.inj hr ▸ h.brelse ht
    · rwa [← ok.inj hr]

/-! ## One array of blocks -/

/-- What the users of the cache rely on. -/
structure Coherent (s : State) : Prop where
  unique   : ∀ b b', b < NBUF → b' < NBUF → (s.buf b).dev ≠ 0 →
    (s.buf b).dev = (s.buf b').dev → (s.buf b).blockno = (s.buf b').blockno → b = b'
  recycled : ∀ r ∈ s.recycled, r.refcnt = 0 ∧ r.dirty = false
  reads    : ∀ r ∈ s.reads, r.data = r.released

/-- **The cache and the disk behave as one array of blocks.** -/
theorem bcache_coherent (disks : Disks) (disk : Key → Block) (as : List Act) (u : State)
    (hrun : exec (step disks) as (start disk) = .ok u) : Coherent u := by
  have h : Inv u := exec_invariant_of_step (fun _ _ _ h hr => h.step hr) (Inv.start disk) hrun
  exact ⟨fun b b' hb hb' hdev h1 h2 => h.names.unique b b' hb hb' hdev (Prod.ext h1 h2),
    h.recycled, h.reads⟩

/-- Thread 0 changes block 7 of device 1 and marks it for the log; thread 1 waits for the lock
    and reads what thread 0 released. -/
def logAndRead : List Act :=
  [.bget 0 1 7, .bget 1 1 7, .acquiresleep 0, .bread 0, .change 0 (fun _ => 5), .logWrite 0,
   .releasesleep 0, .acquiresleep 1, .bread 1, .brelse 0]

theorem bcache_coherent_logAndRead : ∃ u,
    exec (step ⟨true, true⟩) logAndRead (start fun _ _ => 0) = .ok u ∧
    u.reads.map (fun r => r.data 0) = [0, 5] ∧ Coherent u := by
  have hok : (exec (step ⟨true, true⟩) logAndRead (start fun _ _ => 0)).map
      (fun u => u.reads.map (fun r => r.data 0)) = .ok [0, 5] := by decide +kernel
  obtain ⟨u, hu, heq⟩ := exists_ok_of_map hok
  exact ⟨u, hu, heq, bcache_coherent ⟨true, true⟩ (fun _ _ => 0) logAndRead u hu⟩

/-- **The reference counts.**  `refcnt` is the number of threads that use the buffer, one of
    them at most has its lock, and a `bget` that stops has found every buffer in use or dirty. -/
theorem bufs_counted (disks : Disks) (disk : Key → Block) (as : List Act) (u : State)
    (hrun : exec (step disks) as (start disk) = .ok u) :
    (∀ b, ∃ L : List Nat, L.Nodup ∧ (∀ t, t ∈ L ↔ (u.phase t).uses = some b) ∧
      u.refcnt b = L.length) ∧
    (∀ t t' b, (u.phase t).locks = some b → (u.phase t').locks = some b → t = t') ∧
    ∀ t dev blockno e, step disks u (.bget t dev blockno) = .error e →
      ∀ b < NBUF, (∃ t, (u.phase t).uses = some b) ∨ (u.buf b).dirty = true := by
  have h : Inv u := exec_invariant_of_step (fun _ _ _ h hr => h.step hr) (Inv.start disk) hrun
  refine ⟨h.refs.users, fun t t' b ht ht' => ?_, fun t dev blockno e he b hb => ?_⟩
  · exact some.inj ((h.locks t b ht).symm.trans (h.locks t' b ht'))
  rw [step, Bio.bget] at he
  split at he
  · split at he
    · exact nomatch he
    split at he
    · exact nomatch he
    · next hv =>
      have hb := List.find?_eq_none.mp hv b (List.mem_reverse.mpr ((h.refs.order b).mpr hb))
      obtain ⟨L, -, hmem, hlen⟩ := h.refs.users b
      cases L with
      | nil => exact .inr (by simpa [hlen] using hb)
      | cons t L => exact .inl ⟨t, (hmem t).mp List.mem_cons_self⟩
  · exact nomatch he

theorem bufs_counted_logAndRead : ∃ u,
    exec (step ⟨true, true⟩) logAndRead (start fun _ _ => 0) = .ok u ∧
    ∃ L : List Nat, (∀ t, t ∈ L ↔ (u.phase t).uses = some 0) ∧ L.length = 1 := by
  refine (exists_ok_of_map (f := fun u => u.refcnt 0) (b := 1) ?_).imp fun u ⟨hu, href⟩ => ⟨hu, ?_⟩
  · decide +kernel
  · obtain ⟨L, -, hmem, hlen⟩ := (bufs_counted ⟨true, true⟩ _ logAndRead u hu).1 0
    exact ⟨L, hmem, hlen.symm.trans href⟩

end Bio
