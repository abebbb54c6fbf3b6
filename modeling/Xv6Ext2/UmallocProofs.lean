import Xv6Ext2.UserMemoryProofs

/-! # The user-level allocator

    `free`, `morecore` and `malloc` of `umalloc.c` on a heap that grows by `sbrk`.  The memory
    of the process is seen as headers.  A header on a page that the process does not have is
    `.wild`, and a loop that does not end `.hang`.

    * `Listed L s` — the headers of `L` are linked among themselves, and each of them is `base`
      or describes a block that `sbrk` has granted;
    * `morecore_listed` — `morecore` keeps this as long as `sbrk` is asked for more memory;
    * `malloc_right_iff` — the requests for which a block is always what was asked for. -/

namespace Umalloc

open Outcome PageMemory UserMemory Param

open Except (ok.inj)

open Function (update update_apply update_idem update_of_ne update_self)

open BufCache (Err)

open Vm (Machine)

/-! ## The functions -/

structure Header where
  ptr  : Nat
  size : Nat

/-- The headers, `freep` and the address of `base`; the size with which the process started,
    from which on its memory is granted by `sbrk`; and what the kernel has of the process. -/
structure Heap where
  hdr   : Nat → Header
  freep : Nat
  base  : Nat
  start : Nat
  proc  : Proc
  mem   : Memory

def Heap.set (s : Heap) (h : Nat) (x : Header) : Heap := { s with hdr := update s.hdr h x }

/-- `h + n`, for a pointer to headers. -/
def plus (h n : Nat) : Nat := (h + n * 8) % UINT

/-- The eight bytes from `h` on are on pages of the user. -/
def mapped (M : Memory) (pgdir h : Nat) : Bool :=
  [h, h + 7].all (fun a => (pteAt M pgdir a).flags &&& (PTE_P ||| PTE_U) = PTE_P ||| PTE_U)

/-- The header at `h`, which is to be read or written. -/
def deref (s : Heap) (h : Nat) : Except Err Header :=
  if mapped s.mem s.proc.pgdir h = true then .ok (s.hdr h) else .error .wild

def freeLoop (s : Heap) (bp : Nat) : Nat → Nat → Except Err Nat
  | 0, _ => .error .hang
  | fuel + 1, p => do
      let x ← deref s p
      if bp > p ∧ bp < x.ptr then .ok p
      else if p ≥ x.ptr ∧ (bp > p ∨ bp < x.ptr) then .ok p
      else freeLoop s bp fuel x.ptr

/-- Join `bp` to the block behind it, or link it. -/
def joinUpper (bp p : Nat) (s : Heap) : Except Err Heap := do
  let b ← deref s bp
  let x ← deref s p
  if plus bp b.size = x.ptr then do
    let y ← deref s x.ptr
    .ok (s.set bp ⟨y.ptr, (b.size + y.size) % UINT⟩)
  else .ok (s.set bp ⟨x.ptr, b.size⟩)

/-- Join the block at `p` to `bp`, or link it. -/
def joinLower (bp p : Nat) (s : Heap) : Heap :=
  let b := s.hdr bp
  let x := s.hdr p
  if plus p x.size = bp then s.set p ⟨b.ptr, (x.size + b.size) % UINT⟩
  else s.set p ⟨bp, x.size⟩

def free (fuel ap : Nat) (s : Heap) : Except Err Heap := do
  let bp := (ap + (UINT - 8)) % UINT
  let p ← freeLoop s bp fuel s.freep
  let s ← joinUpper bp p s
  .ok { joinLower bp p s with freep := p }

/-- The argument of `sbrk`, an `int`. -/
def toInt (n : Nat) : Int := if n < 2 ^ 31 then n else n - UINT

/-- `sbrk(n)`; `none` is -1. -/
def sbrk (m : Machine) (n : Int) (s : Heap) : Except Err (Option Nat × Heap) := do
  let r ← growproc m n s.proc s.mem
  .ok (if r.1 < 0 then none else some s.proc.sz, { s with proc := r.2.1, mem := r.2.2 })

/-- The pointer is 0 when there is no memory. -/
def morecore (m : Machine) (fuel nu : Nat) (s : Heap) : Except Err (Nat × Heap) := do
  let nu := if nu < 4096 then 4096 else nu
  let r ← sbrk m (toInt (nu * 8 % UINT)) s
  match r.1 with
  | none => .ok (0, r.2)
  | some hp => do
      let x ← deref r.2 hp
      let s ← free fuel (plus hp 1) (r.2.set hp ⟨x.ptr, nu⟩)
      .ok (s.freep, s)

def mallocLoop (m : Machine) (nunits : Nat) : Nat → Heap → Nat → Nat → Except Err (Nat × Heap)
  | 0, _, _, _ => .error .hang
  | fuel + 1, s, prevp, p => do
      let x ← deref s p
      if x.size ≥ nunits then
        if x.size = nunits then do
          let y ← deref s prevp
          .ok (plus p 1, { s.set prevp ⟨x.ptr, y.size⟩ with freep := prevp })
        else do
          let q := plus p (x.size - nunits)
          let y ← deref s q
          .ok (plus q 1,
            { (s.set p ⟨x.ptr, x.size - nunits⟩).set q ⟨y.ptr, nunits⟩ with freep := prevp })
      else if p = s.freep then do
        let r ← morecore m fuel nunits s
        if r.1 = 0 then .ok (0, r.2)
        else do
          let x ← deref r.2 r.1
          mallocLoop m nunits fuel r.2 r.1 x.ptr
      else mallocLoop m nunits fuel s p x.ptr

/-- The first call makes `base` the free list. -/
def initFreep (s : Heap) : Except Err Heap :=
  if s.freep = 0 then do
    let _ ← deref s s.base
    .ok { s.set s.base ⟨s.base, 0⟩ with freep := s.base }
  else .ok s

/-- `malloc`, once the units are counted. -/
def mallocUnits (m : Machine) (fuel nunits : Nat) (s : Heap) : Except Err (Nat × Heap) := do
  let s ← initFreep s
  let x ← deref s s.freep
  mallocLoop m nunits fuel s s.freep x.ptr

def unitsOf (nbytes : Nat) : Nat := (nbytes + 7) % UINT / 8 + 1

def malloc (m : Machine) (fuel nbytes : Nat) (s : Heap) : Except Err (Nat × Heap) :=
  mallocUnits m fuel (unitsOf nbytes) s

/-! ## The free list -/

/-- The header `x` at `h` is `base`, or describes a block in granted memory. -/
def Fits (s : Heap) (h : Nat) (x : Header) : Prop :=
  h = s.base ∧ x.size = 0 ∨ s.start ≤ h ∧ 0 < x.size ∧ h + x.size * 8 ≤ s.proc.sz

structure Listed (L : Nat → Prop) (s : Heap) : Prop where
  below : s.base + 8 ≤ s.start
  start : s.start ≤ s.proc.sz
  top   : s.proc.sz < KERNBASE
  freep : L s.freep
  next  : ∀ h, L h → L (s.hdr h).ptr
  block : ∀ h, L h → Fits s h (s.hdr h)

/-- A state of the free list: there is none yet, or its blocks were granted. -/
def FreeList (s : Heap) : Prop :=
  (s.base + 8 ≤ s.start ∧ s.start ≤ s.proc.sz ∧ s.proc.sz < KERNBASE ∧ s.freep = 0) ∨
    ∃ L, Listed L s

/-- The bytes behind the header of the block at `r`. -/
def usable (s : Heap) (r : Nat) : Nat := ((s.hdr (r - 8)).size - 1) * 8

/-- A block that `malloc` returns has the bytes that were asked for, in granted memory. -/
def Right (m : Machine) (nbytes : Nat) (s : Heap) : Prop :=
  ∀ fuel r s', malloc m fuel nbytes s = .ok (r, s') → r ≠ 0 →
    nbytes ≤ usable s' r ∧ s'.start + 8 ≤ r ∧ r + usable s' r ≤ s'.proc.sz

section Lists

variable {m : Machine} {L : Nat → Prop} {s s' : Heap} {h p q r nu bp fuel nunits : Nat} {x : Header}

lemma deref_eq (hrun : deref s h = .ok x) : x = s.hdr h := by
  unfold deref at hrun
  split_ifs at hrun
  exact (ok.inj hrun).symm

/-- The headers of the list end before the end of memory. -/
lemma Listed.lt (hs : Listed L s) (hh : L h) : h + 8 ≤ s.proc.sz := by
  have hbelow := hs.below
  have hstart := hs.start
  rcases hs.block h hh with ⟨rfl, -⟩ | ⟨-, hpos, hle⟩ <;> omega

lemma freeLoop_mem (hnext : ∀ h, L h → L (s.hdr h).ptr) (hp : L p)
    (hrun : freeLoop s bp fuel p = .ok q) : L q := by
  induction fuel generalizing p with
  | zero => cases hrun
  | succ fuel ih =>
    rw [freeLoop] at hrun
    obtain ⟨x, hx, hrun⟩ := bind_eq_ok.mp hrun
    obtain rfl := deref_eq hx
    split_ifs at hrun
    · exact ok.inj hrun ▸ hp
    · exact ok.inj hrun ▸ hp
    · exact ih (hnext p hp) hrun

/-- The process after `sbrk`, with other headers. -/
abbrev Heap.grown (s : Heap) (hdr : Nat → Header) (pr : Proc) (M : Memory) : Heap :=
  ⟨hdr, s.freep, s.base, s.start, pr, M⟩

/-- **A new block at the end of memory** goes to the free list. -/
lemma free_listed {pr : Proc} {M : Memory} (hs : Listed L s) (hpos : 0 < x.size)
    (hnew : pr.sz = s.proc.sz + x.size * 8) (htop : pr.sz < KERNBASE)
    (hrun : free fuel (plus s.proc.sz 1) (s.grown (update s.hdr s.proc.sz x) pr M) = .ok s') :
    ∃ L', Listed L' s' := by
  have hbelow := hs.below
  have hstart := hs.start
  have hold : ∀ h y, L h → update s.hdr s.proc.sz y h = s.hdr h := fun h y hh => by
    have := hs.lt hh
    exact update_of_ne (by omega) ..
  have hbp : (plus s.proc.sz 1 + (UINT - 8)) % UINT = s.proc.sz := by
    rw [plus, UINT, KERNBASE] at *
    omega
  rw [free, hbp] at hrun
  obtain ⟨p, hloop, hrun⟩ := bind_eq_ok.mp hrun
  have hp : L p := by
    refine freeLoop_mem (fun h hh => ?_) hs.freep hloop
    show L (update s.hdr s.proc.sz x h).ptr
    rw [hold h x hh]
    exact hs.next h hh
  have hplt := hs.lt hp
  obtain ⟨s₁, hupper, hrun⟩ := bind_eq_ok.mp hrun
  -- nothing lies above the new block
  obtain rfl : s.grown (update s.hdr s.proc.sz ⟨(s.hdr p).ptr, x.size⟩) pr M = s₁ := by
    rw [joinUpper] at hupper
    obtain ⟨b, hb, hupper⟩ := bind_eq_ok.mp hupper
    obtain ⟨y, hy, hupper⟩ := bind_eq_ok.mp hupper
    obtain rfl := deref_eq hb
    obtain rfl := deref_eq hy
    have hlt := hs.lt (hs.next p hp)
    simp only [update_self, hold p x hp] at hupper
    rw [if_neg] at hupper
    · rw [← ok.inj hupper]
      exact congrArg (s.grown · pr M) (update_idem ..).symm
    · rw [plus, ← hnew, Nat.mod_eq_of_lt (by rw [UINT]; rw [KERNBASE] at htop; omega)]
      omega
  obtain ⟨y, hset, hlink, hfits⟩ : ∃ y,
      joinLower s.proc.sz p (s.grown (update s.hdr s.proc.sz ⟨(s.hdr p).ptr, x.size⟩) pr M)
        = s.grown (update (update s.hdr s.proc.sz ⟨(s.hdr p).ptr, x.size⟩) p y) pr M ∧
      (L y.ptr ∨ y.ptr = s.proc.sz) ∧ Fits { s with proc := pr } p y := by
    have hblock := hs.block p hp
    simp only [joinLower, update_self, hold p _ hp]
    by_cases hjoin : plus p (s.hdr p).size = s.proc.sz
    · -- the block before the new one grows to the end of memory
      refine ⟨_, if_pos hjoin, .inl (hs.next p hp), .inr ?_⟩
      unfold Fits at hblock
      rw [plus] at hjoin
      rw [UINT, KERNBASE] at *
      dsimp only
      omega
    · refine ⟨_, if_neg hjoin, .inr rfl, ?_⟩
      unfold Fits at hblock ⊢
      dsimp only
      omega
  obtain rfl := ok.inj hrun
  rw [hset]
  refine ⟨fun h => L h ∨ h = s.proc.sz, hbelow, ?_, htop, .inl hp, fun h hh => ?_, fun h hh => ?_⟩
  · show s.start ≤ pr.sz
    omega
  · show L (update (update s.hdr _ _) p y h).ptr ∨ (update (update s.hdr _ _) p y h).ptr = _
    by_cases heq : h = p
    · rwa [heq, update_self]
    rw [update_of_ne heq]
    rcases hh with hh | rfl
    · rw [hold h _ hh]
      exact .inl (hs.next h hh)
    · rw [update_self]
      exact .inl (hs.next p hp)
  · show Fits { s with proc := pr } h (update (update s.hdr _ _) p y h)
    by_cases heq : h = p
    · rwa [heq, update_self]
    rw [update_of_ne heq]
    rcases hh with hh | rfl
    · have hblock := hs.block h hh
      rw [hold h _ hh]
      unfold Fits at hblock ⊢
      dsimp only
      omega
    · rw [update_self]
      exact .inr ⟨hstart, hpos, Nat.le_of_eq hnew.symm⟩

/-- `growproc` of a positive number. -/
lemma growproc_more {n : Int} {pr pr' : Proc} {M M' : Memory} {r : Int} (hn : 0 < n)
    (hint : n < 2 ^ 31) (hsz : pr.sz < KERNBASE) (hrun : growproc m n pr M = .ok (r, pr', M')) :
    r < 0 ∨ (pr'.sz : Int) = pr.sz + n ∧ pr'.sz < KERNBASE := by
  have hnewsz : (((pr.sz + n) % UINT).toNat : Int) = pr.sz + n := by
    rw [KERNBASE] at hsz
    rw [UINT]
    omega
  rw [growproc, if_pos hn] at hrun
  generalize ((pr.sz + n) % UINT).toNat = newsz at hnewsz hrun
  obtain ⟨⟨sz, M₁⟩, halloc, hrun⟩ := bind_eq_ok.mp hrun
  dsimp only at hrun
  by_cases h0 : sz = 0
  · rw [if_pos h0] at hrun
    exact .inl ((ok_triple_inj hrun).1 ▸ by decide)
  rw [if_neg h0] at hrun
  obtain ⟨-, rfl, -⟩ := ok_triple_inj hrun
  rw [allocuvm] at halloc
  split_ifs at halloc with htop hless
  · exact absurd (ok_pair_inj halloc).1.symm h0
  · omega
  · obtain ⟨⟨b, M₂⟩, -, halloc⟩ := bind_eq_ok.mp halloc
    obtain ⟨hsz', -⟩ := ok_pair_inj halloc
    split_ifs at hsz' with hb
    · exact .inr ⟨by rw [← hnewsz, ← hsz'], by show sz < KERNBASE; omega⟩
    · exact absurd hsz'.symm h0

lemma morecore_listed (hs : Listed L s) (hnu : nunits < 2 ^ 28) (hr : r ≠ 0)
    (hrun : morecore m fuel nunits s = .ok (r, s')) : r = s'.freep ∧ ∃ L', Listed L' s' := by
  rw [morecore] at hrun
  obtain ⟨nu, hdef, hpos, hlt⟩ : ∃ nu, (if nunits < 4096 then 4096 else nunits) = nu ∧ 0 < nu ∧
      nu < 2 ^ 28 := ⟨_, rfl, by split_ifs <;> omega, by split_ifs <;> omega⟩
  rw [hdef] at hrun
  have hint : toInt (nu * 8 % UINT) = (nu * 8 : Nat) := by
    rw [toInt, UINT, Nat.mod_eq_of_lt (by omega), if_pos (by omega)]
  obtain ⟨⟨o, s₁⟩, hsbrk, hrun⟩ := bind_eq_ok.mp hrun
  rw [sbrk, hint] at hsbrk
  obtain ⟨⟨a, pr, M⟩, hgrow, hsbrk⟩ := bind_eq_ok.mp hsbrk
  obtain ⟨rfl, rfl⟩ := ok_pair_inj hsbrk
  have hmore := growproc_more (by omega) (by omega) hs.top hgrow
  dsimp only at hrun
  by_cases ha : a < 0
  · rw [if_pos ha] at hrun
    exact absurd (ok_pair_inj hrun).1.symm hr
  rw [if_neg ha] at hrun
  obtain ⟨hsz, htop⟩ := hmore.resolve_left ha
  obtain ⟨x, -, hrun⟩ := bind_eq_ok.mp hrun
  obtain ⟨s₂, hfree, hrun⟩ := bind_eq_ok.mp hrun
  obtain ⟨rfl, rfl⟩ := ok_pair_inj hrun
  have hnew : pr.sz = s.proc.sz + nu * 8 := by omega
  exact ⟨rfl, free_listed hs hpos hnew htop hfree⟩

/-- **The loop of `malloc`** returns a block of the units asked for, in granted memory. -/
lemma mallocLoop_block (hpos : 0 < nunits) (hnu : nunits < 2 ^ 28) {prevp : Nat} (hs : Listed L s)
    (hp : L p) (hr : r ≠ 0) (hrun : mallocLoop m nunits fuel s prevp p = .ok (r, s')) :
    (s'.hdr (r - 8)).size = nunits ∧ s'.start + 8 ≤ r ∧ r + (nunits - 1) * 8 ≤ s'.proc.sz := by
  induction fuel generalizing L s prevp p with
  | zero => cases hrun
  | succ fuel ih =>
    rw [mallocLoop] at hrun
    obtain ⟨x, hx, hrun⟩ := bind_eq_ok.mp hrun
    obtain rfl := deref_eq hx
    split at hrun
    · have hblock : s.start ≤ p ∧ p + (s.hdr p).size * 8 ≤ s.proc.sz := by
        have := hs.block p hp
        unfold Fits at this
        omega
      have htop := hs.top
      rw [KERNBASE] at htop
      split at hrun
      · next heq =>
        obtain ⟨y, hy, hrun⟩ := bind_eq_ok.mp hrun
        obtain rfl := deref_eq hy
        obtain ⟨rfl, rfl⟩ := ok_pair_inj hrun
        rw [plus, UINT, Nat.mod_eq_of_lt (by omega)]
        refine ⟨?_, by show s.start + 8 ≤ _; omega, by show _ ≤ s.proc.sz; omega⟩
        show (update s.hdr prevp _ (p + 1 * 8 - 8)).size = nunits
        rw [Nat.add_sub_cancel, ← heq]
        by_cases hprev : p = prevp
        · rw [hprev, update_self]
        · rw [update_of_ne hprev]
      · obtain ⟨y, -, hrun⟩ := bind_eq_ok.mp hrun
        obtain ⟨rfl, rfl⟩ := ok_pair_inj hrun
        have hq : plus p ((s.hdr p).size - nunits) = p + ((s.hdr p).size - nunits) * 8 := by
          rw [plus, UINT, Nat.mod_eq_of_lt (by omega)]
        rw [hq, plus, UINT, Nat.mod_eq_of_lt (by omega)]
        refine ⟨?_, by show s.start + 8 ≤ _; omega, by show _ ≤ s.proc.sz; omega⟩
        show (update (update s.hdr p _) _ _ _).size = nunits
        rw [Nat.add_sub_cancel, update_self]
    · split at hrun
      · obtain ⟨⟨p₁, s₁⟩, hmore, hrun⟩ := bind_eq_ok.mp hrun
        dsimp only at hrun
        split at hrun
        · exact absurd (ok_pair_inj hrun).1.symm hr
        · next h0 =>
          obtain ⟨x, hx, hrun⟩ := bind_eq_ok.mp hrun
          obtain rfl := deref_eq hx
          obtain ⟨rfl, L', hs'⟩ := morecore_listed hs hnu h0 hmore
          exact ih hs' (hs'.next _ hs'.freep) hrun
      · exact ih hs (hs.next p hp) hrun

lemma mallocUnits_block (hpos : 0 < nunits) (hnu : nunits < 2 ^ 28) (hs : FreeList s)
    (hr : r ≠ 0) (hrun : mallocUnits m fuel nunits s = .ok (r, s')) :
    (s'.hdr (r - 8)).size = nunits ∧ s'.start + 8 ≤ r ∧ r + (nunits - 1) * 8 ≤ s'.proc.sz := by
  rw [mallocUnits] at hrun
  obtain ⟨s₁, hset, hrun⟩ := bind_eq_ok.mp hrun
  have hs₁ : ∃ L, Listed L s₁ := by
    rw [initFreep] at hset
    split at hset
    · obtain ⟨_, -, hset⟩ := bind_eq_ok.mp hset
      obtain rfl := ok.inj hset
      have hself : (s.set s.base ⟨s.base, 0⟩).hdr s.base = ⟨s.base, 0⟩ := update_self ..
      have hroom : s.base + 8 ≤ s.start ∧ s.start ≤ s.proc.sz ∧ s.proc.sz < KERNBASE := by
        rcases hs with ⟨hbelow, hstart, htop, -⟩ | ⟨L, hL⟩
        · exact ⟨hbelow, hstart, htop⟩
        · exact ⟨hL.below, hL.start, hL.top⟩
      refine ⟨(· = s.base), hroom.1, hroom.2.1, hroom.2.2, rfl, ?_, ?_⟩
      · rintro h rfl
        exact congrArg Header.ptr hself
      · rintro h rfl
        exact .inl ⟨rfl, congrArg Header.size hself⟩
    · next h0 =>
      obtain rfl := ok.inj hset
      exact hs.resolve_left (fun h => h0 h.2.2.2)
  obtain ⟨L, hL⟩ := hs₁
  obtain ⟨x, hx, hrun⟩ := bind_eq_ok.mp hrun
  obtain rfl := deref_eq hx
  exact mallocLoop_block hpos hnu hL (hL.next _ hL.freep) hr hrun

end Lists

/-! ## Requests that go wrong -/

def sixteen : Machine := { nine with top := 16 }

/-- A process of 20 bytes with `base` at address 8, before its first call. -/
def small : Heap := ⟨fun _ => ⟨0, 0⟩, 0, 8, 20, ⟨20, 1⟩, onePage [4, 5, 6, 7, 8, 9, 10, 11]⟩

lemma small_freeList : FreeList small := .inl (by decide)

/-- One unit: the block has a header and nothing behind it. -/
lemma small_one : (mallocUnits sixteen 4 1 small).map (fun r => (r.1, usable r.2 r.1))
    = .ok (32788, 0) := by
  decide +kernel

variable {n : Nat}

/-- A number of bytes that is negative, or 0, as an `int`: the process does not grow. -/
lemma small_growproc (hlo : 2 ^ 31 ≤ n * 8) (hhi : n * 8 ≤ UINT) :
    ∃ sz ≤ 20, growproc sixteen (toInt (n * 8 % UINT)) small.proc small.mem
      = .ok (0, ⟨sz, 1⟩, small.mem) := by
  have hint : toInt (n * 8 % UINT) = n * 8 - UINT := by
    rw [toInt, UINT] at *
    split_ifs <;> omega
  rw [hint, growproc, if_neg (by rw [UINT] at *; omega)]
  split
  · obtain ⟨newsz, hnewsz⟩ : ∃ k, ((small.proc.sz + (n * 8 - UINT) : Int) % UINT).toNat = k :=
      ⟨_, rfl⟩
    have hcases : newsz = 4 ∨ newsz = 12 ∨ 20 ≤ newsz := by
      rw [← hnewsz, UINT] at *
      show ((20 + _ : Int) % _).toNat = 4 ∨ ((20 + _ : Int) % _).toNat = 12 ∨
        20 ≤ ((20 + _ : Int) % _).toNat
      omega
    rw [hnewsz]
    rcases hcases with rfl | rfl | hle
    · exact ⟨4, by decide, rfl⟩
    · exact ⟨12, by decide, rfl⟩
    · refine ⟨20, le_rfl, ?_⟩
      rw [deallocuvm, if_pos (show small.proc.sz ≤ newsz from hle), ok_bind]
      rfl
  · exact ⟨20, le_rfl, rfl⟩

/-- **Too many units**: the block starts at the end of memory. -/
lemma small_many {n : Nat} (hlo : 2 ^ 31 ≤ n * 8) (hhi : n * 8 ≤ UINT) :
    ∃ s', mallocUnits sixteen 2 n small = .ok (28, s') ∧ s'.proc.sz ≤ 20 ∧
      usable s' 28 = (n - 1) * 8 := by
  obtain ⟨sz, hsz, hgrow⟩ := small_growproc hlo hhi
  have hbase : mapped small.mem 1 8 = true := by decide
  have hend : mapped small.mem 1 20 = true := by decide
  generalize hM : small.mem = M at hgrow hbase hend
  have hsmall : small = ⟨fun _ => ⟨0, 0⟩, 0, 8, 20, ⟨20, 1⟩, M⟩ := by
    rw [← hM]
    rfl
  rw [hsmall] at hgrow ⊢
  have hn : ¬n = 0 ∧ ¬n < 4096 := by omega
  have hret : plus 20 1 = 28 ∧ (28 + (UINT - 8)) % UINT = 20 := by decide
  have hupper : ¬plus 20 n = 8 := by
    rw [plus, UINT] at *
    omega
  have hlower : ¬plus 8 0 = 20 := by decide
  -- `base` alone is too small, `sbrk` answers 20, and the block that is freed there fits
  simp only [mallocUnits, initFreep, mallocLoop, morecore, sbrk, free, freeLoop, joinUpper,
    joinLower, deref, Heap.set, ok_bind, update_apply, hbase, hend, hgrow, hn, hret, hupper, hlower,
    if_true, if_false, ge_iff_le, gt_iff_lt, Nat.le_zero, lt_self_iff_false, le_refl, true_and,
    true_or, Nat.reduceLT, Nat.reduceEqDiff]
  exact ⟨_, rfl, hsz, rfl⟩

/-! ## Requests that are met -/

/-- **Main result.**  Whatever the state of the free list and of the system, the block that
    `malloc` returns is right: exactly for the requests up to `2^31 - 16` bytes. -/
theorem malloc_right_iff {nbytes : Nat} (hbytes : nbytes < UINT) :
    (∀ m s, FreeList s → Right m nbytes s) ↔ nbytes ≤ 2 ^ 31 - 16 := by
  rw [UINT] at hbytes
  constructor
  · intro hright
    by_contra hbig
    by_cases hwrap : nbytes + 7 < 0x100000000
    · have hunits : unitsOf nbytes = (nbytes + 7) / 8 + 1 := by
        rw [unitsOf, UINT, Nat.mod_eq_of_lt hwrap]
      obtain ⟨s', hrun, hsz, husable⟩ :=
        small_many (n := unitsOf nbytes) (by omega) (by rw [UINT]; omega)
      have hend := (hright _ _ small_freeList 2 28 s' hrun (by decide)).2.2
      omega
    have hunits : unitsOf nbytes = 1 := by
      rw [unitsOf, UINT]
      omega
    obtain ⟨⟨r, s'⟩, hrun, hval⟩ := exists_ok_of_map small_one
    obtain ⟨rfl, husable⟩ := Prod.mk.inj hval
    replace husable : usable s' 32788 = 0 := husable
    have hle := (hright sixteen small small_freeList 4 _ s' (by rw [malloc, hunits, hrun])
      (by decide)).1
    omega
  · intro hle m s hs fuel r s' hrun hr
    have hunits : unitsOf nbytes = (nbytes + 7) / 8 + 1 := by
      rw [unitsOf, UINT, Nat.mod_eq_of_lt (by omega)]
    obtain ⟨hsize, hlow, hhigh⟩ := mallocUnits_block (by omega) (by omega) hs hr hrun
    rw [usable, hsize]
    exact ⟨by omega, hlow, hhigh⟩

/-- A request of 100 bytes. -/
theorem malloc_right_iff_hundred :
    (∀ m s, FreeList s → Right m 100 s) ↔ 100 ≤ 2 ^ 31 - 16 :=
  malloc_right_iff (by decide)

/-- The first `malloc(0xffffffff)` of a process returns a block without a byte. -/
theorem malloc_empty_block : FreeList small ∧
    (malloc sixteen 4 0xffffffff small).map (fun r => (r.1, usable r.2 r.1)) = .ok (32788, 0) :=
  ⟨small_freeList, small_one⟩

end Umalloc
