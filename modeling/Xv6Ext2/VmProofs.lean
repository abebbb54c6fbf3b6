import Mathlib.Algebra.BigOperators.Intervals
import Mathlib.Data.Multiset.Bind
import Mathlib.Tactic.Abel
import Xv6Ext2.BufCacheProofs
import Xv6Ext2.TableSumProofs

/-! # Page tables and the page allocator

    `kalloc.c` and the page tables of `vm.c`.  A page of memory is known by its physical
    page number; `page v i` is entry `i` of page `v` when it is read as a page directory or
    as a page table.  The contents of user pages are what `copyout` and the programs store
    there; those of kernel stacks and pipes are left out.

    * `owned page d` — the pages that the directory `d` accounts for: itself, its page-table
      pages, and the user pages that they map.
    * `Own pages dirs held M` — the pages on the free list, those in `held` and those that
      the directories in `dirs` own are the pages of `pages`, each once.
    * `walkpgdir_own`, `mappages_user`, `mappages_kernel`, `deallocuvm_own`, `freevm_own`,
      `setupkvm_own`, `allocuvm_own`, `copyuvm_own` — every function keeps this, also when
      `kalloc` fails in its middle.
    * `copyout_own` — so does `copyout`, to addresses for which the directory has page tables;
      for others `uva2ka` reads the PTE at address 0. -/

namespace Vm

open Outcome TableSum Param

open Multiset (add_cons cons_add disjoint_left map_cons mem_add mem_cons_self mem_singleton
  mem_singleton_self mem_sum nodup_add singleton_add sum_cons)

open Finset (mem_range sum_congr sum_eq_zero)

open Function (update update_of_ne update_self)

open BufCache (Err)

/-! ## Physical memory -/

def DEVSPACE : Nat := 0xFE000000

/-- Entries of a page directory and of a page table. -/
def NPDENTRIES : Nat := 1024
def NPTENTRIES : Nat := 1024

/-- Page directory index and page table index of a virtual address. -/
def PDX (va : Nat) : Nat := va / 0x400000 % 0x400
def PTX (va : Nat) : Nat := va / 0x1000 % 0x400

def PGROUNDUP (sz : Nat) : Nat := (sz + PGSIZE - 1) % UINT / PGSIZE * PGSIZE
def PGROUNDDOWN (a : Nat) : Nat := a / PGSIZE * PGSIZE

/-- An entry of a page directory or a page table: the bits `PTE_P`, `PTE_W` and `PTE_U`, and
    the page that `PTE_ADDR` gives. -/
structure Entry where
  p    : Bool
  w    : Bool
  u    : Bool
  addr : Nat
  deriving DecidableEq, Repr

def Entry.zero : Entry := ⟨false, false, false, 0⟩

/-- What `memset(v, 1, PGSIZE)` leaves in an entry. -/
def Entry.junk : Entry := ⟨true, false, false, 0x01010⟩

structure Kmap where
  virt      : Nat
  physStart : Nat
  physEnd   : Nat
  w         : Bool
  deriving DecidableEq, Repr

/-- `k->phys_end - k->phys_start`, a `uint`. -/
def Kmap.size (k : Kmap) : Nat := (k.physEnd + (UINT - k.physStart)) % UINT

/-- The line maps a part of the addresses from `KERNBASE` on. -/
def Kmap.High (k : Kmap) : Prop := KERNBASE ≤ k.virt ∧ 0 < k.size ∧ k.virt + k.size ≤ UINT

instance (k : Kmap) : Decidable k.High := inferInstanceAs (Decidable (_ ∧ _ ∧ _))

/-- What the machine and the linker give: `kmap`, the first page from `end` on, the page at
    `PHYSTOP` and the number of processors that `startothers` starts. -/
structure Machine where
  kmap   : List Kmap
  first  : Nat
  top    : Nat
  others : Nat
  high   : ∀ k ∈ kmap, k.High

def EXTMEM : Nat := 0x100000
def KERNLINK : Nat := KERNBASE + EXTMEM
def PHYSTOP : Nat := 0xE000000

/-- `kmap[]`, for a kernel whose data segment starts at `data`. -/
def kmap (data : Nat) : List Kmap :=
  [⟨KERNBASE, 0, EXTMEM, true⟩, ⟨KERNLINK, KERNLINK - KERNBASE, data - KERNBASE, false⟩,
   ⟨data, data - KERNBASE, PHYSTOP, true⟩, ⟨DEVSPACE, DEVSPACE, 0, true⟩]

lemma kmap_high {data : Nat} (hlow : KERNLINK < data) (hhigh : data < KERNBASE + PHYSTOP) :
    ∀ k ∈ kmap data, k.High := by
  simp only [kmap, List.forall_mem_cons, Kmap.High, Kmap.size, KERNLINK, KERNBASE, EXTMEM, PHYSTOP,
    DEVSPACE, UINT] at *
  refine ⟨by omega, by omega, by omega, by omega, fun _ hk => (List.not_mem_nil hk).elim⟩

/-- The machine of `memlayout.h`. -/
def xv6 (data first others : Nat) (hlow : KERNLINK < data) (hhigh : data < KERNBASE + PHYSTOP) :
    Machine where
  kmap := kmap data
  first := first
  top := PHYSTOP / PGSIZE
  others := others
  high := kmap_high hlow hhigh

/-- The pages of memory and the free list. -/
structure Phys where
  page : Nat → Nat → Entry
  free : List Nat

def memset (v : Nat) (e : Entry) (M : Phys) : Phys :=
  { M with page := update M.page v (fun _ => e) }

def setEntry (t j : Nat) (e : Entry) (M : Phys) : Phys :=
  { M with page := update M.page t (update (M.page t) j e) }

def kalloc (M : Phys) : Option Nat × Phys :=
  match M.free with
  | [] => (none, M)
  | r :: next => (some r, { M with free := next })

variable (m : Machine)

def kfree (v : Nat) (M : Phys) : Except Err Phys :=
  if v < m.first ∨ m.top ≤ v then .error (.panic "kfree")
  else
    let M := memset v .junk M
    .ok { M with free := v :: M.free }

/-! ## Page tables -/

/-- The PTE for the address `va`: its page table and its index there. -/
def walkpgdir (pgdir va : Nat) (alloc : Bool) (M : Phys) : Option (Nat × Nat) × Phys :=
  let pde := M.page pgdir (PDX va)
  if pde.p = true then (some (pde.addr, PTX va), M)
  else if alloc = false then (none, M)
  else
    match kalloc M with
    | (none, M) => (none, M)
    | (some pgtab, M) =>
      (some (pgtab, PTX va),
        setEntry pgdir (PDX va) ⟨true, true, true, pgtab⟩ (memset pgtab .zero M))

/-- The loop of `mappages`; `pa` is a page. -/
def mappagesFrom (pgdir last : Nat) (w u : Bool) :
    Nat → Nat → Nat → Phys → Except Err (Bool × Phys)
  | 0, _, _, _ => .error .hang
  | fuel + 1, a, pa, M =>
    match walkpgdir pgdir a true M with
    | (none, M) => .ok (false, M)
    | (some (t, j), M) =>
      if (M.page t j).p = true then .error (.panic "remap")
      else
        let M := setEntry t j ⟨true, w, u, pa⟩ M
        if a = last then .ok (true, M)
        else mappagesFrom pgdir last w u fuel ((a + PGSIZE) % UINT) (pa + 1) M

/-- Create PTEs for the addresses from `va` on; `false` is the answer -1. -/
def mappages (pgdir va size pa : Nat) (w u : Bool) (M : Phys) : Except Err (Bool × Phys) :=
  mappagesFrom pgdir (PGROUNDDOWN ((va + size + (UINT - 1)) % UINT)) w u (UINT / PGSIZE)
    (PGROUNDDOWN va) pa M

def deallocuvmFrom (pgdir oldsz : Nat) : Nat → Nat → Phys → Except Err Phys
  | 0, _, _ => .error .hang
  | fuel + 1, a, M =>
    if a < oldsz then
      match walkpgdir pgdir a false M with
      | (none, M) =>
        deallocuvmFrom pgdir oldsz fuel
          ((((PDX a + 1) * 0x400000 + (UINT - PGSIZE)) % UINT + PGSIZE) % UINT) M
      | (some (t, j), M) =>
        if (M.page t j).p = true then
          if (M.page t j).addr = 0 then .error (.panic "kfree")
          else do
            let M ← kfree m (M.page t j).addr M
            deallocuvmFrom pgdir oldsz fuel ((a + PGSIZE) % UINT) (setEntry t j .zero M)
        else deallocuvmFrom pgdir oldsz fuel ((a + PGSIZE) % UINT) M
    else .ok M

/-- Deallocate user pages to bring the process size from `oldsz` to `newsz`. -/
def deallocuvm (pgdir oldsz newsz : Nat) (M : Phys) : Except Err (Nat × Phys) :=
  if oldsz ≤ newsz then .ok (oldsz, M)
  else do
    let M ← deallocuvmFrom m pgdir oldsz (oldsz + 1) (PGROUNDUP newsz) M
    .ok (newsz, M)

/-- The page tables of `pgdir` from entry `i` on. -/
def freeTables (pgdir : Nat) : Nat → Nat → Phys → Except Err Phys
  | 0, _, M => .ok M
  | n + 1, i, M =>
    if (M.page pgdir i).p = true then do
      let M ← kfree m (M.page pgdir i).addr M
      freeTables pgdir n (i + 1) M
    else freeTables pgdir n (i + 1) M

/-- Free a page table and all the physical memory pages in the user part. -/
def freevm (pgdir : Nat) (M : Phys) : Except Err Phys := do
  let (_, M) ← deallocuvm m pgdir KERNBASE 0 M
  let M ← freeTables m pgdir NPDENTRIES 0 M
  kfree m pgdir M

/-- The loop of `setupkvm`; `false` when `mappages` fails. -/
def mapKernel (pgdir : Nat) : List Kmap → Phys → Except Err (Bool × Phys)
  | [], M => .ok (true, M)
  | k :: ks, M => do
      let (r, M) ← mappages pgdir k.virt k.size (k.physStart / PGSIZE) k.w false M
      if r = true then mapKernel pgdir ks M else .ok (false, M)

def setupkvm (M : Phys) : Except Err (Option Nat × Phys) :=
  match kalloc M with
  | (none, M) => .ok (none, M)
  | (some pgdir, M) =>
    if DEVSPACE < KERNBASE + m.top * PGSIZE then .error (.panic "PHYSTOP too high")
    else do
      let (r, M) ← mapKernel pgdir m.kmap (memset pgdir .zero M)
      if r = true then .ok (some pgdir, M)
      else do
        let M ← freevm m pgdir M
        .ok (none, M)

/-- The loop of `allocuvm`; `false` is a failure, after its cleanup. -/
def allocuvmFrom (pgdir oldsz newsz : Nat) : Nat → Nat → Phys → Except Err (Bool × Phys)
  | 0, _, _ => .error .hang
  | fuel + 1, a, M =>
    if a < newsz then
      match kalloc M with
      | (none, M) => do
          let (_, M) ← deallocuvm m pgdir newsz oldsz M
          .ok (false, M)
      | (some mem, M) => do
          let (r, M) ← mappages pgdir a PGSIZE mem true true M
          if r = true then allocuvmFrom pgdir oldsz newsz fuel ((a + PGSIZE) % UINT) M
          else do
            let (_, M) ← deallocuvm m pgdir newsz oldsz M
            let M ← kfree m mem M
            .ok (false, M)
    else .ok (true, M)

/-- Grow process from `oldsz` to `newsz`; the answer is the new size, or 0 on error. -/
def allocuvm (pgdir oldsz newsz : Nat) (M : Phys) : Except Err (Nat × Phys) :=
  if KERNBASE ≤ newsz then .ok (0, M)
  else if newsz < oldsz then .ok (oldsz, M)
  else do
    let (r, M) ← allocuvmFrom m pgdir oldsz newsz (newsz + 1) (PGROUNDUP oldsz) M
    .ok (if r = true then newsz else 0, M)

/-- The loop of `copyuvm`, without what it does at `bad`. -/
def copyuvmFrom (pgdir d sz : Nat) : Nat → Nat → Phys → Except Err (Bool × Phys)
  | 0, _, _ => .error .hang
  | fuel + 1, i, M =>
    if i < sz then
      match walkpgdir pgdir i false M with
      | (none, _) => .error (.panic "copyuvm: pte should exist")
      | (some (t, j), M) =>
        let pte := M.page t j
        if pte.p = false then .error (.panic "copyuvm: page not present")
        else
          match kalloc M with
          | (none, M) => .ok (false, M)
          | (some mem, M) => do
              let (r, M) ← mappages d i PGSIZE mem pte.w pte.u M
              if r = true then copyuvmFrom pgdir d sz fuel ((i + PGSIZE) % UINT) M
              else do
                let M ← kfree m mem M
                .ok (false, M)
    else .ok (true, M)

/-- Given a parent process's page table, create a copy of it for a child. -/
def copyuvm (pgdir sz : Nat) (M : Phys) : Except Err (Option Nat × Phys) := do
  match ← setupkvm m M with
  | (none, M) => .ok (none, M)
  | (some d, M) => do
      let (r, M) ← copyuvmFrom m pgdir d sz (sz + 1) 0 M
      if r = true then .ok (some d, M)
      else do
        let M ← freevm m d M
        .ok (none, M)

def clearpteu (pgdir uva : Nat) (M : Phys) : Except Err Phys :=
  match walkpgdir pgdir uva false M with
  | (none, _) => .error (.panic "clearpteu")
  | (some (t, j), M) => .ok (setEntry t j { M.page t j with u := false } M)

/-- Store byte `k` of the word of an entry. -/
def Entry.putByte (e : Entry) (k : Nat) (b : UInt8) : Entry :=
  match k with
  | 0 => { e with p := b.toNat.testBit 0, w := b.toNat.testBit 1, u := b.toNat.testBit 2 }
  | 1 => { e with addr := e.addr / 16 * 16 + b.toNat / 16 }
  | 2 => { e with addr := e.addr / 4096 * 4096 + b.toNat * 16 + e.addr % 16 }
  | _ => { e with addr := b.toNat * 4096 + e.addr % 4096 }

/-- `memmove` of the `n` bytes `buf` to offset `o` of the page `v`. -/
def memmove (v o n : Nat) (buf : Nat → UInt8) (M : Phys) : Phys :=
  { M with page := update M.page v (fun j => (List.range 4).foldl (fun e k =>
      if o ≤ 4 * j + k ∧ 4 * j + k < o + n then e.putByte k (buf (4 * j + k - o)) else e)
      (M.page v j)) }

/-- The page of a PTE that is present and the user's. -/
def Entry.userPage (pte : Entry) : Option Nat :=
  if pte.p = false then none else if pte.u = false then none else some pte.addr

/-- Map user virtual address to the page there, while the directory `cur` is in use.  Where
    `walkpgdir` returns 0, `*pte` is the word at address 0 of the running process. -/
def uva2ka (cur pgdir uva : Nat) (M : Phys) : Except Err (Option Nat) :=
  match walkpgdir pgdir uva false M with
  | (some (t, j), _) => .ok (M.page t j).userPage
  | (none, _) =>
    match walkpgdir cur 0 false M with
    | (none, _) => .error .wild
    | (some (t, j), _) =>
      if (M.page t j).p = true then .ok (M.page (M.page t j).addr 0).userPage else .error .wild

/-- The loop of `copyout`, with `i` bytes of `buf` copied. -/
def copyoutFrom (cur pgdir : Nat) (buf : Nat → UInt8) :
    Nat → Nat → Nat → Nat → Phys → Except Err (Bool × Phys)
  | 0, _, _, _, _ => .error .hang
  | fuel + 1, va, i, len, M =>
    if len = 0 then .ok (true, M)
    else do
      let va0 := PGROUNDDOWN va
      match ← uva2ka cur pgdir va0 M with
      | none => .ok (false, M)
      | some pa0 =>
        -- no kernel address maps a page from `PHYSTOP` on
        if m.top ≤ pa0 then .error .wild
        else
          let n := min (PGSIZE - (va - va0)) len
          copyoutFrom cur pgdir buf fuel ((va0 + PGSIZE) % UINT) (i + n) (len - n)
            (memmove pa0 (va - va0) n (fun k => buf (i + k)) M)

/-- Copy `len` bytes to user address `va` in page table `pgdir`; `false` is the answer -1. -/
def copyout (cur pgdir va : Nat) (buf : Nat → UInt8) (len : Nat) (M : Phys) :
    Except Err (Bool × Phys) :=
  copyoutFrom m cur pgdir buf (len + 1) va 0 len M

/-! ## The pages of a directory -/

/-- The pages that the present entries of a page give, among its first `n`. -/
@[irreducible] def present (n : Nat) (row : Nat → Entry) : Multiset Nat :=
  ∑ j ∈ Finset.range n, if (row j).p = true then {(row j).addr} else 0

/-- The user pages that the directory `d` maps: those below `KERNBASE`. -/
@[irreducible] def userPages (page : Nat → Nat → Entry) (d : Nat) : Multiset Nat :=
  ∑ i ∈ Finset.range (PDX KERNBASE),
    if (page d i).p = true then present NPTENTRIES (page (page d i).addr) else 0

/-- The pages that the directory `d` accounts for. -/
@[irreducible] def owned (page : Nat → Nat → Entry) (d : Nat) : Multiset Nat :=
  {d} + present NPDENTRIES (page d) + userPages page d

section Owned

variable {page page' : Nat → Nat → Entry} {row : Nat → Entry} {d v i j n : Nat} {e : Entry}

lemma mem_present : v ∈ present n row ↔ ∃ j < n, (row j).p = true ∧ (row j).addr = v := by
  rw [present, mem_sum]
  constructor
  · rintro ⟨j, hj, hmem⟩
    split at hmem
    · next hp =>
      exact ⟨j, mem_range.mp hj, hp, (mem_singleton.mp hmem).symm⟩
    · exact absurd hmem (Multiset.notMem_zero v)
  · rintro ⟨j, hj, hp, rfl⟩
    refine ⟨j, mem_range.mpr hj, ?_⟩
    rw [if_pos hp]
    exact mem_singleton_self _

/-- No two present entries give the same page. -/
lemma present_inj (hn : (present n row).Nodup) (hi : i < n) (hj : j < n) (hpi : (row i).p = true)
    (hpj : (row j).p = true) (heq : (row i).addr = (row j).addr) : i = j := by
  by_contra hne
  rw [present, sum_split (mem_range.mpr hi), if_pos hpi, nodup_add] at hn
  refine disjoint_left.mp hn.2.2 (mem_singleton_self _) ?_
  rw [mem_sum]
  refine ⟨j, Finset.mem_sdiff.mpr ⟨mem_range.mpr hj, fun h => ?_⟩, ?_⟩
  · exact hne (Finset.mem_singleton.mp h).symm
  · rw [if_pos hpj, heq]
    exact mem_singleton_self _

lemma present_update (row : Nat → Entry) (e : Entry) (hj : j < n) : present n (update row j e)
      + (if (row j).p = true then {(row j).addr} else 0)
    = present n row + (if e.p = true then {e.addr} else 0) := by
  have h := sum_change (f := fun i => if (row i).p = true then ({(row i).addr} : Multiset Nat) else 0)
    (g := fun i => if (update row j e i).p = true
      then ({(update row j e i).addr} : Multiset Nat) else 0)
    (mem_range.mpr hj) (fun i _ hne => by rw [update_of_ne hne])
  rw [update_self] at h
  rwa [present, present]

lemma present_zero : present n (fun _ => Entry.zero) = 0 := by
  rw [present]
  exact sum_eq_zero (fun _ _ => rfl)

lemma mem_owned : v ∈ owned page d ↔ v = d ∨ v ∈ present NPDENTRIES (page d) ∨
    v ∈ userPages page d := by
  rw [owned, mem_add, mem_add, mem_singleton, or_assoc]

lemma self_mem_owned : d ∈ owned page d := mem_owned.mpr (.inl rfl)

lemma table_mem_owned (hi : i < NPDENTRIES) (hp : (page d i).p = true) :
    (page d i).addr ∈ owned page d := mem_owned.mpr (.inr (.inl (mem_present.mpr ⟨i, hi, hp, rfl⟩)))

lemma lt_entries (hi : i < PDX KERNBASE) : i < NPDENTRIES := by
  rw [show PDX KERNBASE = 512 from rfl] at hi
  rw [NPDENTRIES]
  omega

lemma owned_congr (hd : page' d = page d)
    (ht : ∀ i < PDX KERNBASE, (page d i).p = true → page' (page d i).addr = page (page d i).addr) :
    owned page' d = owned page d := by
  have huser : userPages page' d = userPages page d := by
    unfold userPages
    refine sum_congr rfl (fun i hi => ?_)
    rw [hd]
    by_cases hp : (page d i).p = true
    · rw [if_pos hp, if_pos hp, ht i (mem_range.mp hi) hp]
    · rw [if_neg hp, if_neg hp]
  rw [owned, owned, huser, hd]

lemma owned_update (hv : v ∉ owned page d) (row : Nat → Entry) :
    owned (update page v row) d = owned page d := by
  have hd : d ≠ v := fun h => hv (h ▸ self_mem_owned)
  refine owned_congr (update_of_ne hd ..) (fun i hi hp => ?_)
  have ht : (page d i).addr ≠ v := fun h => hv (h ▸ table_mem_owned (lt_entries hi) hp)
  exact update_of_ne ht ..

lemma table_ne (hn : (owned page d).Nodup) (hi : i < NPDENTRIES) (hp : (page d i).p = true) :
    (page d i).addr ≠ d := by
  intro heq
  rw [owned, nodup_add, nodup_add] at hn
  refine disjoint_left.mp hn.1.2.2 (mem_singleton_self d) ?_
  exact mem_present.mpr ⟨i, hi, hp, heq⟩

lemma table_inj (hn : (owned page d).Nodup) (hi : i < NPDENTRIES) (hj : j < NPDENTRIES)
    (hpi : (page d i).p = true) (hpj : (page d j).p = true)
    (heq : (page d i).addr = (page d j).addr) : i = j := by
  rw [owned, nodup_add, nodup_add] at hn
  exact present_inj hn.1.2.1 hi hj hpi hpj heq

/-- What an entry of the page table at index `i` of a directory maps for the user. -/
def mapped (i : Nat) (e : Entry) : Multiset Nat :=
  if i < PDX KERNBASE ∧ e.p = true then {e.addr} else 0

/-- **A PTE changes.**  Only the user page behind it comes and goes. -/
lemma owned_setPte (hn : (owned page d).Nodup) (hi : i < NPDENTRIES)
    (hp : (page d i).p = true) (hj : j < NPTENTRIES) :
    owned (update page (page d i).addr (update (page (page d i).addr) j e)) d
        + mapped i (page (page d i).addr j) = owned page d + mapped i e := by
  generalize ht : (page d i).addr = t
  have hd : update page t (update (page t) j e) d = page d := by
    have hne : d ≠ t := fun heq => table_ne hn hi hp (by rw [ht, ← heq])
    exact update_of_ne hne ..
  have hother : ∀ i' < PDX KERNBASE, i' ≠ i → (page d i').p = true →
      update page t (update (page t) j e) (page d i').addr
        = page (page d i').addr := fun i' hi' hne hp' => by
    refine update_of_ne (fun heq => hne ?_) ..
    exact table_inj hn (lt_entries hi') hi hp' hp (by rw [heq, ht])
  have huser : userPages (update page t (update (page t) j e)) d
        + mapped i (page t j) = userPages page d + mapped i e := by
    rw [mapped, mapped]
    by_cases hlow : i < PDX KERNBASE
    · have hsum := sum_change
        (f := fun i => if (page d i).p = true then present NPTENTRIES (page (page d i).addr) else 0)
        (g := fun i => if (page d i).p = true then present NPTENTRIES
          (update page t (update (page t) j e) (page d i).addr) else 0)
        (mem_range.mpr hlow) (fun i' hi' hne => by
          by_cases hp' : (page d i').p = true
          · rw [if_pos hp', if_pos hp', hother i' (mem_range.mp hi') hne hp']
          · rw [if_neg hp', if_neg hp'])
      rw [if_pos hp, if_pos hp, ht, update_self] at hsum
      have hrow := present_update (page t) e hj
      unfold userPages
      rw [hd]
      simp only [hlow, true_and]
      refine add_right_cancel (b := present NPTENTRIES (page t)) ?_
      rw [add_right_comm, hsum, add_assoc, hrow, add_right_comm, ← add_assoc]
    · rw [if_neg (fun h => hlow h.1), if_neg (fun h => hlow h.1), add_zero, add_zero]
      unfold userPages
      refine sum_congr rfl (fun i' hi' => ?_)
      have hlt := mem_range.mp hi'
      rw [hd]
      by_cases hp' : (page d i').p = true
      · rw [if_pos hp', if_pos hp', hother i' hlt (fun heq => hlow (heq ▸ hlt)) hp']
      · rw [if_neg hp', if_neg hp']
  rw [owned, owned, hd, add_assoc, huser, ← add_assoc]

lemma owned_newTable {r : Nat} {w u : Bool} (hn : (owned page d).Nodup) (hi : i < NPDENTRIES)
    (hp : (page d i).p = false) (hr : r ∉ owned page d) (hzero : page r = fun _ => .zero) :
    owned (update page d (update (page d) i ⟨true, w, u, r⟩)) d = owned page d + {r} := by
  generalize hpage : update page d (update (page d) i ⟨true, w, u, r⟩) = page'
  have hd : page' d = update (page d) i ⟨true, w, u, r⟩ := by
    rw [← hpage, update_self]
  have hsame : ∀ t, t ≠ d → page' t = page t := fun t ht => by
    rw [← hpage, update_of_ne ht]
  have hrd : r ≠ d := fun heq => hr (heq ▸ self_mem_owned)
  have htables := present_update (page d) ⟨true, w, u, r⟩ hi
  rw [if_neg (by rw [hp]; exact nofun), add_zero, if_pos rfl, ← hd] at htables
  have huser : userPages page' d = userPages page d := by
    unfold userPages
    refine sum_congr rfl (fun i' hi' => ?_)
    rw [hd]
    by_cases hii : i' = i
    · rw [hii, update_self, if_pos rfl, if_neg (by rw [hp]; exact nofun), hsame r hrd,
        hzero, present_zero]
    rw [update_of_ne hii]
    by_cases hp' : (page d i').p = true
    · rw [if_pos hp', if_pos hp', hsame _ (table_ne hn (lt_entries (mem_range.mp hi')) hp')]
    · rw [if_neg hp', if_neg hp']
  rw [owned, owned, htables, huser]
  show {d} + (present NPDENTRIES (page d) + {r}) + userPages page d = _
  rw [← add_assoc, add_right_comm]

lemma owned_zero (hd : page d = fun _ => .zero) : owned page d = {d} := by
  have huser : userPages page d = 0 := by
    unfold userPages
    exact sum_eq_zero (fun i _ => by rw [hd]; exact if_neg nofun)
  rw [owned, huser, hd, present_zero, add_zero, add_zero]

end Owned

/-! ## Ownership -/

/-- The pages on the free list, in `held` and of the directories `dirs` are the pages of
    `pages`, each once. -/
structure Own (pages dirs held : Multiset Nat) (M : Phys) : Prop where
  nodup : pages.Nodup
  total : (M.free : Multiset Nat) + held + (dirs.map (owned M.page)).sum = pages

section Own

variable {pages dirs held : Multiset Nat} {M M' : Phys} {d v : Nat}

variable {page : Nat → Nat → Entry}

lemma mem_sum_owned (hd : d ∈ dirs) (hv : v ∈ owned page d) : v ∈ (dirs.map (owned page)).sum := by
  obtain ⟨rest, rfl⟩ := Multiset.exists_cons_of_mem hd
  rw [map_cons, sum_cons]
  exact mem_add.mpr (.inl hv)

/-- What is held is in no directory. -/
lemma Own.held_notMem (h : Own pages dirs held M) (hv : v ∈ held) (hd : d ∈ dirs) :
    v ∉ owned M.page d := by
  have hn := h.nodup
  rw [← h.total, nodup_add] at hn
  exact fun hmem => disjoint_left.mp hn.2.2 (mem_add.mpr (.inr hv)) (mem_sum_owned hd hmem)

lemma Own.dir_notMem (h : Own pages (d ::ₘ dirs) held M) (hv : v ∈ owned M.page d) {d' : Nat}
    (hd : d' ∈ dirs) : v ∉ owned M.page d' := by
  have hn := h.nodup
  rw [← h.total, map_cons, sum_cons, nodup_add] at hn
  exact fun hmem => disjoint_left.mp (nodup_add.mp hn.2.1).2.2 hv (mem_sum_owned hd hmem)

lemma Own.nodup_dir (h : Own pages (d ::ₘ dirs) held M) : (owned M.page d).Nodup := by
  have hn := h.nodup
  rw [← h.total, map_cons, sum_cons, nodup_add] at hn
  exact (nodup_add.mp hn.2.1).1

lemma Own.dir_notHeld (h : Own pages (d ::ₘ dirs) held M) (hv : v ∈ held) : v ≠ d := fun heq =>
  h.held_notMem hv (mem_cons_self d dirs) (heq ▸ self_mem_owned)

lemma sum_owned_congr {page' : Nat → Nat → Entry} (h : ∀ d ∈ dirs, owned page' d = owned page d) :
    (dirs.map (owned page')).sum = (dirs.map (owned page)).sum := by
  rw [Multiset.map_congr rfl h]

lemma Own.memset (h : Own pages dirs held M) (hv : v ∈ held) (e : Entry) :
    Own pages dirs held (memset v e M) := by
  have hsum : (dirs.map (owned (Vm.memset v e M).page)).sum = (dirs.map (owned M.page)).sum :=
    sum_owned_congr (fun d hd => owned_update (h.held_notMem hv hd) _)
  refine ⟨h.nodup, ?_⟩
  rw [hsum]
  exact h.total

lemma kalloc_own (h : Own pages dirs held M) : kalloc M = (none, M) ∨
    ∃ r M', kalloc M = (some r, M') ∧ M'.page = M.page ∧ Own pages dirs (r ::ₘ held) M' := by
  rw [kalloc]
  cases hfree : M.free with
  | nil => exact .inl rfl
  | cons r next =>
    refine .inr ⟨r, _, rfl, rfl, h.nodup, ?_⟩
    have htotal := h.total
    rw [hfree, ← Multiset.cons_coe, cons_add] at htotal
    rw [← htotal, add_cons]

lemma kfree_ok {m : Machine} (hfree : kfree m v M = .ok M') :
    M' = { memset v .junk M with free := v :: M.free } := by
  rw [kfree] at hfree
  split at hfree
  · exact nomatch hfree
  · exact (Except.ok.inj hfree).symm

lemma kfree_own {m : Machine} (h : Own pages dirs (v ::ₘ held) M)
    (hfree : kfree m v M = .ok M') : Own pages dirs held M' := by
  obtain rfl := kfree_ok hfree
  have h' := h.memset (mem_cons_self v held) .junk
  refine ⟨h.nodup, ?_⟩
  have htotal := h'.total
  rwa [add_cons, ← cons_add] at htotal

lemma Own.newDir (h : Own pages dirs (d ::ₘ held) M) (hzero : M.page d = fun _ => .zero) :
    Own pages (d ::ₘ dirs) held M := by
  refine ⟨h.nodup, ?_⟩
  rw [map_cons, sum_cons, owned_zero hzero, ← h.total, ← singleton_add,
    add_comm {d} held, add_assoc, add_assoc, add_assoc]

variable {i j : Nat} {e : Entry}

/-- **A PTE of a directory changes.** -/
lemma Own.setPte {held' : Multiset Nat} (h : Own pages (d ::ₘ dirs) held M) (hi : i < NPDENTRIES)
    (hp : (M.page d i).p = true) (hj : j < NPTENTRIES)
    (hheld : held + mapped i (M.page (M.page d i).addr j) = held' + mapped i e) :
    Own pages (d ::ₘ dirs) held' (setEntry (M.page d i).addr j e M) := by
  have hset := owned_setPte (e := e) h.nodup_dir hi hp hj
  have hrest : (dirs.map (owned (setEntry (M.page d i).addr j e M).page)).sum
      = (dirs.map (owned M.page)).sum :=
    sum_owned_congr (fun d' hd' => owned_update (h.dir_notMem (table_mem_owned hi hp) hd') _)
  refine ⟨h.nodup, add_right_cancel (b := mapped i e) ?_⟩
  have htotal := h.total
  rw [map_cons, sum_cons] at htotal ⊢
  rw [hrest, ← htotal]
  generalize hO : owned (setEntry (M.page d i).addr j e M).page d = O
  replace hset : O + _ = _ := hO ▸ hset
  calc (M.free : Multiset Nat) + held' + (O + (dirs.map (owned M.page)).sum) + mapped i e
      = (M.free : Multiset Nat) + (held' + mapped i e) + (dirs.map (owned M.page)).sum + O := by
        abel
    _ = (M.free : Multiset Nat) + held + (dirs.map (owned M.page)).sum
        + (O + mapped i (M.page (M.page d i).addr j)) := by
        rw [← hheld]
        abel
    _ = _ := by
        rw [hset]
        abel

variable {r : Nat} {w u : Bool}

lemma Own.newTable (h : Own pages (d ::ₘ dirs) (r ::ₘ held) M)
    (hi : i < NPDENTRIES) (hp : (M.page d i).p = false) (hzero : M.page r = fun _ => .zero) :
    Own pages (d ::ₘ dirs) held (setEntry d i ⟨true, w, u, r⟩ M) := by
  have hr := h.held_notMem (mem_cons_self r held) (mem_cons_self d dirs)
  have hrest : (dirs.map (owned (setEntry d i ⟨true, w, u, r⟩ M).page)).sum
      = (dirs.map (owned M.page)).sum :=
    sum_owned_congr (fun d' hd' => owned_update (h.dir_notMem self_mem_owned hd') _)
  refine ⟨h.nodup, ?_⟩
  rw [map_cons, sum_cons, hrest, ← h.total, map_cons, sum_cons, ← singleton_add]
  show (M.free : Multiset Nat) + held + (owned (update M.page d
    (update (M.page d) i ⟨true, w, u, r⟩)) d + _) = _
  rw [owned_newTable h.nodup_dir hi hp hr hzero]
  abel

lemma setEntry_self (t j : Nat) (e : Entry) (M : Phys) : (setEntry t j e M).page t j = e := by
  show update M.page t (update (M.page t) j e) t j = e
  rw [update_self, update_self]

lemma setEntry_other {t : Nat} (hv : v ≠ t) (j : Nat) (e : Entry) (M : Phys) :
    (setEntry t j e M).page v = M.page v := update_of_ne hv ..

lemma PDX_lt (va : Nat) : PDX va < NPDENTRIES := Nat.mod_lt _ (by decide)

lemma PTX_lt (va : Nat) : PTX va < NPTENTRIES := Nat.mod_lt _ (by decide)

lemma PDX_user {va : Nat} (h : va < KERNBASE) : PDX va < PDX KERNBASE := by
  rw [PDX, PDX, KERNBASE] at *
  omega

/-- One page from `va` on, as `mappages` counts it. -/
lemma PGROUNDDOWN_page {va : Nat} (hva : va % PGSIZE = 0) (hlt : va < KERNBASE) :
    PGROUNDDOWN ((va + PGSIZE + (UINT - 1)) % UINT) = va ∧ PGROUNDDOWN va = va := by
  rw [PGROUNDDOWN, PGROUNDDOWN, PGSIZE, UINT] at *
  rw [KERNBASE] at hlt
  omega

/-- The directory `d` loses no page table. -/
def KeepsTables (d : Nat) (M M' : Phys) : Prop :=
  ∀ i, (M.page d i).p = true → (M'.page d i).p = true

lemma walkpgdir_own (h : Own pages (d ::ₘ dirs) held M) (va : Nat) :
    ((M.page d (PDX va)).p = false ∧ walkpgdir d va true M = (none, M)) ∨
      ∃ M', walkpgdir d va true M = (some ((M'.page d (PDX va)).addr, PTX va), M') ∧
        (M'.page d (PDX va)).p = true ∧ Own pages (d ::ₘ dirs) held M' ∧ KeepsTables d M M' := by
  rw [walkpgdir]
  by_cases hp : (M.page d (PDX va)).p = true
  · rw [if_pos hp]
    exact .inr ⟨M, rfl, hp, h, fun _ hi => hi⟩
  rw [if_neg hp, if_neg nofun]
  have hp' := Bool.not_eq_true _ ▸ hp
  rcases kalloc_own h with heq | ⟨r, M1, heq, hpage, h1⟩
  · rw [heq]
    exact .inl ⟨hp', rfl⟩
  rw [heq]
  have h2 := h1.memset (mem_cons_self r held) .zero
  have hself : (memset r .zero M1).page r = fun _ => .zero := update_self ..
  have hd : (memset r .zero M1).page d = M.page d := by
    have hne := h1.dir_notHeld (mem_cons_self r held)
    exact (update_of_ne hne.symm ..).trans (by rw [hpage])
  have h3 := h2.newTable (w := true) (u := true) (PDX_lt va) (by rw [hd]; exact hp') hself
  refine .inr ⟨_, ?_, by rw [setEntry_self], h3, fun i hi => ?_⟩
  · rw [setEntry_self]
  · have hne : i ≠ PDX va := fun heq => hp (heq ▸ hi)
    have hrow : (setEntry d (PDX va) ⟨true, true, true, r⟩ (memset r .zero M1)).page d i
        = (memset r .zero M1).page d i := by
      show update (memset r .zero M1).page d (update _ _ _) d i = _
      rw [update_self, update_of_ne hne]
    rwa [hrow, hd]

lemma walkpgdir_find (d va : Nat) (M : Phys) :
    ((M.page d (PDX va)).p = false ∧ walkpgdir d va false M = (none, M)) ∨
      ((M.page d (PDX va)).p = true ∧
        walkpgdir d va false M = (some ((M.page d (PDX va)).addr, PTX va), M)) := by
  rw [walkpgdir]
  by_cases hp : (M.page d (PDX va)).p = true
  · rw [if_pos hp]
    exact .inr ⟨hp, rfl⟩
  · rw [if_neg hp, if_pos rfl]
    exact .inl ⟨Bool.not_eq_true _ ▸ hp, rfl⟩

lemma mapped_absent (hp : e.p = false) : mapped i e = 0 :=
  if_neg (fun h => by rw [hp] at h; exact nomatch h.2)

lemma mapped_kernel (hi : PDX KERNBASE ≤ i) : mapped i e = 0 :=
  if_neg (fun h => absurd h.1 (by omega))

lemma mapped_user (hi : i < PDX KERNBASE) (hp : e.p = true) :
    mapped i e = {e.addr} := if_pos ⟨hi, hp⟩

lemma mappages_user {va mem : Nat} {r : Bool}
    (h : Own pages (d ::ₘ dirs) (mem ::ₘ held) M) (hva : va % PGSIZE = 0) (hlt : va < KERNBASE)
    (hrun : mappages d va PGSIZE mem w u M = .ok (r, M')) :
    (r = true ∧ Own pages (d ::ₘ dirs) held M' ∧ KeepsTables d M M' ∧
        (M'.page d (PDX va)).p = true) ∨
      (r = false ∧ Own pages (d ::ₘ dirs) (mem ::ₘ held) M') := by
  have hlast := PGROUNDDOWN_page hva hlt
  have hlow := PDX_user hlt
  rw [mappages, hlast.1, hlast.2, show UINT / PGSIZE = 1048575 + 1 from rfl, mappagesFrom] at hrun
  rcases walkpgdir_own h va with ⟨-, heq⟩ | ⟨M1, heq, hp, h1, hkeep⟩
  · rw [heq] at hrun
    obtain ⟨rfl, rfl⟩ := ok_pair_inj hrun
    exact .inr ⟨rfl, h⟩
  rw [heq] at hrun
  dsimp only at hrun
  by_cases hmap : (M1.page (M1.page d (PDX va)).addr (PTX va)).p = true
  · rw [if_pos hmap] at hrun
    exact nomatch hrun
  rw [if_neg hmap, if_pos rfl] at hrun
  obtain ⟨rfl, rfl⟩ := ok_pair_inj hrun
  have hdir : (setEntry (M1.page d (PDX va)).addr (PTX va) ⟨true, w, u, mem⟩ M1).page d
      = M1.page d := setEntry_other (table_ne h1.nodup_dir (PDX_lt va) hp).symm ..
  refine .inl ⟨rfl, h1.setPte (PDX_lt va) hp (PTX_lt va) ?_, fun i hi => ?_, ?_⟩
  · rw [mapped_absent (Bool.not_eq_true _ ▸ hmap), mapped_user hlow rfl, add_zero,
      ← singleton_add, add_comm]
  · rw [hdir]
    exact hkeep i hi
  · rwa [hdir]

lemma mappagesFrom_kernel {last : Nat} (hlast : last < UINT)
    (hround : last % PGSIZE = 0) : ∀ (fuel a pa : Nat) (M M' : Phys) (r : Bool),
    Own pages (d ::ₘ dirs) held M → KERNBASE ≤ a → a ≤ last → a % PGSIZE = 0 →
    mappagesFrom d last w u fuel a pa M = .ok (r, M') → Own pages (d ::ₘ dirs) held M' := by
  intro fuel
  induction fuel with
  | zero => exact fun _ _ _ _ _ _ _ _ _ hrun => nomatch hrun
  | succ fuel ih =>
    intro a pa M M' r h hhigh hle ha hrun
    rw [mappagesFrom] at hrun
    rcases walkpgdir_own h a with ⟨-, heq⟩ | ⟨M1, heq, hp, h1, -⟩
    · rw [heq] at hrun
      obtain ⟨-, rfl⟩ := ok_pair_inj hrun
      exact h
    rw [heq] at hrun
    dsimp only at hrun
    split at hrun
    · exact nomatch hrun
    have hpdx : PDX KERNBASE ≤ PDX a := by
      rw [PDX, PDX, KERNBASE, UINT] at *
      omega
    have h2 : Own pages (d ::ₘ dirs) held
        (setEntry (M1.page d (PDX a)).addr (PTX a) ⟨true, w, u, pa⟩ M1) :=
      h1.setPte (PDX_lt a) hp (PTX_lt a) (by rw [mapped_kernel hpdx, mapped_kernel hpdx])
    split at hrun
    · obtain ⟨-, rfl⟩ := ok_pair_inj hrun
      exact h2
    have hnext : (a + PGSIZE) % UINT = a + PGSIZE ∧ a + PGSIZE ≤ last ∧
        (a + PGSIZE) % PGSIZE = 0 := by
      rw [UINT, PGSIZE] at *
      omega
    rw [hnext.1] at hrun
    exact ih _ _ _ _ _ h2 (by omega) hnext.2.1 hnext.2.2 hrun

/-! ## Freeing -/

/-- No page is mapped at the address `va`. -/
def Absent (M : Phys) (d va : Nat) : Prop :=
  (M.page d (PDX va)).p = true → (M.page (M.page d (PDX va)).addr (PTX va)).p = false

lemma mem_userPages (hi : i < PDX KERNBASE)
    (hp : (page d i).p = true) (hj : j < NPTENTRIES) (hpte : (page (page d i).addr j).p = true) :
    (page (page d i).addr j).addr ∈ userPages page d := by
  unfold userPages
  generalize PDX KERNBASE = n at hi
  refine mem_sum.mpr ⟨i, mem_range.mpr hi, ?_⟩
  rw [if_pos hp]
  exact mem_present.mpr ⟨j, hj, hpte, rfl⟩

/-- A user page is neither the directory nor one of its page tables. -/
lemma user_ne (hn : (owned page d).Nodup) (hv : v ∈ userPages page d) :
    v ≠ d ∧ ∀ i < NPDENTRIES, (page d i).p = true → v ≠ (page d i).addr := by
  rw [owned, nodup_add] at hn
  have hdisj := Multiset.disjoint_right.mp hn.2.2 hv
  refine ⟨fun heq => hdisj ?_, fun i hi hp heq => hdisj ?_⟩
  · exact mem_add.mpr (.inl (mem_singleton.mpr heq))
  · exact mem_add.mpr (.inr (mem_present.mpr ⟨i, hi, hp, heq.symm⟩))

lemma kfree_setEntry {m : Machine} {t : Nat} (ht : t ≠ v)
    (hfree : kfree m v M = .ok M') : kfree m v (setEntry t j e M) = .ok (setEntry t j e M') := by
  rw [kfree] at hfree ⊢
  by_cases hv : v < m.first ∨ m.top ≤ v
  · rw [if_pos hv] at hfree
    exact nomatch hfree
  rw [if_neg hv] at hfree ⊢
  obtain rfl := Except.ok.inj hfree
  have hrow : (memset v .junk M).page t = M.page t := update_of_ne ht ..
  show Except.ok (Phys.mk (update (update M.page t _) v _) _)
    = Except.ok (Phys.mk (update (memset v .junk M).page t
      (update ((memset v .junk M).page t) j e)) _)
  rw [hrow, Function.update_comm ht]
  rfl

lemma unmap_own {m : Machine} {va : Nat} (h : Own pages (d ::ₘ dirs) held M)
    (hlow : PDX va < PDX KERNBASE) (hp : (M.page d (PDX va)).p = true)
    (hpte : (M.page (M.page d (PDX va)).addr (PTX va)).p = true)
    (hfree : kfree m (M.page (M.page d (PDX va)).addr (PTX va)).addr M = .ok M') :
    Own pages (d ::ₘ dirs) held (setEntry (M.page d (PDX va)).addr (PTX va) .zero M') ∧
      (setEntry (M.page d (PDX va)).addr (PTX va) .zero M').page d = M.page d ∧
      (∀ va', Absent M d va' → Absent (setEntry (M.page d (PDX va)).addr (PTX va) .zero M') d va') ∧
      ∀ va', PDX va' = PDX va → PTX va' = PTX va →
        Absent (setEntry (M.page d (PDX va)).addr (PTX va) .zero M') d va' := by
  have huser := user_ne h.nodup_dir (mem_userPages hlow hp (PTX_lt va) hpte)
  have htd : (M.page d (PDX va)).addr ≠ d := table_ne h.nodup_dir (PDX_lt va) hp
  generalize hpa : (M.page (M.page d (PDX va)).addr (PTX va)).addr = pa at hfree huser
  have hmap : held + mapped (PDX va) (M.page (M.page d (PDX va)).addr (PTX va))
      = pa ::ₘ held + mapped (PDX va) .zero := by
    rw [mapped_user hlow hpte, hpa, mapped_absent rfl, add_zero, ← singleton_add, add_comm]
  have hset := h.setPte (PDX_lt va) hp (PTX_lt va) hmap
  have hown := kfree_own hset (kfree_setEntry (huser.2 _ (PDX_lt va) hp).symm hfree)
  have hM' : M'.page = update M.page pa (fun _ => .junk) := by
    rw [kfree_ok hfree]
    rfl
  have hd : (setEntry (M.page d (PDX va)).addr (PTX va) .zero M').page d = M.page d := by
    rw [setEntry_other htd.symm, hM', update_of_ne (Ne.symm huser.1)]
  -- an entry of a page table of the directory is what it was, or cleared
  have hentry : ∀ va', (M.page d (PDX va')).p = true →
      (setEntry (M.page d (PDX va)).addr (PTX va) .zero M').page (M.page d (PDX va')).addr (PTX va')
        = M.page (M.page d (PDX va')).addr (PTX va') ∧ ¬(PDX va' = PDX va ∧ PTX va' = PTX va) ∨
      (setEntry (M.page d (PDX va)).addr (PTX va) .zero M').page (M.page d (PDX va')).addr (PTX va')
        = .zero := fun va' hp' => by
    have hkept : M'.page (M.page d (PDX va')).addr = M.page (M.page d (PDX va')).addr := by
      rw [hM', update_of_ne (huser.2 _ (PDX_lt va') hp').symm]
    by_cases hpdx : PDX va' = PDX va
    · rw [hpdx] at hkept ⊢
      by_cases hptx : PTX va' = PTX va
      · rw [hptx, setEntry_self]
        exact .inr rfl
      refine .inl ⟨?_, fun heq => hptx heq.2⟩
      show update M'.page _ (update _ (PTX va) .zero) _ (PTX va') = _
      rw [update_self, update_of_ne hptx, hkept]
    · refine .inl ⟨?_, fun heq => hpdx heq.1⟩
      have hne : (M.page d (PDX va')).addr ≠ (M.page d (PDX va)).addr := fun heq =>
        hpdx (table_inj h.nodup_dir (PDX_lt va') (PDX_lt va) hp' hp heq)
      rw [setEntry_other hne, hkept]
  refine ⟨hown, hd, fun va' habs hp' => ?_, fun va' hpdx hptx hp' => ?_⟩
  · rw [hd] at hp' ⊢
    rcases hentry va' hp' with ⟨heq, -⟩ | heq
    · rw [heq]
      exact habs hp'
    · rw [heq]
      rfl
  · rw [hd] at hp' ⊢
    rcases hentry va' hp' with ⟨-, hne⟩ | heq
    · exact absurd ⟨hpdx, hptx⟩ hne
    · rw [heq]
      rfl

/-- **The loop of `deallocuvm`.**  Below `KERNBASE` it frees what is mapped from `a` on. -/
lemma deallocuvmFrom_own {m : Machine} {hi : Nat} (hhi : hi ≤ KERNBASE) :
    ∀ (fuel a : Nat) (M M' : Phys), Own pages (d ::ₘ dirs) held M → a % PGSIZE = 0 →
      deallocuvmFrom m d hi fuel a M = .ok M' →
      Own pages (d ::ₘ dirs) held M' ∧ M'.page d = M.page d ∧
        (∀ va, Absent M d va → Absent M' d va) ∧ ∀ va, a ≤ va → va < hi → Absent M' d va := by
  intro fuel
  induction fuel with
  | zero => exact fun _ _ _ _ _ hrun => nomatch hrun
  | succ fuel ih =>
    intro a M M' h ha hrun
    rw [deallocuvmFrom] at hrun
    split at hrun
    · have hnext : (a + PGSIZE) % UINT = a + PGSIZE ∧ (a + PGSIZE) % PGSIZE = 0 := by
        rw [UINT, PGSIZE, KERNBASE] at *
        omega
      -- the addresses of the page at `a`
      have hsame : ∀ va, a ≤ va → va < a + PGSIZE → PDX va = PDX a ∧ PTX va = PTX a := by
        intro va h1 h2
        rw [PGSIZE] at *
        rw [PDX, PDX, PTX, PTX]
        omega
      have hlow : PDX a < PDX KERNBASE := by
        rw [PDX, PDX, KERNBASE] at *
        omega
      rcases walkpgdir_find d a M with ⟨hp, heq⟩ | ⟨hp, heq⟩
      · rw [heq] at hrun
        dsimp only at hrun
        have hskip : (((PDX a + 1) * 0x400000 + (UINT - PGSIZE)) % UINT + PGSIZE) % UINT
            = (PDX a + 1) * 0x400000 ∧ (PDX a + 1) * 0x400000 % PGSIZE = 0 := by
          rw [show PDX KERNBASE = 512 from rfl] at hlow
          rw [UINT, PGSIZE]
          omega
        rw [hskip.1] at hrun
        obtain ⟨h1, hd, hmono, hclear⟩ := ih _ M M' h hskip.2 hrun
        refine ⟨h1, hd, hmono, fun va h2 h3 => ?_⟩
        by_cases hva : va < (PDX a + 1) * 0x400000
        · -- the directory has no page table for these
          have hpdx : PDX va = PDX a := by
            rw [PDX, KERNBASE] at *
            rw [PDX]
            omega
          intro hp'
          rw [hd, hpdx, hp] at hp'
          exact nomatch hp'
        · exact hclear va (by omega) h3
      rw [heq] at hrun
      dsimp only at hrun
      by_cases hpte : (M.page (M.page d (PDX a)).addr (PTX a)).p = true
      · rw [if_pos hpte] at hrun
        split at hrun
        · exact nomatch hrun
        obtain ⟨M1, hfree, hrun⟩ := bind_eq_ok.mp hrun
        obtain ⟨h1, hd1, hmono1, hgone⟩ := unmap_own h hlow hp hpte hfree
        rw [hnext.1] at hrun
        obtain ⟨h2, hd2, hmono2, hclear⟩ := ih _ _ M' h1 hnext.2 hrun
        refine ⟨h2, hd2.trans hd1, fun va hva => hmono2 va (hmono1 va hva), fun va h3 h4 => ?_⟩
        by_cases hva : va < a + PGSIZE
        · exact hmono2 va (hgone va (hsame va h3 hva).1 (hsame va h3 hva).2)
        · exact hclear va (by omega) h4
      · rw [if_neg hpte, hnext.1] at hrun
        obtain ⟨h1, hd, hmono, hclear⟩ := ih _ M M' h hnext.2 hrun
        refine ⟨h1, hd, hmono, fun va h2 h3 => ?_⟩
        by_cases hva : va < a + PGSIZE
        · refine hmono va (fun _ => ?_)
          rw [(hsame va h2 hva).1, (hsame va h2 hva).2]
          exact Bool.not_eq_true _ ▸ hpte
        · exact hclear va (by omega) h3
    · obtain rfl := Except.ok.inj hrun
      exact ⟨h, rfl, fun _ hva => hva, fun va h1 h2 => absurd h2 (by omega)⟩

lemma PGROUNDUP_mod (sz : Nat) : PGROUNDUP sz % PGSIZE = 0 := Nat.mul_mod_left ..

variable {oldsz newsz : Nat}

lemma deallocuvm_own {m : Machine} (h : Own pages (d ::ₘ dirs) held M) (hold : oldsz ≤ KERNBASE)
    (hrun : deallocuvm m d oldsz newsz M = .ok (r, M')) : Own pages (d ::ₘ dirs) held M' := by
  rw [deallocuvm] at hrun
  split at hrun
  · obtain ⟨-, rfl⟩ := ok_pair_inj hrun
    exact h
  obtain ⟨M1, h1, h2⟩ := bind_eq_ok.mp hrun
  obtain ⟨-, rfl⟩ := ok_pair_inj h2
  exact (deallocuvmFrom_own hold _ _ M M1 h (PGROUNDUP_mod newsz) h1).1

lemma deallocuvm_le {m : Machine}
    (hrun : deallocuvm m d oldsz newsz M = .ok (r, M')) : r ≤ oldsz := by
  rw [deallocuvm] at hrun
  split at hrun
  · exact Nat.le_of_eq (ok_pair_inj hrun).1.symm
  obtain ⟨M1, -, h2⟩ := bind_eq_ok.mp hrun
  rw [← (ok_pair_inj h2).1]
  omega

lemma userPages_zero (h : ∀ va < KERNBASE, Absent M d va) : userPages M.page d = 0 := by
  unfold userPages
  refine sum_eq_zero (fun i hi => ?_)
  have hi : i < 512 := mem_range.mp hi
  by_cases hp : (M.page d i).p = true
  · rw [if_pos hp, present]
    refine sum_eq_zero (fun j hj => ?_)
    have hj : j < 1024 := mem_range.mp hj
    have hva : PDX (i * 0x400000 + j * 0x1000) = i ∧ PTX (i * 0x400000 + j * 0x1000) = j := by
      rw [PDX, PTX]
      omega
    have habs := h (i * 0x400000 + j * 0x1000) (by rw [KERNBASE]; omega)
    rw [Absent, hva.1, hva.2] at habs
    rw [habs hp]
    rfl
  · rw [if_neg hp]

/-- The page tables of a directory from entry `i` on. -/
def tablesFrom (row : Nat → Entry) (i : Nat) : Multiset Nat :=
  ∑ k ∈ Finset.Ico i NPDENTRIES, if (row k).p = true then {(row k).addr} else 0

lemma tablesFrom_zero (row : Nat → Entry) : tablesFrom row 0 = present NPDENTRIES row := by
  rw [present, tablesFrom, Finset.range_eq_Ico]

lemma tablesFrom_succ (row : Nat → Entry) (hi : i < NPDENTRIES) :
    tablesFrom row i = (if (row i).p = true then {(row i).addr} else 0) + tablesFrom row (i + 1) := by
  rw [tablesFrom, Finset.sum_eq_sum_Ico_succ_bot hi, tablesFrom]

/-- **The loop of `freevm`.**  The directory itself is held, and is not changed. -/
lemma freeTables_own {m : Machine} {row : Nat → Entry} : ∀ (n i : Nat) (M M' : Phys),
    i + n = NPDENTRIES → M.page d = row → Own pages dirs (d ::ₘ (tablesFrom row i + held)) M →
    freeTables m d n i M = .ok M' → Own pages dirs (d ::ₘ held) M' := by
  intro n
  induction n with
  | zero =>
    intro i M M' hi _ h hrun
    obtain rfl := Except.ok.inj hrun
    have hnone : tablesFrom row i = 0 := by
      rw [tablesFrom, Finset.Ico_eq_empty (by omega), Finset.sum_empty]
    rwa [hnone, zero_add] at h
  | succ n ih =>
    intro i M M' hi hrow h hrun
    rw [tablesFrom_succ row (by omega)] at h
    rw [freeTables, hrow] at hrun
    by_cases hp : (row i).p = true
    · rw [if_pos hp] at hrun h
      obtain ⟨M1, hfree, hrun⟩ := bind_eq_ok.mp hrun
      have hmove : d ::ₘ ({(row i).addr} + tablesFrom row (i + 1) + held)
          = (row i).addr ::ₘ (d ::ₘ (tablesFrom row (i + 1) + held)) := by
        rw [add_assoc, singleton_add, Multiset.cons_swap]
      rw [hmove] at h
      have hne : d ≠ (row i).addr := fun heq => by
        have hn := h.nodup
        rw [← h.total, nodup_add, nodup_add] at hn
        exact (Multiset.nodup_cons.mp hn.1.2.1).1 (heq ▸ mem_cons_self ..)
      refine ih (i + 1) M1 M' (by omega) ?_ (kfree_own h hfree) hrun
      rw [kfree_ok hfree, ← hrow]
      rw [← hrow] at hne
      exact update_of_ne hne ..
    · rw [if_neg hp] at hrun h
      rw [zero_add] at h
      exact ih (i + 1) M M' (by omega) hrow h hrun

lemma freevm_own {m : Machine} (h : Own pages (d ::ₘ dirs) held M)
    (hrun : freevm m d M = .ok M') : Own pages dirs held M' := by
  obtain ⟨⟨r, M1⟩, h1, hrun⟩ := bind_eq_ok.mp hrun
  obtain ⟨M2, h2, h3⟩ := bind_eq_ok.mp hrun
  rw [deallocuvm, if_neg (by decide)] at h1
  obtain ⟨M1', hfrom, heq⟩ := bind_eq_ok.mp h1
  obtain ⟨-, rfl⟩ := ok_pair_inj heq
  obtain ⟨hown, -, -, hclear⟩ := deallocuvmFrom_own le_rfl _ _ M M1' h (PGROUNDUP_mod 0) hfrom
  have hzero := userPages_zero (fun va hva => hclear va (Nat.zero_le va) hva)
  have htables : Own pages dirs (d ::ₘ (tablesFrom (M1'.page d) 0 + held)) M1' := by
    refine ⟨hown.nodup, ?_⟩
    rw [← hown.total, map_cons, sum_cons, owned, hzero, add_zero, tablesFrom_zero, ← singleton_add]
    abel
  exact kfree_own (freeTables_own NPDENTRIES 0 M1' M2 (Nat.zero_add _) rfl htables h2) h3

/-! ## New directories and pages -/

lemma mapKernel_own : ∀ (ks : List Kmap) (M M' : Phys) (r : Bool), (∀ k ∈ ks, k.High) →
    Own pages (d ::ₘ dirs) held M → mapKernel d ks M = .ok (r, M') →
    Own pages (d ::ₘ dirs) held M' := by
  intro ks
  induction ks with
  | nil =>
    intro M M' r _ h hrun
    obtain ⟨-, rfl⟩ := ok_pair_inj hrun
    exact h
  | cons k ks ih =>
    intro M M' r hhigh h hrun
    obtain ⟨⟨r1, M1⟩, h1, hrun⟩ := bind_eq_ok.mp hrun
    obtain ⟨hk1, hk2, hk3⟩ := hhigh k List.mem_cons_self
    have hlast : (k.virt + k.size + (UINT - 1)) % UINT = k.virt + k.size - 1 := by
      rw [UINT] at *
      omega
    rw [mappages, hlast] at h1
    have hround : PGROUNDDOWN (k.virt + k.size - 1) < UINT ∧
        PGROUNDDOWN (k.virt + k.size - 1) % PGSIZE = 0 ∧ KERNBASE ≤ PGROUNDDOWN k.virt ∧
        PGROUNDDOWN k.virt ≤ PGROUNDDOWN (k.virt + k.size - 1) ∧
        PGROUNDDOWN k.virt % PGSIZE = 0 := by
      rw [PGROUNDDOWN, PGROUNDDOWN, PGSIZE, UINT, KERNBASE] at *
      omega
    have hown := mappagesFrom_kernel hround.1 hround.2.1 _ _ _ M M1 r1 h hround.2.2.1
      hround.2.2.2.1 hround.2.2.2.2 h1
    dsimp only at hrun
    split at hrun
    · exact ih M1 M' r (fun k' hk' => hhigh k' (List.mem_cons_of_mem _ hk')) hown hrun
    · obtain ⟨-, rfl⟩ := ok_pair_inj hrun
      exact hown

lemma setupkvm_own {m : Machine} {r : Option Nat} (h : Own pages dirs held M)
    (hrun : setupkvm m M = .ok (r, M')) : match r with
    | none => Own pages dirs held M'
    | some d => Own pages (d ::ₘ dirs) held M' := by
  rw [setupkvm] at hrun
  rcases kalloc_own h with heq | ⟨d, M1, heq, -, h1⟩
  · rw [heq] at hrun
    obtain ⟨rfl, rfl⟩ := ok_pair_inj hrun
    exact h
  rw [heq] at hrun
  dsimp only at hrun
  split at hrun
  · exact nomatch hrun
  obtain ⟨⟨r1, M2⟩, h2, hrun⟩ := bind_eq_ok.mp hrun
  have hdir := (h1.memset (mem_cons_self d held) .zero).newDir (update_self ..)
  have hown := mapKernel_own m.kmap _ M2 r1 m.high hdir h2
  dsimp only at hrun
  split at hrun
  · obtain ⟨rfl, rfl⟩ := ok_pair_inj hrun
    exact hown
  obtain ⟨M3, h3, hrun⟩ := bind_eq_ok.mp hrun
  obtain ⟨rfl, rfl⟩ := ok_pair_inj hrun
  exact freevm_own hown h3

/-- **The loop of `allocuvm`.**  The pages are the directory's, also after a failure. -/
lemma allocuvmFrom_own {m : Machine} (hnew : newsz < KERNBASE) :
    ∀ (fuel a : Nat) (M M' : Phys) (r : Bool), Own pages (d ::ₘ dirs) held M → a % PGSIZE = 0 →
      allocuvmFrom m d oldsz newsz fuel a M = .ok (r, M') → Own pages (d ::ₘ dirs) held M' := by
  intro fuel
  induction fuel with
  | zero => exact fun _ _ _ _ _ _ hrun => nomatch hrun
  | succ fuel ih =>
    intro a M M' r h ha hrun
    rw [allocuvmFrom] at hrun
    split at hrun
    · rcases kalloc_own h with heq | ⟨mem, M1, heq, -, h1⟩
      · rw [heq] at hrun
        obtain ⟨⟨_, M2⟩, h2, hrun⟩ := bind_eq_ok.mp hrun
        obtain ⟨-, rfl⟩ := ok_pair_inj hrun
        exact deallocuvm_own h hnew.le h2
      rw [heq] at hrun
      obtain ⟨⟨r1, M2⟩, h2, hrun⟩ := bind_eq_ok.mp hrun
      dsimp only at hrun
      rcases mappages_user h1 ha (by omega) h2 with ⟨rfl, hown, -⟩ | ⟨rfl, hown⟩
      · rw [if_pos rfl] at hrun
        have hnext : (a + PGSIZE) % UINT % PGSIZE = 0 := by
          rw [UINT, PGSIZE] at *
          omega
        exact ih _ M2 M' r hown hnext hrun
      rw [if_neg nofun] at hrun
      obtain ⟨⟨_, M3⟩, h3, hrun⟩ := bind_eq_ok.mp hrun
      obtain ⟨M4, h4, hrun⟩ := bind_eq_ok.mp hrun
      obtain ⟨-, rfl⟩ := ok_pair_inj hrun
      exact kfree_own (deallocuvm_own hown hnew.le h3) h4
    · obtain ⟨-, rfl⟩ := ok_pair_inj hrun
      exact h

lemma allocuvm_own {m : Machine} (h : Own pages (d ::ₘ dirs) held M)
    (hold : newsz < oldsz → oldsz < KERNBASE) (hrun : allocuvm m d oldsz newsz M = .ok (r, M')) :
    Own pages (d ::ₘ dirs) held M' ∧ r < KERNBASE := by
  rw [allocuvm] at hrun
  split at hrun
  · obtain ⟨rfl, rfl⟩ := ok_pair_inj hrun
    exact ⟨h, by decide⟩
  · next hbig =>
    split at hrun
    · next hless =>
      obtain ⟨rfl, rfl⟩ := ok_pair_inj hrun
      exact ⟨h, hold hless⟩
    obtain ⟨⟨r1, M1⟩, h1, hrun⟩ := bind_eq_ok.mp hrun
    obtain ⟨rfl, rfl⟩ := ok_pair_inj hrun
    refine ⟨allocuvmFrom_own (by omega) _ _ M M1 r1 h (PGROUNDUP_mod oldsz) h1, ?_⟩
    cases r1 with
    | true => exact Nat.lt_of_not_le hbig
    | false => exact (by decide : 0 < KERNBASE)

lemma copyuvmFrom_own {m : Machine} {pgdir sz : Nat} (hsz : sz ≤ KERNBASE) :
    ∀ (fuel i : Nat) (M M' : Phys) (r : Bool), Own pages (d ::ₘ dirs) held M → i % PGSIZE = 0 →
      copyuvmFrom m pgdir d sz fuel i M = .ok (r, M') → Own pages (d ::ₘ dirs) held M' := by
  intro fuel
  induction fuel with
  | zero => exact fun _ _ _ _ _ _ hrun => nomatch hrun
  | succ fuel ih =>
    intro i M M' r h hi hrun
    rw [copyuvmFrom] at hrun
    split at hrun
    · rcases walkpgdir_find pgdir i M with ⟨-, heq⟩ | ⟨-, heq⟩
      · rw [heq] at hrun
        exact nomatch hrun
      rw [heq] at hrun
      dsimp only at hrun
      generalize M.page (M.page pgdir (PDX i)).addr (PTX i) = pte at hrun
      split at hrun
      · exact nomatch hrun
      rcases kalloc_own h with heq | ⟨mem, M1, heq, -, h1⟩
      · rw [heq] at hrun
        obtain ⟨-, rfl⟩ := ok_pair_inj hrun
        exact h
      rw [heq] at hrun
      obtain ⟨⟨r1, M2⟩, h2, hrun⟩ := bind_eq_ok.mp hrun
      dsimp only at hrun
      rcases mappages_user h1 hi (by omega) h2 with ⟨rfl, hown, -⟩ | ⟨rfl, hown⟩
      · rw [if_pos rfl] at hrun
        have hnext : (i + PGSIZE) % UINT % PGSIZE = 0 := by
          rw [UINT, PGSIZE] at *
          omega
        exact ih _ M2 M' r hown hnext hrun
      · rw [if_neg nofun] at hrun
        obtain ⟨M3, h3, hrun⟩ := bind_eq_ok.mp hrun
        obtain ⟨-, rfl⟩ := ok_pair_inj hrun
        exact kfree_own hown h3
    · obtain ⟨-, rfl⟩ := ok_pair_inj hrun
      exact h

lemma copyuvm_own {m : Machine} {pgdir sz : Nat} {r : Option Nat} (h : Own pages dirs held M)
    (hsz : sz ≤ KERNBASE) (hrun : copyuvm m pgdir sz M = .ok (r, M')) : match r with
    | none => Own pages dirs held M'
    | some d => Own pages (d ::ₘ dirs) held M' := by
  obtain ⟨⟨r1, M1⟩, h1, hrun⟩ := bind_eq_ok.mp hrun
  have hsetup := setupkvm_own h h1
  cases r1 with
  | none =>
    obtain ⟨rfl, rfl⟩ := ok_pair_inj hrun
    exact hsetup
  | some d =>
    obtain ⟨⟨r2, M2⟩, h2, hrun⟩ := bind_eq_ok.mp hrun
    have hown := copyuvmFrom_own hsz _ _ M1 M2 r2 hsetup rfl h2
    dsimp only at hrun
    split at hrun
    · obtain ⟨rfl, rfl⟩ := ok_pair_inj hrun
      exact hown
    obtain ⟨M3, h3, hrun⟩ := bind_eq_ok.mp hrun
    obtain ⟨rfl, rfl⟩ := ok_pair_inj hrun
    exact freevm_own hown h3

lemma clearpteu_own {uva : Nat} (h : Own pages (d ::ₘ dirs) held M)
    (hrun : clearpteu d uva M = .ok M') :
    Own pages (d ::ₘ dirs) held M' ∧ M'.page d = M.page d := by
  rw [clearpteu] at hrun
  rcases walkpgdir_find d uva M with ⟨-, heq⟩ | ⟨hp, heq⟩
  · rw [heq] at hrun
    exact nomatch hrun
  rw [heq] at hrun
  obtain rfl := Except.ok.inj hrun
  exact ⟨h.setPte (PDX_lt uva) hp (PTX_lt uva) rfl,
    setEntry_other (table_ne h.nodup_dir (PDX_lt uva) hp).symm ..⟩

/-! ## Page tables below a size -/

/-- The directory `d` has a page table for every address below `sz`. -/
def Tables (d sz : Nat) (M : Phys) : Prop := ∀ va < sz, (M.page d (PDX va)).p = true

lemma Tables.roundup {sz : Nat} (h : Tables d sz M) (hsz : sz < KERNBASE) :
    Tables d (PGROUNDUP sz) M := by
  intro va hva
  by_cases hlt : va < sz
  · exact h va hlt
  -- `va` is in the page of the last byte
  have hpdx : PDX va = PDX (sz - 1) ∧ 0 < sz := by
    rw [PGROUNDUP, PGSIZE, UINT] at hva
    rw [KERNBASE] at hsz
    rw [PDX, PDX]
    omega
  rw [hpdx.1]
  exact h (sz - 1) (by omega)

lemma allocuvmFrom_tables {m : Machine} (hnew : newsz < KERNBASE) :
    ∀ (fuel a : Nat) (M M' : Phys), Own pages (d ::ₘ dirs) held M → a % PGSIZE = 0 →
      Tables d a M → allocuvmFrom m d oldsz newsz fuel a M = .ok (true, M') →
      Tables d newsz M' := by
  intro fuel
  induction fuel with
  | zero => exact fun _ _ _ _ _ _ hrun => nomatch hrun
  | succ fuel ih =>
    intro a M M' h ha ht hrun
    rw [allocuvmFrom] at hrun
    split at hrun
    · rcases kalloc_own h with heq | ⟨mem, M1, heq, hpage, h1⟩
      · rw [heq] at hrun
        obtain ⟨⟨_, M2⟩, -, hrun⟩ := bind_eq_ok.mp hrun
        exact nomatch (ok_pair_inj hrun).1
      rw [heq] at hrun
      obtain ⟨⟨r1, M2⟩, h2, hrun⟩ := bind_eq_ok.mp hrun
      dsimp only at hrun
      rcases mappages_user h1 ha (by omega) h2 with ⟨rfl, hown, hkeep, hp⟩ | ⟨rfl, -⟩
      · rw [if_pos rfl] at hrun
        have hnext : (a + PGSIZE) % UINT = a + PGSIZE ∧ (a + PGSIZE) % PGSIZE = 0 := by
          rw [UINT, PGSIZE, KERNBASE] at *
          omega
        rw [hnext.1] at hrun
        refine ih _ M2 M' hown hnext.2 (fun va hva => ?_) hrun
        by_cases hva' : va < a
        · exact hkeep _ (by rw [hpage]; exact ht va hva')
        have hpdx : PDX va = PDX a := by
          rw [PDX, PDX]
          rw [PGSIZE] at hva ha
          omega
        rwa [hpdx]
      · rw [if_neg nofun] at hrun
        obtain ⟨⟨_, M3⟩, -, hrun⟩ := bind_eq_ok.mp hrun
        obtain ⟨M4, -, hrun⟩ := bind_eq_ok.mp hrun
        exact nomatch (ok_pair_inj hrun).1
    · obtain ⟨-, rfl⟩ := ok_pair_inj hrun
      exact fun va hva => ht va (by omega)

/-- After a successful `allocuvm` there is a page table for every address below the size. -/
lemma allocuvm_tables {m : Machine} (h : Own pages (d ::ₘ dirs) held M) (ht : Tables d oldsz M)
    (hr : r ≠ 0) (hrun : allocuvm m d oldsz newsz M = .ok (r, M')) :
    r = max oldsz newsz ∧ Tables d r M' := by
  rw [allocuvm] at hrun
  split at hrun
  · exact absurd (ok_pair_inj hrun).1.symm hr
  split at hrun
  · obtain ⟨rfl, rfl⟩ := ok_pair_inj hrun
    exact ⟨by omega, ht⟩
  obtain ⟨⟨r1, M1⟩, h1, hrun⟩ := bind_eq_ok.mp hrun
  obtain ⟨rfl, rfl⟩ := ok_pair_inj hrun
  cases r1 with
  | true =>
    have hle : oldsz ≤ newsz ∧ newsz < KERNBASE := by omega
    refine ⟨(Nat.max_eq_right hle.1).symm, ?_⟩
    exact allocuvmFrom_tables hle.2 _ _ M M1 h (PGROUNDUP_mod oldsz)
      (ht.roundup (Nat.lt_of_le_of_lt hle.1 hle.2)) h1
  | false => exact absurd rfl hr

/-! ## Stores to user pages -/

/-- **A user page of a directory changes.** -/
lemma Own.setUser (h : Own pages (d ::ₘ dirs) held M) (hv : v ∈ userPages M.page d)
    (row : Nat → Entry) : Own pages (d ::ₘ dirs) held { M with page := update M.page v row } ∧
      update M.page v row d = M.page d := by
  obtain ⟨hd, htable⟩ := user_ne h.nodup_dir hv
  have hself : update M.page v row d = M.page d := update_of_ne hd.symm ..
  have hsum : ((d ::ₘ dirs).map (owned (update M.page v row))).sum
      = ((d ::ₘ dirs).map (owned M.page)).sum := by
    refine sum_owned_congr (fun d' hd' => ?_)
    rcases Multiset.mem_cons.mp hd' with rfl | hd'
    · refine owned_congr hself (fun i hi hp => ?_)
      exact update_of_ne (htable i (lt_entries hi) hp).symm ..
    · exact owned_update (h.dir_notMem (mem_owned.mpr (.inr (.inr hv))) hd') _
  refine ⟨⟨h.nodup, ?_⟩, hself⟩
  rw [hsum]
  exact h.total

lemma memmove_own {o n : Nat} {buf : Nat → UInt8} (h : Own pages (d ::ₘ dirs) held M)
    (hv : v ∈ userPages M.page d) : Own pages (d ::ₘ dirs) held (memmove v o n buf M) ∧
      (memmove v o n buf M).page d = M.page d := h.setUser hv _

lemma userPage_some {pte : Entry} (hv : pte.userPage = some v) : pte.p = true ∧ pte.addr = v := by
  rw [Entry.userPage] at hv
  split_ifs at hv with hp hu
  exact ⟨Bool.not_eq_false _ ▸ hp, Option.some.inj hv⟩

lemma uva2ka_user {cur uva : Nat} (hlow : uva < KERNBASE)
    (ht : (M.page d (PDX uva)).p = true) (hrun : uva2ka cur d uva M = .ok (some v)) :
    v ∈ userPages M.page d := by
  rw [uva2ka] at hrun
  rcases walkpgdir_find d uva M with ⟨hp, -⟩ | ⟨hp, heq⟩
  · exact absurd (ht.symm.trans hp) nofun
  rw [heq] at hrun
  obtain ⟨hpte, rfl⟩ := userPage_some (Except.ok.inj hrun)
  exact mem_userPages (PDX_user hlow) hp (PTX_lt uva) hpte

/-- **The loop of `copyout`.**  Below a size with page tables it stores in user pages only. -/
lemma copyoutFrom_own {m : Machine} {cur sz : Nat} {buf : Nat → UInt8} (hsz : sz ≤ KERNBASE) :
    ∀ (fuel va i len : Nat) (M M' : Phys) (r : Bool), Own pages (d ::ₘ dirs) held M →
      Tables d sz M → (0 < len → va + len ≤ sz) →
      copyoutFrom m cur d buf fuel va i len M = .ok (r, M') →
      Own pages (d ::ₘ dirs) held M' ∧ M'.page d = M.page d := by
  intro fuel
  induction fuel with
  | zero => exact fun _ _ _ _ _ _ _ _ _ hrun => nomatch hrun
  | succ fuel ih =>
    intro va i len M M' r h ht hfit hrun
    rw [copyoutFrom] at hrun
    split at hrun
    · obtain ⟨-, rfl⟩ := ok_pair_inj hrun
      exact ⟨h, rfl⟩
    obtain ⟨pa0, hka, hrun⟩ := bind_eq_ok.mp hrun
    have hround : PGROUNDDOWN va ≤ va ∧ va < PGROUNDDOWN va + PGSIZE := by
      rw [PGROUNDDOWN, PGSIZE]
      omega
    have hva : va + len ≤ sz := hfit (by omega)
    cases pa0 with
    | none =>
      obtain ⟨-, rfl⟩ := ok_pair_inj hrun
      exact ⟨h, rfl⟩
    | some v =>
      dsimp only at hrun
      split at hrun
      · exact nomatch hrun
      have huser := uva2ka_user (by omega) (ht _ (by omega)) hka
      obtain ⟨h1, hdir⟩ := memmove_own h huser
      have hnext : 0 < len - min (PGSIZE - (va - PGROUNDDOWN va)) len →
          (PGROUNDDOWN va + PGSIZE) % UINT
            + (len - min (PGSIZE - (va - PGROUNDDOWN va)) len) ≤ sz := by
        intro hmore
        rw [PGSIZE, UINT, KERNBASE] at *
        omega
      obtain ⟨h2, hd⟩ := ih _ _ _ _ M' r h1 (fun a ha => by rw [hdir]; exact ht a ha) hnext hrun
      exact ⟨h2, hd.trans hdir⟩

lemma copyout_own {m : Machine} {cur sz va len : Nat} {buf : Nat → UInt8} {ok : Bool}
    (h : Own pages (d ::ₘ dirs) held M) (ht : Tables d sz M) (hsz : sz ≤ KERNBASE)
    (hfit : va + len ≤ sz) (hrun : copyout m cur d va buf len M = .ok (ok, M')) :
    Own pages (d ::ₘ dirs) held M' ∧ M'.page d = M.page d :=
  copyoutFrom_own hsz _ _ _ _ M M' ok h ht (fun _ => hfit) hrun

end Own

end Vm
