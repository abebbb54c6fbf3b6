import Xv6Ext2.BufCacheProofs

/-! # The multiprocessor tables

    `mpconfig` and `mpinit` of `mp.c` over the bytes of kernel memory; `mp` is what `mpsearch`
    found.  A loop that does not end is `.hang`.

    The `break` of the default case leaves the `switch` only, and the cursor stays where it is.

    * `Reached` — the entries that the loop comes to;
    * `mpLoop_ends` — the loop ends when each of them has a type that it knows;
    * `Reached.stuck` — it does not when one of them has not;
    * `mpinit_right_iff` — so `mpinit` does what it is for exactly on tables without one. -/

namespace Mp

open ByteBlock BufCache Param Outcome

def NCPU : Nat := 8

/-! ## The functions -/

/-- `sum(addr, len)`, an `uchar`. -/
def sum (m : Block) (addr : Nat) : Nat → UInt8
  | 0 => 0
  | len + 1 => sum m addr len + m (addr + len)

/-- `conf->length`. -/
def confLength (m : Block) (conf : Nat) : Nat := getLE m 2 (conf + 4)

/-- The address of the table; `none` is 0. -/
def mpconfig (m : Block) (mp : Option Nat) : Option Nat :=
  match mp with
  | none => none
  | some mp =>
      let physaddr := getLE m 4 (mp + 4)
      let conf := (physaddr + KERNBASE) % UINT
      if physaddr = 0 then none
      else if ¬(m conf = 80 ∧ m (conf + 1) = 67 ∧ m (conf + 2) = 77 ∧ m (conf + 3) = 80) then none
      else if m (conf + 6) ≠ 1 ∧ m (conf + 6) ≠ 4 then none
      else if sum m conf (confLength m conf) ≠ 0 then none
      else some conf

/-- What `mpinit` sets: `cpus[].apicid`, `ncpu`, `ioapicid`, `lapic`, its own `ismp`, and
    whether it wrote to the interrupt mode register. -/
structure Machine where
  apicid   : Nat → UInt8
  ncpu     : Nat
  ioapicid : UInt8
  lapic    : Nat
  ismp     : Bool
  imcr     : Bool

def addCpu (id : UInt8) (s : Machine) : Machine :=
  if s.ncpu < NCPU then
    { s with apicid := Function.update s.apicid s.ncpu id, ncpu := s.ncpu + 1 }
  else s

/-- The loop over the entries from `p` on. -/
def mpLoop (m : Block) (e : Nat) : Nat → Machine → Nat → Except Err Machine
  | 0, _, _ => .error .hang
  | fuel + 1, s, p =>
      if p < e then
        if m p = 0 then mpLoop m e fuel (addCpu (m (p + 1)) s) (p + 20)
        else if m p = 2 then mpLoop m e fuel { s with ioapicid := m (p + 1) } (p + 8)
        else if m p = 1 ∨ m p = 3 ∨ m p = 4 then mpLoop m e fuel s (p + 8)
        else mpLoop m e fuel { s with ismp := false } p
      else .ok s

def mpinit (m : Block) (mp : Option Nat) (fuel : Nat) (s : Machine) : Except Err Machine :=
  match mpconfig m mp with
  | none => .error (.panic "Expect to run on an SMP")
  | some conf => do
      let s := { s with ismp := true, lapic := getLE m 4 (conf + 36) }
      let s ← mpLoop m (conf + confLength m conf) fuel s (conf + 44)
      if s.ismp = false then .error (.panic "Didn't find a suitable machine")
      else .ok { s with imcr := decide (m (mp.getD 0 + 12) ≠ 0) }

/-! ## The entries that the loop comes to -/

/-- The types of entries that the loop knows. -/
def Known (m : Block) (p : Nat) : Prop := m p = 0 ∨ m p = 1 ∨ m p = 2 ∨ m p = 3 ∨ m p = 4

def width (m : Block) (p : Nat) : Nat := if m p = 0 then 20 else 8

/-- The loop from `p` on comes to the entry at `q`. -/
inductive Reached (m : Block) (e : Nat) : Nat → Nat → Prop
  | here (p : Nat) : Reached m e p p
  | next {p q : Nat} (hp : p < e) (hk : Known m p) (h : Reached m e (p + width m p) q) :
      Reached m e p q

/-- Among the entries of the table at `conf` is one of an unknown type. -/
def HasUnknown (m : Block) (conf : Nat) : Prop :=
  ∃ p, Reached m (conf + confLength m conf) (conf + 44) p ∧ p < conf + confLength m conf ∧
    ¬Known m p

section Loop

variable {m : Block} {e p q : Nat} {s s' : Machine}

lemma addCpu_ncpu (id : UInt8) (h : s.ncpu ≤ NCPU) : (addCpu id s).ncpu ≤ NCPU := by
  unfold addCpu
  split_ifs with hlt
  · exact hlt
  · exact h

lemma addCpu_ismp (id : UInt8) (s : Machine) : (addCpu id s).ismp = s.ismp := by
  unfold addCpu
  split_ifs <;> rfl

/-- **One turn at a known entry** goes on behind it, with the processors within their table. -/
lemma mpLoop_known (hp : p < e) (hk : Known m p) (s : Machine) :
    ∃ s', (∀ fuel, mpLoop m e (fuel + 1) s p = mpLoop m e fuel s' (p + width m p)) ∧
      s'.ismp = s.ismp ∧ (s.ncpu ≤ NCPU → s'.ncpu ≤ NCPU) := by
  by_cases h0 : m p = 0
  · refine ⟨addCpu (m (p + 1)) s, fun fuel => ?_, addCpu_ismp _ s, addCpu_ncpu _⟩
    rw [mpLoop, if_pos hp, if_pos h0, width, if_pos h0]
  by_cases h2 : m p = 2
  · refine ⟨{ s with ioapicid := m (p + 1) }, fun fuel => ?_, rfl, id⟩
    rw [mpLoop, if_pos hp, if_neg h0, if_pos h2, width, if_neg h0]
  refine ⟨s, fun fuel => ?_, rfl, id⟩
  rw [mpLoop, if_pos hp, if_neg h0, if_neg h2, width, if_neg h0, if_pos]
  rcases hk with h | h | h | h | h
  · exact absurd h h0
  · exact .inl h
  · exact absurd h h2
  · exact .inr (.inl h)
  · exact .inr (.inr h)

lemma mpLoop_unknown (hp : p < e) (hk : ¬Known m p) (fuel : Nat) :
    mpLoop m e (fuel + 1) s p = mpLoop m e fuel { s with ismp := false } p := by
  rw [mpLoop, if_pos hp, if_neg (fun h => hk (.inl h)),
    if_neg (fun h => hk (.inr (.inr (.inl h)))), if_neg]
  rintro (h | h | h)
  · exact hk (.inr (.inl h))
  · exact hk (.inr (.inr (.inr (.inl h))))
  · exact hk (.inr (.inr (.inr (.inr h))))

/-- **An unknown entry holds the loop** for ever, however long it runs. -/
lemma Reached.stuck (h : Reached m e p q) (hq : q < e) (hk : ¬Known m q) :
    ∀ fuel s, mpLoop m e fuel s p = .error .hang := by
  induction h with
  | here p =>
      intro fuel
      induction fuel with
      | zero => exact fun s => rfl
      | succ fuel ih =>
          intro s
          rw [mpLoop_unknown hq hk]
          exact ih _
  | next hp hkp _ ih =>
      intro fuel s
      cases fuel with
      | zero => rfl
      | succ fuel =>
          obtain ⟨s', hrun, -⟩ := mpLoop_known hp hkp s
          rw [hrun]
          exact ih hq hk fuel s'

lemma mpLoop_ncpu {fuel : Nat} (h : mpLoop m e fuel s p = .ok s') (hcpu : s.ncpu ≤ NCPU) :
    s'.ncpu ≤ NCPU := by
  induction fuel generalizing p s with
  | zero => cases h
  | succ fuel ih =>
      by_cases hp : p < e
      · by_cases hk : Known m p
        · obtain ⟨s₁, hrun, -, hle⟩ := mpLoop_known hp hk s
          rw [hrun] at h
          exact ih h (hle hcpu)
        · rw [mpLoop_unknown hp hk] at h
          exact ih h hcpu
      · rw [mpLoop, if_neg hp] at h
        obtain rfl := Except.ok.inj h
        exact hcpu

/-- **The loop ends** when it comes to no unknown entry: each turn moves the cursor on. -/
lemma mpLoop_ends (hknown : ∀ q, Reached m e p q → q < e → Known m q) (s : Machine)
    {fuel : Nat} (hfuel : e - p < fuel) :
    ∃ s', mpLoop m e fuel s p = .ok s' ∧ s'.ismp = s.ismp := by
  induction fuel generalizing p s with
  | zero => omega
  | succ fuel ih =>
      by_cases hp : p < e
      · have hk := hknown p (.here p) hp
        have hw : 8 ≤ width m p := by
          unfold width
          split_ifs <;> decide
        obtain ⟨s₁, hrun, hismp, -⟩ := mpLoop_known hp hk s
        obtain ⟨s', hrun', hismp'⟩ := ih (fun q hq => hknown q (.next hp hk hq)) s₁ (by omega)
        exact ⟨s', (hrun fuel).trans hrun', hismp'.trans hismp⟩
      · exact ⟨s, by rw [mpLoop, if_neg hp], rfl⟩

end Loop

/-! ## What mpinit is for -/

/-- The loop ends, `ncpu` stays within the table of processors, and an entry of an unknown
    type ends in the panic. -/
structure Right (m : Block) (mp : Option Nat) (conf : Nat) (s : Machine) : Prop where
  ends    : ∃ fuel, mpinit m mp fuel s ≠ .error .hang
  ncpu    : ∀ fuel s', mpinit m mp fuel s = .ok s' → s'.ncpu ≤ NCPU
  unknown : HasUnknown m conf →
    ∃ fuel, mpinit m mp fuel s = .error (.panic "Didn't find a suitable machine")

/-- **Main result.**  For every accepted table, `mpinit` is right exactly if no entry that it
    comes to has an unknown type. -/
theorem mpinit_right_iff (m : Block) (mp : Option Nat) (conf : Nat) (s : Machine)
    (hconf : mpconfig m mp = some conf) (hcpu : s.ncpu ≤ NCPU) :
    Right m mp conf s ↔ ¬HasUnknown m conf := by
  constructor
  · rintro ⟨⟨fuel, hends⟩, -, -⟩ ⟨p, hreached, hp, hk⟩
    refine hends ?_
    simp only [mpinit, hconf, hreached.stuck hp hk, error_bind]
  · intro hnone
    have hknown : ∀ q, Reached m (conf + confLength m conf) (conf + 44) q →
        q < conf + confLength m conf → Known m q :=
      fun q hq hlt => by_contra fun hk => hnone ⟨q, hq, hlt, hk⟩
    refine ⟨⟨confLength m conf + 1, ?_⟩, fun fuel s' hrun => ?_, fun h => absurd h hnone⟩
    · obtain ⟨s', hrun, hismp⟩ := mpLoop_ends hknown
        { s with ismp := true, lapic := getLE m 4 (conf + 36) }
        (by omega : conf + confLength m conf - (conf + 44) < confLength m conf + 1)
      simp only [mpinit, hconf, hrun, ok_bind, hismp, Bool.true_eq_false, if_false]
      intro h
      cases h
    · simp only [mpinit, hconf] at hrun
      obtain ⟨s₁, hloop, hrun⟩ := bind_eq_ok.mp hrun
      split_ifs at hrun
      obtain rfl := Except.ok.inj hrun
      have hle : s₁.ncpu ≤ NCPU := mpLoop_ncpu hloop hcpu
      exact hle

/-- A table at physical address 1, with its checksum and one entry of the given type. -/
def table (len check type : UInt8) : Block := fun k =>
  if k = 0x104 then 1
  else if k < 0x80000001 then 0
  else ([80, 67, 77, 80, len, 0, 1, check] ++ List.replicate 36 0 ++ [type]).getD
    (k - 0x80000001) 0

def booted : Machine := ⟨fun _ => 0, 0, 0, 0, false, false⟩

/-- One processor. -/
theorem mpinit_right_iff_processor : mpconfig (table 64 143 0) (some 0x100) = some 0x80000001 ∧
    (Right (table 64 143 0) (some 0x100) 0x80000001 booted ↔
      ¬HasUnknown (table 64 143 0) 0x80000001) := by
  have hconf : mpconfig (table 64 143 0) (some 0x100) = some 0x80000001 := by decide +kernel
  exact ⟨hconf, mpinit_right_iff _ _ _ _ hconf (by decide)⟩

/-- An accepted table with an entry of type 5: `mpinit` never returns and never panics. -/
theorem mpinit_stuck : mpconfig (table 52 150 5) (some 0x100) = some 0x80000001 ∧
    HasUnknown (table 52 150 5) 0x80000001 ∧
    ∀ fuel, mpinit (table 52 150 5) (some 0x100) fuel booted = .error .hang := by
  have hconf : mpconfig (table 52 150 5) (some 0x100) = some 0x80000001 := by decide +kernel
  have hlen : confLength (table 52 150 5) 0x80000001 = 52 := by decide +kernel
  have hk : ¬Known (table 52 150 5) (0x80000001 + 44) := by
    unfold Known
    decide +kernel
  have hreached : Reached (table 52 150 5) (0x80000001 + 52) (0x80000001 + 44) (0x80000001 + 44) :=
    .here _
  refine ⟨hconf, ⟨0x80000001 + 44, hlen ▸ hreached, by rw [hlen]; decide, hk⟩, fun fuel => ?_⟩
  simp only [mpinit, hconf, hlen, hreached.stuck (by decide) hk, error_bind]

end Mp
