import Mathlib.Computability.Language

/-! # The matcher of grep (grep.c)

    `match`, `matchhere` and `matchstar`.  A C string is the list of its bytes in front of
    the NUL, so `*text != '\0'` asks for a list that is not empty.

    - `Pattern` : what a pattern means.  Its atoms, read from left to right, give a language;
      `^` and `$` at its ends say where in the text a word of the language has to be.
    - `matchstar_iff`, `matchhere_iff` : the two functions that call each other.
    - `match_iff_accepts` : `match` decides the meaning. -/

namespace Grep

/-! ## The functions -/

/-- The bytes of `'^'`, `'*'`, `'.'` and `'$'`. -/
def CARET : UInt8 := 94
def STAR : UInt8 := 42
def DOT : UInt8 := 46
def DOLLAR : UInt8 := 36

mutual

/-- `matchhere`: search for `re` at beginning of `text`. -/
def matchhere (re text : List UInt8) : Bool :=
  match re with
  | [] => true
  | c :: re =>
    if re.headD 0 = STAR then matchstar c re.tail text
    else if c = DOLLAR ∧ re = [] then text = []
    else
      match text with
      | [] => false
      | t :: text => if c = DOT ∨ c = t then matchhere re text else false
termination_by (re.length, text.length, 0)

/-- `matchstar`: search for `c*re` at beginning of `text`. -/
def matchstar (c : UInt8) (re text : List UInt8) : Bool :=
  if matchhere re text = true then true
  else
    match text with
    | [] => false
    | t :: text => if t = c ∨ c = DOT then matchstar c re text else false
termination_by (re.length, text.length, 1)

end

def matchFrom (re : List UInt8) : List UInt8 → Bool
  | [] => matchhere re []
  | t :: text => if matchhere re (t :: text) = true then true else matchFrom re text

def regMatch (re text : List UInt8) : Bool :=
  if re.headD 0 = CARET then matchhere re.tail text else matchFrom re text

/-! ## What a pattern means -/

/-- A character of a pattern: itself, or any for `.`. -/
inductive Cls where
  | char (c : UInt8)
  | any
  deriving DecidableEq, Repr

def Cls.of (c : UInt8) : Cls := if c = DOT then .any else .char c

/-- The bytes that it stands for. -/
def Cls.Has : Cls → UInt8 → Prop
  | .char c, t => t = c
  | .any, _ => True

def Cls.lang (x : Cls) : Language UInt8 := {w | ∃ t, x.Has t ∧ w = [t]}

/-- One character, or a character followed by `*`. -/
inductive Atom where
  | one (x : Cls)
  | star (x : Cls)
  deriving DecidableEq, Repr

def Atom.lang : Atom → Language UInt8
  | .one x => x.lang
  | .star x => KStar.kstar x.lang

/-- The atoms, whether the pattern starts with `^`, and whether its last character is a `$`
    that stands for the end of the text. -/
structure Pattern where
  start : Bool
  atoms : List Atom
  stop  : Bool
  deriving DecidableEq, Repr

/-- The atoms from left to right. -/
def readAtoms : List UInt8 → List Atom × Bool
  | [] => ([], false)
  | [c] => if c = DOLLAR then ([], true) else ([.one (.of c)], false)
  | c :: d :: re =>
    if d = STAR then (.star (.of c) :: (readAtoms re).1, (readAtoms re).2)
    else (.one (.of c) :: (readAtoms (d :: re)).1, (readAtoms (d :: re)).2)

def Pattern.read (re : List UInt8) : Pattern :=
  let start : Bool := re.headD 0 = CARET
  let r := readAtoms (if start = true then re.tail else re)
  ⟨start, r.1, r.2⟩

/-- The words of a list of atoms. -/
def lang (atoms : List Atom) : Language UInt8 := (atoms.map Atom.lang).prod

/-- The text has a part in the language, where `^` and `$` allow it. -/
def Pattern.Accepts (p : Pattern) (text : List UInt8) : Prop :=
  ∃ pre word post, text = pre ++ word ++ post ∧ word ∈ lang p.atoms ∧
    (p.start = true → pre = []) ∧ (p.stop = true → post = [])

/-! ## Stars -/

variable {c : UInt8}

lemma Cls.has_of {t : UInt8} : (Cls.of c).Has t ↔ t = c ∨ c = DOT := by
  unfold Cls.of
  split
  · next h =>
    exact iff_of_true trivial (.inr h)
  · next h =>
    exact ⟨.inl, fun h' => h'.resolve_right h⟩

/-- The words of a starred character are those of its bytes. -/
lemma mem_star {x : Cls} {w : List UInt8} : w ∈ (Atom.star x).lang ↔ ∀ t ∈ w, x.Has t := by
  show w ∈ KStar.kstar x.lang ↔ _
  constructor
  · rw [Language.mem_kstar]
    rintro ⟨ws, rfl, hws⟩ t ht
    obtain ⟨y, hy, hty⟩ := List.mem_flatten.mp ht
    obtain ⟨t', hhas, rfl⟩ := hws y hy
    rwa [List.mem_singleton.mp hty]
  · intro h
    rw [Language.mem_kstar]
    refine ⟨w.map (fun t => [t]), ?_, fun y hy => ?_⟩
    · induction w with
      | nil => rfl
      | cons t w ih =>
        rw [List.map_cons, List.flatten_cons, ← ih (fun s hs => h s (List.mem_cons_of_mem t hs))]
        rfl
    · obtain ⟨t, ht, rfl⟩ := List.mem_map.mp hy
      exact ⟨t, h t ht, rfl⟩

variable {re text : List UInt8}

/-- **The loop of `matchstar`** tries every number of bytes that the star can take. -/
lemma matchstar_iff : matchstar c re text = true ↔
      ∃ word post, text = word ++ post ∧ word ∈ (Atom.star (.of c)).lang ∧
        matchhere re post = true := by
  simp only [mem_star, Cls.has_of]
  induction text with
  | nil =>
    rw [matchstar]
    constructor
    · intro h
      refine ⟨[], [], rfl, fun t ht => absurd ht List.not_mem_nil, ?_⟩
      by_contra hno
      rw [if_neg hno] at h
      cases h
    · rintro ⟨word, post, htext, -, hpost⟩
      obtain ⟨rfl, rfl⟩ := List.append_eq_nil_iff.mp htext.symm
      rw [if_pos hpost]
  | cons t text ih =>
    rw [matchstar]
    split
    · next hhere =>
      exact iff_of_true rfl ⟨[], t :: text, rfl, fun s hs => absurd hs List.not_mem_nil, hhere⟩
    · next hhere =>
      constructor
      · intro h
        by_cases ht : t = c ∨ c = DOT
        · rw [if_pos ht, ih] at h
          obtain ⟨word, post, rfl, hword, hpost⟩ := h
          refine ⟨t :: word, post, rfl, fun s hs => ?_, hpost⟩
          rcases List.mem_cons.mp hs with rfl | hs
          · exact ht
          · exact hword s hs
        · rw [if_neg ht] at h
          cases h
      · rintro ⟨word, post, htext, hword, hpost⟩
        -- the empty word does not match here, so the star takes the first byte
        cases word with
        | nil =>
          rw [List.nil_append] at htext
          exact absurd (htext ▸ hpost) hhere
        | cons s word =>
          obtain ⟨rfl, rfl⟩ := List.cons.inj htext
          rw [if_pos (hword t List.mem_cons_self), ih]
          exact ⟨word, post, rfl, fun s hs => hword s (List.mem_cons_of_mem t hs), hpost⟩

/-! ## Atoms one after another -/

/-- The text starts with a word of the atoms, and ends there if it has to. -/
def Starts (r : List Atom × Bool) (text : List UInt8) : Prop :=
  ∃ word post, text = word ++ post ∧ word ∈ lang r.1 ∧ (r.2 = true → post = [])

variable {stop : Bool}

lemma starts_nil : Starts ([], stop) text ↔ (stop = true → text = []) := by
  constructor
  · rintro ⟨word, post, rfl, hword, hpost⟩ hstop
    obtain rfl : word = [] := hword
    exact hpost hstop
  · intro h
    exact ⟨[], text, rfl, rfl, h⟩

lemma starts_cons {a : Atom} {atoms : List Atom} : Starts (a :: atoms, stop) text ↔
      ∃ word post, text = word ++ post ∧ word ∈ a.lang ∧ Starts (atoms, stop) post := by
  constructor
  · rintro ⟨word, post, rfl, hword, hpost⟩
    obtain ⟨w₁, h₁, w₂, h₂, rfl⟩ := Language.mem_mul.mp hword
    exact ⟨w₁, w₂ ++ post, List.append_assoc .., h₁, w₂, post, rfl, h₂, hpost⟩
  · rintro ⟨w₁, _, rfl, h₁, w₂, post, rfl, h₂, hpost⟩
    exact ⟨w₁ ++ w₂, post, (List.append_assoc ..).symm, Language.mem_mul.mpr ⟨w₁, h₁, w₂, h₂, rfl⟩,
      hpost⟩

/-- An atom without a star takes one byte. -/
lemma starts_one {atoms : List Atom} : Starts (.one (.of c) :: atoms, stop) text ↔
      ∃ t rest, text = t :: rest ∧ (c = DOT ∨ c = t) ∧ Starts (atoms, stop) rest := by
  rw [starts_cons]
  constructor
  · rintro ⟨_, post, rfl, ⟨t, ht, rfl⟩, hpost⟩
    exact ⟨t, post, rfl, (Cls.has_of.mp ht).symm.imp_right Eq.symm, hpost⟩
  · rintro ⟨t, rest, rfl, ht, hrest⟩
    exact ⟨[t], rest, rfl, ⟨t, Cls.has_of.mpr (ht.symm.imp_left Eq.symm), rfl⟩, hrest⟩

lemma matchhere_star (c : UInt8) (re text : List UInt8) :
    matchhere (c :: STAR :: re) text = matchstar c re text := by
  cases text with
  | nil => rw [matchhere, if_pos (show (STAR :: re).headD 0 = STAR from rfl), List.tail_cons]
  | cons t text => rw [matchhere, if_pos (show (STAR :: re).headD 0 = STAR from rfl), List.tail_cons]

lemma matchhere_stop (text : List UInt8) : matchhere [DOLLAR] text = true ↔ text = [] := by
  cases text with
  | nil =>
    rw [matchhere, if_neg (by decide), if_pos (by decide)]
    exact decide_eq_true_iff
  | cons t text =>
    rw [matchhere, if_neg (by decide), if_pos (by decide)]
    exact decide_eq_true_iff

/-- The last branch of `matchhere`: one character of the pattern and one of the text. -/
lemma matchhere_one (hstar : re.headD 0 ≠ STAR)
    (hstop : ¬(c = DOLLAR ∧ re = [])) : matchhere (c :: re) text = true ↔
      ∃ t rest, text = t :: rest ∧ (c = DOT ∨ c = t) ∧ matchhere re rest = true := by
  cases text with
  | nil =>
    rw [matchhere, if_neg hstar, if_neg hstop]
    exact iff_of_false Bool.false_ne_true (fun ⟨_, _, h, _⟩ => by cases h)
  | cons t text =>
    rw [matchhere, if_neg hstar, if_neg hstop]
    constructor
    · intro h
      split at h
      · next hc =>
        exact ⟨t, text, rfl, hc, h⟩
      · cases h
    · rintro ⟨t', rest, heq, hc, h⟩
      obtain ⟨rfl, rfl⟩ := List.cons.inj heq
      rwa [if_pos hc]

/-- **`matchhere`** follows the atoms, by induction on how they are read. -/
lemma matchhere_iff (re : List UInt8) :
    ∀ text, matchhere re text = true ↔ Starts (readAtoms re) text := by
  induction re using readAtoms.induct with
  | case1 =>
    intro text
    rw [matchhere, readAtoms, starts_nil]
    exact iff_of_true rfl (fun h => by cases h)
  | case2 =>
    intro text
    rw [readAtoms, if_pos rfl, starts_nil, matchhere_stop]
    exact ⟨fun h _ => h, fun h => h rfl⟩
  | case3 c hc =>
    intro text
    rw [readAtoms, if_neg hc, starts_one, matchhere_one (by decide) (fun h => hc h.1)]
    refine exists_congr (fun t => exists_congr (fun rest => ?_))
    rw [starts_nil, matchhere]
    simp only [Bool.false_eq_true, false_imp_iff, and_true]
  | case4 c re ih =>
    intro text
    rw [readAtoms, if_pos rfl, starts_cons, matchhere_star, matchstar_iff]
    simp only [ih, Prod.mk.eta]
  | case5 c d re hd ih =>
    intro text
    have hstar : (d :: re).headD 0 ≠ STAR := hd
    rw [readAtoms, if_neg hd, starts_one, matchhere_one hstar (fun h => by cases h.2)]
    simp only [ih, Prod.mk.eta]

/-! ## Anywhere in the text -/

/-- **The loop of `match`** tries every place of the text, its end included. -/
lemma matchFrom_iff :
    matchFrom re text = true ↔ ∃ pre post, text = pre ++ post ∧ matchhere re post = true := by
  induction text with
  | nil =>
    rw [matchFrom]
    constructor
    · exact fun h => ⟨[], [], rfl, h⟩
    · rintro ⟨pre, post, heq, h⟩
      obtain ⟨rfl, rfl⟩ := List.append_eq_nil_iff.mp heq.symm
      exact h
  | cons t text ih =>
    rw [matchFrom]
    by_cases hhere : matchhere re (t :: text) = true
    · rw [if_pos hhere]
      exact iff_of_true rfl ⟨[], t :: text, rfl, hhere⟩
    rw [if_neg hhere, ih]
    constructor
    · rintro ⟨pre, post, rfl, h⟩
      exact ⟨t :: pre, post, rfl, h⟩
    · rintro ⟨pre, post, heq, h⟩
      cases pre with
      | nil => exact absurd ((show t :: text = post from heq) ▸ h) hhere
      | cons s pre =>
        obtain ⟨rfl, rfl⟩ := List.cons.inj heq
        exact ⟨pre, post, rfl, h⟩

/-- **`match` decides the meaning of its pattern**, for every pattern and every text. -/
theorem match_iff_accepts (re text : List UInt8) :
    regMatch re text = true ↔ (Pattern.read re).Accepts text := by
  unfold regMatch Pattern.read Pattern.Accepts
  by_cases hstart : re.headD 0 = CARET
  · rw [if_pos hstart, matchhere_iff]
    simp only [decide_eq_true hstart, if_true, forall_const]
    constructor
    · rintro ⟨word, post, rfl, hword, hpost⟩
      exact ⟨[], word, post, rfl, hword, rfl, hpost⟩
    · rintro ⟨_, word, post, rfl, hword, rfl, hpost⟩
      exact ⟨word, post, rfl, hword, hpost⟩
  rw [if_neg hstart, matchFrom_iff]
  simp only [decide_eq_false hstart, Bool.false_eq_true, if_false, false_imp_iff, true_and,
    matchhere_iff]
  constructor
  · rintro ⟨pre, _, rfl, word, post, rfl, hword, hpost⟩
    exact ⟨pre, word, post, (List.append_assoc ..).symm, hword, hpost⟩
  · rintro ⟨pre, word, post, rfl, hword, hpost⟩
    exact ⟨pre, word ++ post, List.append_assoc .., word, post, rfl, hword, hpost⟩

end Grep
