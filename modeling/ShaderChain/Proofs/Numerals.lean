import ShaderChain.Text.Numeral

/-!
# Which texts are numbers

A numeral is one or more digits, with a `+` in front or without. A text is read as a number exactly if
it is a numeral whose value fits (`Decimal.parse_eq_ok_iff`). What is wrong with any other text is
found from the left, and there is one such cause (`Decimal.parse_eq_error_iff`): it is empty, there is
nothing behind its sign, digits that fit have another character behind them, or its first digits
alone are too large, whatever is behind them.

The value of digits is `Nat.ofDigitChars`, which says nothing of a width. That a value once too large
stays so whatever digits follow is `Decimal.le_ofDigitChars`.
-/

namespace ShaderChain.Decimal

variable {bits n m : Nat} {c : Char} {cs ds : List Char} {f : Fault} {s : String}

/-! ## Digits -/

theorem digit?_of_isDigit (h : c.isDigit = true) : digit? c = some (c.toNat - '0'.toNat) :=
  if_pos h

theorem digit?_of_not_isDigit (h : c.isDigit = false) : digit? c = none :=
  if_neg (by simp [h])

/-- A digit is taken into the value, unless this no longer fits. -/
theorem digits_cons_digit (hc : c.isDigit = true) (bits n : Nat) (cs : List Char) :
    digits bits n (c :: cs) =
      if 10 * n + (c.toNat - '0'.toNat) < Nat.pow 2 bits then
        digits bits (10 * n + (c.toNat - '0'.toNat)) cs
      else .error .tooLarge := by
  rw [digits, digit?_of_isDigit hc, Nat.mul_comm n 10]

/-- Any other character stops the reading. -/
theorem digits_cons_stray (hc : c.isDigit = false) (bits n : Nat) (cs : List Char) :
    digits bits n (c :: cs) = .error .invalidDigit := by
  rw [digits, digit?_of_not_isDigit hc]

/-- More digits do not make a value smaller. -/
theorem le_ofDigitChars (n : Nat) (ds : List Char) : n ≤ Nat.ofDigitChars 10 ds n := by
  induction ds generalizing n with
  | nil => exact Nat.le_refl n
  | cons d ds ih =>
    rw [Nat.ofDigitChars_cons]
    have := ih (10 * n + (d.toNat - '0'.toNat))
    omega

/-- What is wrong with the characters behind digits of value `n`. -/
inductive Flawed (bits n : Nat) : List Char → Fault → Prop
  /-- Digits whose value fits are followed by another character. -/
  | stray {ds : List Char} {c : Char} {rest : List Char} (hds : ∀ d ∈ ds, d.isDigit = true)
    (hc : c.isDigit = false) (hfits : Nat.ofDigitChars 10 ds n < Nat.pow 2 bits) :
    Flawed bits n (ds ++ c :: rest) .invalidDigit
  /-- The value of the first digits does not fit. -/
  | large {ds rest : List Char} (hds : ∀ d ∈ ds, d.isDigit = true)
    (hlarge : Nat.pow 2 bits ≤ Nat.ofDigitChars 10 ds n) : Flawed bits n (ds ++ rest) .tooLarge

/-- A flaw behind a digit is one behind the digit and what is before it. -/
theorem Flawed.cons (hc : c.isDigit = true)
    (h : Flawed bits (10 * n + (c.toNat - '0'.toNat)) cs f) : Flawed bits n (c :: cs) f := by
  cases h with
  | stray hds hstray hfits => exact .stray (List.forall_mem_cons.mpr ⟨hc, hds⟩) hstray hfits
  | large hds hlarge => exact .large (List.forall_mem_cons.mpr ⟨hc, hds⟩) hlarge

/-- Another character behind digits that fit is found. -/
theorem digits_of_stray {rest : List Char} (hds : ∀ d ∈ ds, d.isDigit = true)
    (hc : c.isDigit = false) (hfits : Nat.ofDigitChars 10 ds n < Nat.pow 2 bits) :
    digits bits n (ds ++ c :: rest) = .error .invalidDigit := by
  induction ds generalizing n with
  | nil => exact digits_cons_stray hc bits n rest
  | cons d ds ih =>
    obtain ⟨hd, hds⟩ := List.forall_mem_cons.mp hds
    rw [Nat.ofDigitChars_cons] at hfits
    -- what fits in the end fits at every digit
    have hstep := Nat.lt_of_le_of_lt (le_ofDigitChars _ ds) hfits
    rw [List.cons_append, digits_cons_digit hd, if_pos hstep]
    exact ih hds hfits

/-- Digits that do not fit are found, whatever is behind them. -/
theorem digits_of_large {rest : List Char} (hn : n < Nat.pow 2 bits)
    (hds : ∀ d ∈ ds, d.isDigit = true) (hlarge : Nat.pow 2 bits ≤ Nat.ofDigitChars 10 ds n) :
    digits bits n (ds ++ rest) = .error .tooLarge := by
  induction ds generalizing n with
  | nil => exact absurd hn (Nat.not_lt_of_le hlarge)
  | cons d ds ih =>
    obtain ⟨hd, hds⟩ := List.forall_mem_cons.mp hds
    rw [List.cons_append, digits_cons_digit hd]
    by_cases hstep : 10 * n + (d.toNat - '0'.toNat) < Nat.pow 2 bits
    · rw [if_pos hstep]
      exact ih hstep hds hlarge
    · exact if_neg hstep

/-- Digits are read up to the first flaw. -/
theorem digits_eq_error_iff (hn : n < Nat.pow 2 bits) :
    digits bits n cs = .error f ↔ Flawed bits n cs f := by
  constructor
  · intro h
    induction cs generalizing n with
    | nil => cases h
    | cons c cs ih =>
      cases hc : c.isDigit with
      | false =>
        rw [digits_cons_stray hc] at h
        obtain rfl := Except.error.inj h
        exact .stray (List.forall_mem_nil _) hc hn
      | true =>
        rw [digits_cons_digit hc] at h
        by_cases hstep : 10 * n + (c.toNat - '0'.toNat) < Nat.pow 2 bits
        · rw [if_pos hstep] at h
          exact (ih hstep h).cons hc
        · rw [if_neg hstep] at h
          -- the first digits up to this one are already too large
          obtain rfl := Except.error.inj h
          have hflawed : Flawed bits n ([c] ++ cs) .tooLarge :=
            .large (List.forall_mem_singleton.mpr hc) (Nat.le_of_not_lt hstep)
          exact hflawed
  · intro h
    cases h with
    | stray hds hc hfits => exact digits_of_stray hds hc hfits
    | large hds hlarge => exact digits_of_large hn hds hlarge

/-- Digits are read as their value if it fits. -/
theorem digits_eq_ok_iff (hn : n < Nat.pow 2 bits) : digits bits n cs = .ok m ↔
    (∀ c ∈ cs, c.isDigit = true) ∧ Nat.ofDigitChars 10 cs n = m ∧ m < Nat.pow 2 bits := by
  constructor
  · intro h
    induction cs generalizing n with
    | nil =>
      obtain rfl := Except.ok.inj h
      exact ⟨List.forall_mem_nil _, rfl, hn⟩
    | cons c cs ih =>
      cases hc : c.isDigit with
      | false =>
        rw [digits_cons_stray hc] at h
        cases h
      | true =>
        rw [digits_cons_digit hc] at h
        by_cases hstep : 10 * n + (c.toNat - '0'.toNat) < Nat.pow 2 bits
        · rw [if_pos hstep] at h
          obtain ⟨hcs, hvalue, hm⟩ := ih hstep h
          exact ⟨List.forall_mem_cons.mpr ⟨hc, hcs⟩, hvalue, hm⟩
        · rw [if_neg hstep] at h
          cases h
  · rintro ⟨hcs, rfl, hm⟩
    induction cs generalizing n with
    | nil => rfl
    | cons c cs ih =>
      obtain ⟨hc, hcs⟩ := List.forall_mem_cons.mp hcs
      rw [Nat.ofDigitChars_cons] at hm ⊢
      have hstep := Nat.lt_of_le_of_lt (le_ofDigitChars _ cs) hm
      rw [digits_cons_digit hc, if_pos hstep]
      exact ih hstep hcs hm

/-! ## Numerals -/

/-- One or more digits of this value, with a `+` in front or without. -/
def Numeral (s : String) (n : Nat) : Prop :=
  ∃ ds, (s.toList = ds ∨ s.toList = '+' :: ds) ∧ ds ≠ [] ∧ (∀ d ∈ ds, d.isDigit = true) ∧
    Nat.ofDigitChars 10 ds 0 = n

/-- The characters behind the sign, or all of them if there is no sign. -/
def unsigned (s : String) : List Char :=
  match s.toList with
  | '+' :: rest => rest
  | cs => cs

/-- Why a text is not a numeral that fits. -/
inductive Faulty (bits : Nat) (s : String) : Fault → Prop
  | empty (h : s = "") : Faulty bits s .empty
  /-- There is a sign and nothing else. -/
  | unfinished (h : s = "+") : Faulty bits s .invalidDigit
  | flawed {f : Fault} (h : Flawed bits 0 (unsigned s) f) : Faulty bits s f

theorem unsigned_plus {rest : List Char} (h : s.toList = '+' :: rest) : unsigned s = rest := by
  unfold unsigned
  rw [h]
  rfl

theorem unsigned_bare (h : ∀ rest, s.toList ≠ '+' :: rest) : unsigned s = s.toList := by
  unfold unsigned
  split
  · next rest hplus => exact absurd hplus (h rest)
  · rfl

/-- A text is empty, or only a sign, or else what is behind the sign is read as digits. -/
theorem parse_cases (bits : Nat) (s : String) :
    (s = "" ∧ parse bits s = .error .empty) ∨ (s = "+" ∧ parse bits s = .error .invalidDigit) ∨
      unsigned s ≠ [] ∧ parse bits s = digits bits 0 (unsigned s) := by
  unfold parse
  split
  · next h => exact .inl ⟨String.toList_eq_nil_iff.mp h, rfl⟩
  · next h => exact .inr (.inl ⟨String.toList_inj.mp h, rfl⟩)
  · next rest hne h =>
    rw [unsigned_plus h]
    exact .inr (.inr ⟨hne, rfl⟩)
  · next hne _ hplus =>
    rw [unsigned_bare hplus]
    exact .inr (.inr ⟨hne, rfl⟩)

/-- Digits are what is behind the sign, if there are any. -/
theorem unsigned_eq (hds : ∀ d ∈ ds, d.isDigit = true)
    (h : s.toList = ds ∨ s.toList = '+' :: ds) : unsigned s = ds := by
  rcases h with h | h
  · rw [unsigned_bare, h]
    rintro rest hplus
    rw [h] at hplus
    subst hplus
    -- digits do not begin with a sign, so nothing is taken off them
    have hsign : '+'.isDigit = true := hds '+' List.mem_cons_self
    exact absurd hsign (by decide)
  · exact unsigned_plus h

/-- A numeral is digits behind its sign, or digits alone. -/
theorem numeral_iff : Numeral s n ↔ unsigned s ≠ [] ∧ (∀ d ∈ unsigned s, d.isDigit = true) ∧
    Nat.ofDigitChars 10 (unsigned s) 0 = n := by
  constructor
  · rintro ⟨ds, hs, hne, hds, hvalue⟩
    rw [unsigned_eq hds hs]
    exact ⟨hne, hds, hvalue⟩
  · intro h
    refine ⟨unsigned s, ?_, h⟩
    by_cases hplus : ∃ rest, s.toList = '+' :: rest
    · obtain ⟨rest, hplus⟩ := hplus
      rw [unsigned_plus hplus]
      exact .inr hplus
    · rw [unsigned_bare fun rest hrest => hplus ⟨rest, hrest⟩]
      exact .inl rfl

/-- The numerals that fit are read, as what they stand for. -/
theorem parse_eq_ok_iff : parse bits s = .ok n ↔ Numeral s n ∧ n < Nat.pow 2 bits := by
  rw [numeral_iff]
  rcases parse_cases bits s with ⟨rfl, hparse⟩ | ⟨rfl, hparse⟩ | ⟨hne, hparse⟩
  · rw [hparse]
    exact ⟨nofun, fun h => absurd rfl h.1.1⟩
  · rw [hparse]
    exact ⟨nofun, fun h => absurd rfl h.1.1⟩
  · rw [hparse, digits_eq_ok_iff (Nat.two_pow_pos bits)]
    simp only [ne_eq, hne, not_false_eq_true, true_and, and_assoc]

theorem not_flawed_nil : ¬ Flawed bits 0 [] f := by
  intro h
  have hdigits := (digits_eq_error_iff (Nat.two_pow_pos bits)).mpr h
  cases hdigits

/-- Any other text is refused for the one thing that is wrong with it. -/
theorem parse_eq_error_iff : parse bits s = .error f ↔ Faulty bits s f := by
  rcases parse_cases bits s with ⟨rfl, hparse⟩ | ⟨rfl, hparse⟩ | ⟨hne, hparse⟩
  · rw [hparse]
    constructor
    · intro h
      obtain rfl := Except.error.inj h
      exact .empty rfl
    · rintro (_ | h | h)
      · rfl
      · exact absurd h (by decide)
      · exact absurd h not_flawed_nil
  · rw [hparse]
    constructor
    · intro h
      obtain rfl := Except.error.inj h
      exact .unfinished rfl
    · rintro (h | _ | h)
      · exact absurd h (by decide)
      · rfl
      · exact absurd h not_flawed_nil
  · rw [hparse, digits_eq_error_iff (Nat.two_pow_pos bits)]
    constructor
    · exact .flawed
    · rintro (rfl | rfl | h)
      · exact absurd rfl hne
      · exact absurd rfl hne
      · exact h

end ShaderChain.Decimal
