import ShaderChain.Text.Utf8

/-!
# Decoding around an ASCII byte

A byte below `0x80` is never part of a longer sequence. So it ends whatever sequence is open
before it, stands for its own character, and nothing of what is before it matters for what is
after it (`lossyChars_ascii`), also where the bytes around it are no text at all.
-/

namespace ShaderChain.Utf8

/-- The character of an ASCII byte. -/
def asciiChar (b : UInt8) : Char :=
  Char.ofNat b.toNat

/-- The character of a byte has the number of the byte, also beyond ASCII. -/
theorem asciiChar_toNat (b : UInt8) : (asciiChar b).toNat = b.toNat := by
  have hvalid : b.toNat.isValidChar := Or.inl (Nat.lt_trans b.toNat_lt (by decide))
  rw [asciiChar, Char.ofNat, dif_pos hvalid]
  rfl

/-- Letters and digits are ASCII. -/
theorem ascii_of_isAlphanum {b : UInt8} (h : (asciiChar b).isAlphanum = true) : b < 0x80 := by
  have hnat : (asciiChar b).toNat < 0x80 := by
    delta Char.isAlphanum Char.isAlpha Char.isUpper Char.isLower Char.isDigit at h
    simp only [Bool.or_eq_true, Bool.and_eq_true, decide_eq_true_eq, ge_iff_le,
      UInt32.le_iff_toNat_le] at h
    show (asciiChar b).val.toNat < 0x80
    rcases h with (⟨-, h⟩ | ⟨-, h⟩) | ⟨-, h⟩ <;> exact Nat.lt_of_le_of_lt h (by decide)
  rw [asciiChar_toNat] at hnat
  exact UInt8.lt_iff_toNat_lt.mpr hnat

/-! ## What is open -/

/-- An open sequence goes on with a byte from `0x80` on. -/
def Decoder.Sound (d : Decoder) : Prop :=
  ∀ u ∈ d.inside, 0x80 ≤ u.low

/-- At the start nothing is open. -/
theorem Decoder.sound_fresh : ({} : Decoder).Sound :=
  fun _ hu => nomatch hu

/-- What a first byte opens goes on with a byte from `0x80` on. -/
theorem Lead.low_le {b : UInt8} {u : Unfinished} (h : Lead.ofByte b = .opens u) :
    0x80 ≤ u.low := by
  -- one case for each class of bytes; the narrower second bytes start above `0x80`
  unfold Lead.ofByte at h
  dsimp only at h
  repeat' split at h
  all_goals simp only [reduceCtorEq, Lead.opens.injEq] at h
  all_goals subst h; dsimp only; decide

/-- What begins with a byte goes on so. -/
theorem Decoder.begin_sound (read : List (Option Char)) (b : UInt8) :
    (Decoder.begin read b).Sound := by
  intro u hu
  unfold Decoder.begin at hu
  cases hlead : Lead.ofByte b with
  | ascii c => simp [hlead] at hu
  | stray => simp [hlead] at hu
  | opens v =>
    simp only [hlead, Option.mem_def, Option.some.injEq] at hu
    exact hu ▸ Lead.low_le hlead

/-- Every byte leaves a decoder sound, whatever it was before. -/
theorem Decoder.step_sound (d : Decoder) (b : UInt8) : (d.step b).Sound := by
  unfold Decoder.step
  cases hin : d.inside with
  | none => exact begin_sound _ _
  | some u =>
    by_cases hrange : u.low ≤ b ∧ b ≤ u.high
    · simp only [hrange, and_self, if_true]
      split
      · exact fun v hv => nomatch hv
      · exact fun v hv => nomatch hv
      · intro v hv
        obtain rfl := Option.some.inj hv
        exact UInt8.le_refl 0x80
    · simp only [hrange, if_false]
      exact begin_sound _ _

/-- What is open after any bytes goes on with a byte from `0x80` on. -/
theorem feed_sound {d : Decoder} (h : d.Sound) (bs : Bytes) : (feed d bs).Sound := by
  induction bs generalizing d with
  | nil => exact h
  | cons b rest ih => exact ih (d.step_sound b)

/-! ## What has been read before -/

/-- The decoder with more read before. -/
def Decoder.onto (d : Decoder) (past : List (Option Char)) : Decoder :=
  { d with read := d.read ++ past }

theorem Decoder.begin_onto (read past : List (Option Char)) (b : UInt8) :
    Decoder.begin (read ++ past) b = (Decoder.begin read b).onto past := by
  unfold Decoder.begin
  cases Lead.ofByte b <;> rfl

/-- One byte is read in the same way, whatever was read before. -/
theorem Decoder.step_onto (d : Decoder) (past : List (Option Char)) (b : UInt8) :
    (d.onto past).step b = (d.step b).onto past := by
  unfold Decoder.step
  cases hin : d.inside with
  | none => simp [onto, hin, begin_onto]
  | some u =>
    by_cases hrange : u.low ≤ b ∧ b ≤ u.high
    · simp only [onto, hin, hrange, and_self, if_true]
      split <;> rfl
    · simp only [onto, hin, hrange, if_false]
      exact begin_onto (none :: d.read) past b

/-- How bytes are read does not depend on what was read before. -/
theorem feed_onto (d : Decoder) (past : List (Option Char)) (bs : Bytes) :
    feed (d.onto past) bs = (feed d bs).onto past := by
  induction bs generalizing d with
  | nil => rfl
  | cons b rest ih =>
    show feed ((d.onto past).step b) rest = _
    rw [Decoder.step_onto, ih]
    rfl

/-- What was read before stands in front of the outcome. -/
theorem Decoder.finish_onto (d : Decoder) (past : List (Option Char)) :
    (d.onto past).finish = past.reverse ++ d.finish := by
  unfold Decoder.finish
  cases hin : d.inside <;> simp [onto, hin]

/-! ## An ASCII byte -/

/-- An ASCII byte ends what is open, and is read as its character. -/
theorem Decoder.Sound.step_ascii {d : Decoder} (h : d.Sound) {b : UInt8} (hb : b < 0x80) :
    d.step b = ({ read := [some (asciiChar b)] } : Decoder).onto d.finish.reverse := by
  have hlead : Lead.ofByte b = .ascii (asciiChar b) := by
    have hn : b.toNat < 0x80 := UInt8.lt_iff_toNat_lt.mp hb
    simp [Lead.ofByte, hn, asciiChar]
  unfold Decoder.step Decoder.finish
  cases hin : d.inside with
  | none => simp [Decoder.begin, hlead, onto]
  | some u =>
    -- no open sequence goes on with a byte below `0x80`
    have hout : ¬ (u.low ≤ b ∧ b ≤ u.high) := fun hr =>
      UInt8.not_le.mpr (UInt8.lt_of_lt_of_le hb (h u hin)) hr.1
    simp [Decoder.begin, hlead, onto, hout]

/-- Bytes around an ASCII byte are decoded apart from each other. -/
theorem decode_ascii (before after : Bytes) {b : UInt8} (hb : b < 0x80) :
    decode (before ++ b :: after) = decode before ++ some (asciiChar b) :: decode after := by
  -- the byte closes what `before` left open, so `after` is read as by a fresh decoder
  have hsound : (feed {} before).Sound := feed_sound Decoder.sound_fresh before
  have hread : feed {} (before ++ b :: after) =
      (feed {} after).onto (some (asciiChar b) :: (decode before).reverse) := by
    rw [feed_append]
    show feed ((feed {} before).step b) after = _
    rw [hsound.step_ascii hb]
    exact feed_onto {} _ after
  unfold decode at hread ⊢
  rw [hread, Decoder.finish_onto]
  simp

/-- An ASCII byte stands for its character, and divides what is before it from what is after. -/
theorem lossyChars_ascii (before after : Bytes) {b : UInt8} (hb : b < 0x80) :
    lossyChars (before ++ b :: after) =
      lossyChars before ++ asciiChar b :: lossyChars after := by
  simp [lossyChars, decode_ascii before after hb]

theorem lossyChars_cons_ascii {b : UInt8} (hb : b < 0x80) (after : Bytes) :
    lossyChars (b :: after) = asciiChar b :: lossyChars after :=
  lossyChars_ascii [] after hb

/-- Bytes that are all ASCII stand for their own characters. -/
theorem lossyChars_of_ascii {bs : Bytes} (h : ∀ b ∈ bs, b < 0x80) :
    lossyChars bs = bs.map asciiChar := by
  induction bs with
  | nil => rfl
  | cons b rest ih =>
    rw [lossyChars_cons_ascii (h b List.mem_cons_self),
      ih fun c hc => h c (List.mem_cons_of_mem b hc)]
    rfl

end ShaderChain.Utf8
