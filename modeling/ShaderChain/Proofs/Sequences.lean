import ShaderChain.Proofs.Decoding
import Mathlib.Data.List.Basic
import Mathlib.Data.List.Forall2
import Mathlib.Tactic.SplitIfs

/-!
# The sequences of UTF-8

A first byte and an open sequence tell which bytes can follow (`Unfinished.Fits`). These are exactly
the bytes of the characters: a sequence that is complete is the character of its value
(`exists_char_of_fits`), every character is such a sequence (`lead_of_encodeChar`), and the bytes
with which some character begins are those that fit (`prefix_encodeChar_iff`). The arithmetic is
done on the numbers of the bytes (`numbers`), where it is linear.

`WellFormed` says without characters which bytes are text: sequences of a `table` of ranges, one
after another. They are the bytes of characters (`wellFormed_iff`).
-/

namespace ShaderChain.Utf8

variable {b : UInt8} {bs p q tail : Bytes} {u : Unfinished} {c : Char} {n : Nat}

/-! ## The bytes of a character -/

/-- The bytes of the character with this number, as numbers. -/
def numbers (n : Nat) : List Nat :=
  if n < 0x80 then [n]
  else if n < 0x800 then [0xC0 + n / 64, 0x80 + n % 64]
  else if n < 0x10000 then [0xE0 + n / 4096, 0x80 + n / 64 % 64, 0x80 + n % 64]
  else [0xF0 + n / 262144, 0x80 + n / 4096 % 64, 0x80 + n / 64 % 64, 0x80 + n % 64]

/-- The bytes of a character have these numbers. -/
theorem map_toNat_encodeChar (c : Char) :
    (String.utf8EncodeChar c).map UInt8.toNat = numbers c.toNat := by
  have hvalid : c.toNat.isValidChar := c.valid
  unfold Nat.isValidChar at hvalid
  unfold String.utf8EncodeChar numbers
  rw [show c.val.toNat = c.toNat from rfl]
  dsimp only
  generalize c.toNat = n at hvalid ⊢
  split_ifs <;>
    simp only [List.map_cons, List.map_nil, UInt8.toNat_ofNat', List.cons.injEq, reduceCtorEq,
      and_true] <;>
    omega

/-- Bytes are those of a character exactly if their numbers are. -/
theorem encodeChar_eq_iff :
    String.utf8EncodeChar c = bs ↔ bs.map UInt8.toNat = numbers c.toNat := by
  rw [← map_toNat_encodeChar, eq_comm]
  exact (List.map_inj_right fun _ _ => UInt8.toNat_inj.mp).symm

theorem encodeChar_asciiChar (h : b.toNat < 0x80) : String.utf8EncodeChar (asciiChar b) = [b] := by
  rw [encodeChar_eq_iff, asciiChar_toNat, numbers, if_pos h]
  rfl

/-! ## Open sequences -/

namespace Unfinished

/-- The open sequence with one more byte read. -/
def follow (u : Unfinished) (b : UInt8) : Unfinished where
  value := u.value * 64 + (b.toNat - 0x80)
  missing := u.missing - 1

@[simp] theorem follow_value (u : Unfinished) (b : UInt8) :
    (u.follow b).value = u.value * 64 + (b.toNat - 0x80) := rfl

@[simp] theorem follow_missing (u : Unfinished) (b : UInt8) :
    (u.follow b).missing = u.missing - 1 := rfl

@[simp] theorem follow_low (u : Unfinished) (b : UInt8) : (u.follow b).low.toNat = 0x80 := rfl

@[simp] theorem follow_high (u : Unfinished) (b : UInt8) : (u.follow b).high.toNat = 0xBF := rfl

/-- Bytes with which an open sequence goes on. -/
def Fits (u : Unfinished) : Bytes → Prop
  | [] => True
  | b :: rest => u.missing ≠ 0 ∧ (u.low ≤ b ∧ b ≤ u.high) ∧ (u.follow b).Fits rest

/-- What begins like bytes that fit fits as well. -/
theorem Fits.of_append (h : u.Fits (p ++ q)) : u.Fits p := by
  induction p generalizing u with
  | nil => trivial
  | cons b p ih => exact ⟨h.1, h.2.1, ih h.2.2⟩

/-- An open sequence can always be completed, for some byte is in range at each place. -/
theorem Fits.exists_completion (hrange : u.low ≤ u.high) (h : u.Fits p) :
    ∃ q, u.Fits (p ++ q) ∧ (p ++ q).length = u.missing := by
  induction p generalizing u with
  | nil =>
    -- the least byte in range, as often as bytes are missing
    induction hmissing : u.missing generalizing u with
    | zero => exact ⟨[], trivial, rfl⟩
    | succ n ih =>
      have hfollow : (u.follow u.low).low ≤ (u.follow u.low).high :=
        UInt8.le_iff_toNat_le.mpr (by simp)
      obtain ⟨q, hfits, hlen⟩ := ih hfollow trivial (by simp [hmissing])
      refine ⟨u.low :: q, ⟨by omega, ⟨UInt8.le_refl _, hrange⟩, hfits⟩, ?_⟩
      simpa using hlen
  | cons b p ih =>
    have hfollow : (u.follow b).low ≤ (u.follow b).high := UInt8.le_iff_toNat_le.mpr (by simp)
    obtain ⟨q, hfits, hlen⟩ := ih hfollow h.2.2
    refine ⟨q, ⟨h.1, h.2.1, hfits⟩, ?_⟩
    have := h.1
    simp only [follow_missing] at hlen
    simp only [List.cons_append, List.length_cons]
    omega

end Unfinished

/-- The bytes that stand for such a beginning. -/
def Lead.Of (b : UInt8) : Lead → Prop
  | .ascii c => b.toNat < 0x80 ∧ c = asciiChar b
  | .stray => 0x80 ≤ b.toNat ∧ b.toNat < 0xC2 ∨ 0xF5 ≤ b.toNat
  | .opens u =>
    u.missing = 1 ∧ 0xC2 ≤ b.toNat ∧ b.toNat < 0xE0 ∧ u.value = b.toNat - 0xC0 ∧
      u.low.toNat = 0x80 ∧ u.high.toNat = 0xBF ∨
    u.missing = 2 ∧ 0xE0 ≤ b.toNat ∧ b.toNat < 0xF0 ∧ u.value = b.toNat - 0xE0 ∧
      (b.toNat = 0xE0 ∧ u.low.toNat = 0xA0 ∨ b.toNat ≠ 0xE0 ∧ u.low.toNat = 0x80) ∧
      (b.toNat = 0xED ∧ u.high.toNat = 0x9F ∨ b.toNat ≠ 0xED ∧ u.high.toNat = 0xBF) ∨
    u.missing = 3 ∧ 0xF0 ≤ b.toNat ∧ b.toNat < 0xF5 ∧ u.value = b.toNat - 0xF0 ∧
      (b.toNat = 0xF0 ∧ u.low.toNat = 0x90 ∨ b.toNat ≠ 0xF0 ∧ u.low.toNat = 0x80) ∧
      (b.toNat = 0xF4 ∧ u.high.toNat = 0x8F ∨ b.toNat ≠ 0xF4 ∧ u.high.toNat = 0xBF)

/-- Each first byte stands for a beginning of its class. -/
theorem Lead.of_ofByte {lead : Lead} (h : Lead.ofByte b = lead) : lead.Of b := by
  subst h
  unfold ofByte
  dsimp only
  -- one case for each class of bytes
  repeat' split
  all_goals simp only [Of, asciiChar, and_true, true_and, UInt8.toNat_ofNat]
  all_goals omega

/-- An open sequence that is complete is the character of its value. -/
theorem exists_char_of_fits (hlead : Lead.ofByte b = .opens u) (hfits : u.Fits tail)
    (hlen : tail.length = u.missing) :
    ∃ c : Char, c.toNat = (tail.foldl Unfinished.follow u).value ∧
      String.utf8EncodeChar c = b :: tail := by
  have hnumbers : (tail.foldl Unfinished.follow u).value.isValidChar ∧
      (b :: tail).map UInt8.toNat = numbers (tail.foldl Unfinished.follow u).value := by
    -- one case for each length; the value is spelled out before `numbers` is opened
    rcases Lead.of_ofByte hlead with ⟨hmissing, hopens⟩ | ⟨hmissing, hopens⟩ | ⟨hmissing, hopens⟩
    · obtain ⟨x, rfl⟩ := List.length_eq_one_iff.mp (hlen.trans hmissing)
      simp only [Unfinished.Fits, UInt8.le_iff_toNat_le] at hfits
      simp only [List.foldl_cons, List.foldl_nil, List.map_cons, List.map_nil,
        Unfinished.follow_value]
      unfold numbers Nat.isValidChar
      rw [if_neg (by omega), if_pos (by omega)]
      simp only [List.cons.injEq, and_true]
      omega
    · obtain ⟨x, y, rfl⟩ := List.length_eq_two.mp (hlen.trans hmissing)
      simp only [Unfinished.Fits, UInt8.le_iff_toNat_le, Unfinished.follow_low,
        Unfinished.follow_high] at hfits
      simp only [List.foldl_cons, List.foldl_nil, List.map_cons, List.map_nil,
        Unfinished.follow_value]
      unfold numbers Nat.isValidChar
      rw [if_neg (by omega), if_neg (by omega), if_pos (by omega)]
      simp only [List.cons.injEq, and_true]
      omega
    · obtain ⟨x, y, z, rfl⟩ := List.length_eq_three.mp (hlen.trans hmissing)
      simp only [Unfinished.Fits, UInt8.le_iff_toNat_le, Unfinished.follow_missing,
        Unfinished.follow_low, Unfinished.follow_high] at hfits
      simp only [List.foldl_cons, List.foldl_nil, List.map_cons, List.map_nil,
        Unfinished.follow_value]
      unfold numbers Nat.isValidChar
      rw [if_neg (by omega), if_neg (by omega), if_neg (by omega)]
      simp only [List.cons.injEq, and_true]
      omega
  obtain ⟨hvalid, hbytes⟩ := hnumbers
  have hnumber : (Char.ofNat (tail.foldl Unfinished.follow u).value).toNat =
      (tail.foldl Unfinished.follow u).value := by
    rw [Char.ofNat, dif_pos hvalid]
    rfl
  exact ⟨_, hnumber, encodeChar_eq_iff.mpr (hnumber.symm ▸ hbytes)⟩

/-- The first byte of a character tells how many bytes the character has, and which. -/
theorem lead_of_encodeChar (h : String.utf8EncodeChar c = b :: tail) :
    Lead.ofByte b = .ascii c ∧ tail = [] ∨
      ∃ u, Lead.ofByte b = .opens u ∧ u.Fits tail ∧ tail.length = u.missing := by
  have hvalid : c.toNat.isValidChar := c.valid
  have hnumbers := encodeChar_eq_iff.mp h
  unfold Nat.isValidChar at hvalid
  unfold numbers at hnumbers
  cases hlead : Lead.ofByte b with
  | ascii d =>
    obtain ⟨hb, rfl⟩ := Lead.of_ofByte hlead
    split_ifs at hnumbers <;> simp only [List.map_cons, List.cons.injEq] at hnumbers
    · have hc : asciiChar b = c := Char.toNat_inj.mp ((asciiChar_toNat b).trans hnumbers.1)
      exact .inl ⟨by rw [hc], List.map_eq_nil_iff.mp hnumbers.2⟩
    all_goals omega
  | stray =>
    have hstray : Lead.Of b .stray := Lead.of_ofByte hlead
    unfold Lead.Of at hstray
    split_ifs at hnumbers <;> simp only [List.map_cons, List.cons.injEq] at hnumbers <;> omega
  | opens u =>
    refine .inr ⟨u, rfl, ?_⟩
    have hopens : Lead.Of b (.opens u) := Lead.of_ofByte hlead
    unfold Lead.Of at hopens
    split_ifs at hnumbers <;>
      simp only [List.map_cons, List.cons.injEq, List.map_eq_cons_iff, List.map_eq_nil_iff]
        at hnumbers
    · omega
    · obtain ⟨hb, x, _, rfl, hx, rfl⟩ := hnumbers
      simp only [Unfinished.Fits, UInt8.le_iff_toNat_le, List.length_cons, List.length_nil,
        and_true]
      omega
    · obtain ⟨hb, x, _, rfl, hx, y, _, rfl, hy, rfl⟩ := hnumbers
      simp only [Unfinished.Fits, UInt8.le_iff_toNat_le, List.length_cons, List.length_nil,
        Unfinished.follow_missing, Unfinished.follow_low, Unfinished.follow_high, and_true]
      omega
    · obtain ⟨hb, x, _, rfl, hx, y, _, rfl, hy, z, _, rfl, hz, rfl⟩ := hnumbers
      simp only [Unfinished.Fits, UInt8.le_iff_toNat_le, List.length_cons, List.length_nil,
        Unfinished.follow_missing, Unfinished.follow_low, Unfinished.follow_high, and_true]
      omega

/-- No character's bytes begin with another's. -/
theorem encodeChar_append_inj {c d : Char}
    (h : String.utf8EncodeChar c ++ p = String.utf8EncodeChar d ++ q) : c = d := by
  have hfirst (e : Char) (r : Bytes) :
      (String.utf8EncodeChar e ++ r).toByteArray.utf8DecodeChar? 0 = some e := by
    rw [List.toByteArray_append, ← List.utf8Encode_singleton]
    exact List.utf8DecodeChar?_utf8Encode_singleton_append
  exact Option.some.inj ((hfirst c p).symm.trans (h ▸ hfirst d q))

/-- The bytes with which some character begins: an ASCII byte, or a byte that opens a sequence
and then bytes that fit. -/
theorem prefix_encodeChar_iff :
    (∃ c, b :: q <+: String.utf8EncodeChar c) ↔
      b.toNat < 0x80 ∧ q = [] ∨ ∃ u, Lead.ofByte b = .opens u ∧ u.Fits q := by
  constructor
  · rintro ⟨c, tail, htail⟩
    rcases lead_of_encodeChar htail.symm with ⟨hlead, hq⟩ | ⟨u, hlead, hfits, -⟩
    · exact .inl ⟨(Lead.of_ofByte hlead).1, (List.append_eq_nil_iff.mp hq).1⟩
    · exact .inr ⟨u, hlead, hfits.of_append⟩
  · rintro (⟨hb, rfl⟩ | ⟨u, hlead, hfits⟩)
    · exact ⟨asciiChar b, encodeChar_asciiChar hb ▸ List.prefix_rfl⟩
    · have hrange : u.low ≤ u.high := by
        have hopens : Lead.Of b (.opens u) := Lead.of_ofByte hlead
        unfold Lead.Of at hopens
        rw [UInt8.le_iff_toNat_le]
        omega
      obtain ⟨r, hfull, hlen⟩ := hfits.exists_completion hrange
      obtain ⟨c, -, hc⟩ := exists_char_of_fits hlead hfull hlen
      exact ⟨c, r, hc.symm⟩

/-! ## The table of the sequences -/

/-- A byte of this range. -/
def Within (range : UInt8 × UInt8) (b : UInt8) : Prop :=
  range.1 ≤ b ∧ b ≤ range.2

instance (range : UInt8 × UInt8) (b : UInt8) : Decidable (Within range b) :=
  inferInstanceAs (Decidable (_ ∧ _))

/-- The well-formed sequences, a row for each kind: the range of the first byte and those of the
bytes after it. -/
def table : List ((UInt8 × UInt8) × List (UInt8 × UInt8)) :=
  [((0x00, 0x7F), []),
   ((0xC2, 0xDF), [(0x80, 0xBF)]),
   ((0xE0, 0xE0), [(0xA0, 0xBF), (0x80, 0xBF)]),
   ((0xE1, 0xEC), [(0x80, 0xBF), (0x80, 0xBF)]),
   ((0xED, 0xED), [(0x80, 0x9F), (0x80, 0xBF)]),
   ((0xEE, 0xEF), [(0x80, 0xBF), (0x80, 0xBF)]),
   ((0xF0, 0xF0), [(0x90, 0xBF), (0x80, 0xBF), (0x80, 0xBF)]),
   ((0xF1, 0xF3), [(0x80, 0xBF), (0x80, 0xBF), (0x80, 0xBF)]),
   ((0xF4, 0xF4), [(0x80, 0x8F), (0x80, 0xBF), (0x80, 0xBF)])]

/-- Bytes in the ranges of a row of the table. -/
def IsSequence (bs : Bytes) : Prop :=
  ∃ row ∈ table, (row.1 :: row.2).Forall₂ Within bs

/-- Sequences of the table, one after another. -/
def WellFormed (bs : Bytes) : Prop :=
  ∃ qs : List Bytes, (∀ q ∈ qs, IsSequence q) ∧ qs.flatten = bs

/-- The ranges of the bytes that complete an open sequence. -/
def Unfinished.ranges (u : Unfinished) : List (UInt8 × UInt8) :=
  match u.missing with
  | 0 => []
  | rest + 1 => (u.low, u.high) :: List.replicate rest (0x80, 0xBF)

theorem Unfinished.ranges_follow (u : Unfinished) (b : UInt8) :
    (u.follow b).ranges = List.replicate (u.missing - 1) (0x80, 0xBF) := by
  unfold ranges
  rw [follow_missing]
  cases u.missing - 1 <;> rfl

/-- The bytes in these ranges are those that fit, as many as are missing. -/
theorem Unfinished.completes_iff :
    u.ranges.Forall₂ Within tail ↔ u.Fits tail ∧ tail.length = u.missing := by
  induction tail generalizing u with
  | nil =>
    unfold ranges
    cases u.missing <;> simp [Fits]
  | cons b tail ih =>
    have hrest := ih (u := u.follow b)
    rw [ranges_follow, follow_missing] at hrest
    unfold ranges Fits
    cases hmissing : u.missing with
    | zero => simp
    | succ n =>
      rw [hmissing, Nat.add_sub_cancel] at hrest
      simp [hrest, Within, and_assoc]

/-- What the ranges of the bytes after a first byte can be. -/
def Lead.rests : Lead → List (List (UInt8 × UInt8))
  | .ascii _ => [[]]
  | .opens u => [u.ranges]
  | .stray => []

/-- The rows of a first byte say what its beginning says. -/
theorem rests_ofByte (b : UInt8) :
    (table.filter (Within ·.1 b)).map Prod.snd = (Lead.ofByte b).rests := by
  -- one row at the most for each of the 256 bytes
  have hall : ∀ n < 256, (table.filter (Within ·.1 (.ofNat n))).map Prod.snd =
      (Lead.ofByte (.ofNat n)).rests := by
    decide +kernel
  simpa only [UInt8.ofNat_toNat] using hall b.toNat b.toNat_lt

/-- So a sequence is a first byte and bytes that complete what it opens. -/
theorem isSequence_cons_iff :
    IsSequence (b :: tail) ↔ ∃ rest ∈ (Lead.ofByte b).rests, rest.Forall₂ Within tail := by
  simp only [← rests_ofByte, List.mem_map, List.mem_filter, decide_eq_true_eq]
  constructor
  · rintro ⟨row, hrow, hbytes⟩
    obtain ⟨hfirst, hrest⟩ := List.forall₂_cons.mp hbytes
    exact ⟨row.2, ⟨row, ⟨hrow, hfirst⟩, rfl⟩, hrest⟩
  · rintro ⟨_, ⟨row, ⟨hrow, hfirst⟩, rfl⟩, hrest⟩
    exact ⟨row, hrow, .cons hfirst hrest⟩

/-- The sequences of the table are the bytes of the characters. -/
theorem isSequence_iff : IsSequence bs ↔ ∃ c, String.utf8EncodeChar c = bs := by
  cases bs with
  | nil =>
    constructor
    · rintro ⟨row, -, hbytes⟩
      cases hbytes
    · rintro ⟨c, hc⟩
      exact absurd hc String.utf8EncodeChar_ne_nil
  | cons b tail =>
    rw [isSequence_cons_iff]
    constructor
    · rintro ⟨rest, hrest, hbytes⟩
      cases hlead : Lead.ofByte b with
      | ascii c =>
        obtain rfl : rest = [] := by simpa [hlead, Lead.rests] using hrest
        obtain rfl := List.forall₂_nil_left_iff.mp hbytes
        exact ⟨asciiChar b, encodeChar_asciiChar (Lead.of_ofByte hlead).1⟩
      | stray => simp [hlead, Lead.rests] at hrest
      | opens u =>
        obtain rfl : rest = u.ranges := by simpa [hlead, Lead.rests] using hrest
        obtain ⟨hfits, hlen⟩ := Unfinished.completes_iff.mp hbytes
        obtain ⟨c, -, hc⟩ := exists_char_of_fits hlead hfits hlen
        exact ⟨c, hc⟩
    · rintro ⟨c, hc⟩
      rcases lead_of_encodeChar hc with ⟨hlead, rfl⟩ | ⟨u, hlead, hfull⟩
      · exact ⟨[], by simp [hlead, Lead.rests], .nil⟩
      · exact ⟨u.ranges, by simp [hlead, Lead.rests], Unfinished.completes_iff.mpr hfull⟩

/-- Bytes are well-formed if they are the bytes of characters. -/
theorem wellFormed_iff : WellFormed bs ↔ ∃ cs, encode cs = bs := by
  constructor
  · rintro ⟨qs, hqs, rfl⟩
    induction qs with
    | nil => exact ⟨[], rfl⟩
    | cons q qs ih =>
      obtain ⟨hq, hrest⟩ := List.forall_mem_cons.mp hqs
      obtain ⟨c, rfl⟩ := isSequence_iff.mp hq
      obtain ⟨cs, hcs⟩ := ih hrest
      exact ⟨c :: cs, congrArg (String.utf8EncodeChar c ++ ·) hcs⟩
  · rintro ⟨cs, rfl⟩
    refine ⟨cs.map String.utf8EncodeChar, fun q hq => ?_, (List.flatMap_def ..).symm⟩
    obtain ⟨c, -, rfl⟩ := List.mem_map.mp hq
    exact isSequence_iff.mpr ⟨c, rfl⟩

end ShaderChain.Utf8
