import ShaderChain.Proofs.Sequences

/-!
# What the decoder reads

`Reads bs cs` says without any decoder that `bs` reads as `cs`: characters stand for their own
bytes, and where no character stands, the maximal invalid subpart there is one `none`. Every byte
string reads in exactly one way, and `decode` finds it (`reads_iff`). So text comes back as it
was written (`decode_encode`), what is read is written back as it was exactly where nothing is
damaged (`ofText_lossy_eq_iff`), and ASCII that is seen in the text was there in the bytes
(`infix_of_infix_lossyChars`).
-/

namespace ShaderChain.Utf8

/-! ## Readings -/

/-- In front of `rest`, `p` is a maximal invalid subpart: the longest beginning of a character
there, or one byte where none begins. -/
structure Damage (p rest : Bytes) : Prop where
  ne_nil : p ≠ []
  unreadable : ∀ c, ¬ String.utf8EncodeChar c <+: p ++ rest
  begins : p.length = 1 ∨ ∃ c, p <+: String.utf8EncodeChar c
  longest : ∀ q c, q <+: p ++ rest → q <+: String.utf8EncodeChar c → q.length ≤ p.length

/-- Bytes and the characters they stand for. -/
inductive Reads : Bytes → List (Option Char) → Prop where
  | nil : Reads [] []
  | char {rest : Bytes} {cs : List (Option Char)} (c : Char) (next : Reads rest cs) :
      Reads (String.utf8EncodeChar c ++ rest) (some c :: cs)
  | damage {p rest : Bytes} {cs : List (Option Char)} (here : Damage p rest)
      (next : Reads rest cs) : Reads (p ++ rest) (none :: cs)

variable {b : UInt8} {bs p q tail rest rest' : Bytes} {u : Unfinished} {c : Char}
  {cs cs' : List (Option Char)}

theorem Damage.length_le (h : Damage p rest) (h' : Damage q rest')
    (heq : p ++ rest = q ++ rest') : p.length ≤ q.length := by
  rcases h.begins with hone | ⟨c, hc⟩
  · have := List.length_pos_iff.mpr h'.ne_nil
    omega
  · exact h'.longest p c (heq ▸ List.prefix_append p rest) hc

/-- Bytes read in one way only. -/
theorem Reads.unique (h : Reads bs cs) (h' : Reads bs cs') : cs = cs' := by
  induction h generalizing cs' with
  | nil =>
    generalize hbs : ([] : Bytes) = bs at h'
    cases h' with
    | nil => rfl
    | char c next => simp at hbs
    | damage here next => simp [here.ne_nil] at hbs
  | @char rest cs c next ih =>
    generalize hbs : String.utf8EncodeChar c ++ rest = bs at h'
    cases h' with
    | nil => simp at hbs
    | char d next' =>
      obtain rfl := encodeChar_append_inj hbs
      rw [ih (List.append_cancel_left hbs ▸ next')]
    | damage here next' => exact absurd ⟨_, hbs⟩ (here.unreadable c)
  | @damage p rest cs here next ih =>
    generalize hbs : p ++ rest = bs at h'
    cases h' with
    | nil => simp [here.ne_nil] at hbs
    | char d next' => exact absurd ⟨_, hbs.symm⟩ (here.unreadable d)
    | damage here' next' =>
      have hlen := Nat.le_antisymm (here.length_le here' hbs) (here'.length_le here hbs.symm)
      obtain ⟨rfl, rfl⟩ := List.append_inj hbs hlen
      rw [ih next']

/-! ## The decoder finds the reading -/

/-- How the bytes after the first one of a sequence are read: the sequence is completed, or what
fits of it is one damaged place. -/
inductive Continues (u : Unfinished) : Bytes → List (Option Char) → Prop where
  | completed {tail rest : Bytes} (hfits : u.Fits tail) (hlen : tail.length = u.missing) :
      Continues u (tail ++ rest)
        (some (Char.ofNat (tail.foldl Unfinished.follow u).value) :: decode rest)
  | broken {tail rest : Bytes} (hfits : u.Fits tail) (hlen : tail.length < u.missing)
      (hmax : ∀ x ∈ rest.head?, ¬ u.Fits (tail ++ [x])) :
      Continues u (tail ++ rest) (none :: decode rest)

/-- What has been read stands in front of what is read on. -/
theorem finish_feed_onto (past : List (Option Char)) (bs : Bytes) :
    (feed { read := past } bs).finish = past.reverse ++ decode bs := by
  have h : ({ read := past } : Decoder) = ({} : Decoder).onto past := by simp [Decoder.onto]
  rw [h, feed_onto, Decoder.finish_onto, decode]

/-- A byte in range goes on with the sequence. -/
theorem Continues.cons (hmissing : u.missing ≠ 0) (hrange : u.low ≤ b ∧ b ≤ u.high)
    (h : Continues (u.follow b) bs cs) : Continues u (b :: bs) cs := by
  cases h with
  | @completed tail rest hfits hlen =>
    have hlong : (b :: tail).length = u.missing := by
      simp only [Unfinished.follow_missing] at hlen
      simp only [List.length_cons]
      omega
    have hgoes : u.Fits (b :: tail) := ⟨hmissing, hrange, hfits⟩
    simpa only [List.cons_append, List.foldl_cons] using Continues.completed hgoes hlong
  | @broken tail rest hfits hlen hmax =>
    have hshort : (b :: tail).length < u.missing := by
      simp only [Unfinished.follow_missing] at hlen
      simp only [List.length_cons]
      omega
    have hgoes : u.Fits (b :: tail) := ⟨hmissing, hrange, hfits⟩
    exact .broken hgoes hshort fun x hx h => hmax x hx h.2.2

/-- The decoder goes on inside a sequence up to the first byte that does not fit, which it reads
again as a beginning. -/
theorem continues_feed (hmissing : u.missing ≠ 0) (bs : Bytes) :
    Continues u bs (feed { inside := some u } bs).finish := by
  induction bs generalizing u with
  | nil =>
    have hfits : u.Fits [] := trivial
    have hend : ∀ x ∈ ([] : Bytes).head?, ¬ u.Fits ([] ++ [x]) := by simp
    exact .broken hfits (Nat.pos_of_ne_zero hmissing) hend
  | cons b bs ih =>
    show Continues u (b :: bs) (feed (Decoder.step { inside := some u } b) bs).finish
    unfold Decoder.step
    by_cases hrange : u.low ≤ b ∧ b ≤ u.high
    · simp only [hrange, and_self, if_true]
      split
      · exact absurd ‹_› hmissing
      · rename_i hone
        rw [finish_feed_onto]
        have hfits : u.Fits [b] := ⟨hmissing, hrange, trivial⟩
        simpa only [List.cons_append, List.nil_append, List.foldl_cons, List.foldl_nil,
          List.reverse_singleton, Unfinished.follow_value] using Continues.completed hfits hone.symm
      · rename_i n hmore
        have hleft : n + 1 = u.missing - 1 := by omega
        rw [hleft]
        exact .cons hmissing hrange (ih (by simp [hmore]))
    · simp only [hrange, if_false]
      have hbegin : Decoder.begin [none] b = (Decoder.begin [] b).onto [none] :=
        Decoder.begin_onto [] [none] b
      rw [hbegin, feed_onto, Decoder.finish_onto]
      have hfits : u.Fits [] := trivial
      have hend : ∀ x ∈ (b :: bs).head?, ¬ u.Fits ([] ++ [x]) := fun x hx h => by
        obtain rfl : b = x := by simpa using hx
        exact hrange h.2.1
      exact .broken hfits (Nat.pos_of_ne_zero hmissing) hend

theorem encodeChar_eq_cons (h : String.utf8EncodeChar c <+: b :: rest) :
    ∃ tail, String.utf8EncodeChar c = b :: tail := by
  obtain ⟨after, hafter⟩ := h
  cases hbytes : String.utf8EncodeChar c with
  | nil => exact absurd hbytes String.utf8EncodeChar_ne_nil
  | cons x tail =>
    rw [hbytes] at hafter
    exact ⟨tail, by rw [(List.cons.inj hafter).1]⟩

/-- A byte that begins nothing is a damaged place of its own. -/
theorem damage_of_stray (hlead : Lead.ofByte b = .stray) (rest : Bytes) : Damage [b] rest where
  ne_nil := List.cons_ne_nil b []
  unreadable := by
    intro c hc
    obtain ⟨tail, htail⟩ := encodeChar_eq_cons hc
    have := lead_of_encodeChar htail
    simp [hlead] at this
  begins := .inl rfl
  longest := by
    rintro q c ⟨r, hr⟩ hq
    cases q with
    | nil => exact Nat.zero_le _
    | cons x q =>
      obtain rfl : x = b := by simpa using congrArg List.head? hr
      rcases prefix_encodeChar_iff.mp ⟨c, hq⟩ with ⟨-, rfl⟩ | ⟨u, hopens, -⟩
      · exact Nat.le_refl 1
      · simp [hlead] at hopens

/-- What fits of a sequence that is broken off is one damaged place, since the next byte does not
fit. -/
theorem damage_of_broken (hlead : Lead.ofByte b = .opens u) (hfits : u.Fits tail)
    (hlen : tail.length < u.missing) (hmax : ∀ x ∈ rest.head?, ¬ u.Fits (tail ++ [x])) :
    Damage (b :: tail) rest := by
  have hlongest : ∀ q c, q <+: b :: tail ++ rest → q <+: String.utf8EncodeChar c →
      q.length ≤ (b :: tail).length := by
    intro q c hq hc
    cases rest with
    | nil => exact (List.append_nil (b :: tail) ▸ hq).length_le
    | cons x rest =>
      by_contra hlong
      -- then the next byte would have fitted as well
      have hnext : b :: (tail ++ [x]) <+: b :: tail ++ x :: rest := ⟨rest, by simp⟩
      have hlen : (b :: (tail ++ [x])).length ≤ q.length := by
        simp only [List.length_cons, List.length_append, List.length_nil] at hlong ⊢
        omega
      have hmore : b :: (tail ++ [x]) <+: q := List.prefix_of_prefix_length_le hnext hq hlen
      rcases prefix_encodeChar_iff.mp ⟨c, hmore.trans hc⟩ with ⟨-, hnil⟩ | ⟨v, hv, hfit⟩
      · simp at hnil
      · obtain rfl : u = v := Lead.opens.inj (hlead.symm.trans hv)
        exact hmax x rfl hfit
  refine ⟨List.cons_ne_nil b tail, fun c hc => ?_, .inr ?_, hlongest⟩
  · have hshort := hlongest _ c hc List.prefix_rfl
    obtain ⟨full, hbytes⟩ := encodeChar_eq_cons hc
    rcases lead_of_encodeChar hbytes with ⟨hascii, -⟩ | ⟨v, hv, -, hfull⟩
    · simp [hlead] at hascii
    · obtain rfl : u = v := Lead.opens.inj (hlead.symm.trans hv)
      simp only [hbytes, List.length_cons] at hshort
      omega
  · exact prefix_encodeChar_iff.mpr (.inr ⟨u, hlead, hfits⟩)

/-- A byte that begins nothing is read as one sign. -/
theorem decode_stray (hlead : Lead.ofByte b = .stray) (bs : Bytes) :
    decode (b :: bs) = none :: decode bs := by
  have hstep : Decoder.step {} b = { read := [none] } := by
    simp [Decoder.step, Decoder.begin, hlead]
  show (feed (Decoder.step {} b) bs).finish = _
  rw [hstep, finish_feed_onto]
  rfl

/-- Behind a byte that opens a sequence the decoder goes on inside of it. -/
theorem decode_opens (hlead : Lead.ofByte b = .opens u) (bs : Bytes) :
    Continues u bs (decode (b :: bs)) := by
  have hmissing : u.missing ≠ 0 := by
    have hopens : Lead.Of b (.opens u) := Lead.of_ofByte hlead
    unfold Lead.Of at hopens
    omega
  have hstep : Decoder.step {} b = { inside := some u } := by
    simp [Decoder.step, Decoder.begin, hlead]
  show Continues u bs (feed (Decoder.step {} b) bs).finish
  rw [hstep]
  exact continues_feed hmissing bs

/-- What is decoded is a reading. -/
theorem reads_decode (bs : Bytes) : Reads bs (decode bs) := by
  match bs with
  | [] => exact .nil
  | b :: bs =>
    cases hlead : Lead.ofByte b with
    | ascii c =>
      obtain ⟨hb, rfl⟩ := Lead.of_ofByte hlead
      have hdecode : decode (b :: bs) = some (asciiChar b) :: decode bs :=
        decode_ascii [] bs (UInt8.lt_iff_toNat_lt.mpr hb)
      rw [hdecode]
      have hreads := Reads.char (asciiChar b) (reads_decode bs)
      rwa [encodeChar_asciiChar hb, List.singleton_append] at hreads
    | stray =>
      rw [decode_stray hlead]
      exact .damage (damage_of_stray hlead bs) (reads_decode bs)
    | opens u =>
      have hcontinues := decode_opens hlead bs
      generalize decode (b :: bs) = cs at hcontinues ⊢
      cases hcontinues with
      | @completed tail rest hfits hlen =>
        obtain ⟨c, hc, hbytes⟩ := exists_char_of_fits hlead hfits hlen
        rw [← hc, Char.ofNat_toNat, ← List.cons_append, ← hbytes]
        exact .char c (reads_decode rest)
      | @broken tail rest hfits hlen hmax =>
        exact .damage (damage_of_broken hlead hfits hlen hmax) (reads_decode rest)
termination_by bs.length

/-- The decoder finds the one reading of its bytes. -/
theorem reads_iff : Reads bs cs ↔ decode bs = cs :=
  ⟨fun h => (reads_decode bs).unique h, fun h => h ▸ reads_decode bs⟩

-- a sequence that breaks off, a surrogate, and a byte that no sequence has
example : decode [0x61, 0xE2, 0x82, 0xED, 0xA0, 0x80, 0xFF] =
    [some 'a', none, none, none, none, none] := by decide

/-! ## Writing and reading -/

/-- What was written is read as it was, whatever comes after it. -/
theorem decode_encode_append (cs : List Char) (bs : Bytes) :
    decode (encode cs ++ bs) = cs.map some ++ decode bs := by
  induction cs with
  | nil => rfl
  | cons c cs ih =>
    rw [← reads_iff]
    show Reads (String.utf8EncodeChar c ++ encode cs ++ bs) (some c :: (cs.map some ++ decode bs))
    rw [List.append_assoc]
    exact .char c (reads_iff.mpr ih)

/-- What was written is read as it was. -/
theorem decode_encode (cs : List Char) : decode (encode cs) = cs.map some := by
  simpa [decode, feed, Decoder.finish] using decode_encode_append cs []

/-- Bytes are read as characters alone exactly if they are written ones. -/
theorem decode_eq_map_some_iff {cs : List Char} : decode bs = cs.map some ↔ encode cs = bs := by
  constructor
  · intro h
    have hreads := reads_iff.mpr h
    generalize hread : cs.map some = read at hreads
    induction hreads generalizing cs with
    | nil =>
      rw [List.map_eq_nil_iff.mp hread]
      rfl
    | char c next ih =>
      obtain ⟨d, ds, rfl, hd, hds⟩ := List.map_eq_cons_iff.mp hread
      obtain rfl := Option.some.inj hd
      show String.utf8EncodeChar d ++ encode ds = _
      rw [ih (reads_iff.mp next |>.trans hds.symm) hds]
    | damage here next ih =>
      obtain ⟨d, ds, -, hd, -⟩ := List.map_eq_cons_iff.mp hread
      exact absurd hd nofun
  · rintro rfl
    exact decode_encode cs

/-- Bytes are a text if they are the bytes of one. -/
theorem text?_eq_some_iff {s : String} : text? bs = some s ↔ ofText s = bs := by
  constructor
  · intro h
    unfold text? at h
    dsimp only at h
    split at h
    · rename_i hall
      obtain rfl := Option.some.inj h
      have hread : ((decode bs).filterMap id).map some = decode bs := by
        rw [List.map_filterMap]
        conv_rhs => rw [← List.map_id (decode bs)]
        rw [List.filterMap_eq_map_iff_forall_eq_some]
        intro o ho
        obtain ⟨c, rfl⟩ := Option.isSome_iff_exists.mp (List.all_eq_true.mp hall o ho)
        rfl
      rw [ofText, String.toList_ofList, ← decode_eq_map_some_iff, hread]
    · exact absurd h nofun
  · rintro rfl
    simp [text?, ofText, decode_encode]

/-- Bytes are a text if they are sequences of the table. -/
theorem isSome_text?_iff : (text? bs).isSome ↔ WellFormed bs := by
  rw [Option.isSome_iff_exists, wellFormed_iff]
  simp only [text?_eq_some_iff]
  constructor
  · rintro ⟨s, hs⟩
    exact ⟨s.toList, hs⟩
  · rintro ⟨cs, hcs⟩
    exact ⟨String.ofList cs, by rw [ofText, String.toList_ofList, hcs]⟩

/-- The text of a text is the text itself. -/
theorem lossyChars_ofText (s : String) : lossyChars (ofText s) = s.toList := by
  rw [lossyChars, ofText, decode_encode, List.map_map]
  exact List.map_id s.toList

theorem lossy_ofText (s : String) : lossy (ofText s) = s := by
  rw [lossy, lossyChars_ofText, String.ofList_toList]

/-- Text is read as it is, and what comes after it as if it stood alone. -/
theorem lossy_ofText_append (s : String) (bs : Bytes) :
    lossy (ofText s ++ bs) = s ++ lossy bs := by
  have htext : lossyChars (ofText s ++ bs) = s.toList ++ lossyChars bs := by
    rw [← lossyChars_ofText s]
    simp only [lossyChars, ofText, decode_encode_append, decode_encode, List.map_append]
  rw [lossy, htext, String.ofList_append, String.ofList_toList, lossy]

/-- Where no sign for damaged text is seen, what is seen is what was there. -/
theorem encode_lossyChars (h : replacement ∉ lossyChars bs) : encode (lossyChars bs) = bs := by
  have hread : ∀ o ∈ decode bs, (some ∘ (·.getD replacement)) o = id o := by
    intro o ho
    cases o with
    | none => exact absurd (List.mem_map.mpr ⟨none, ho, rfl⟩) h
    | some c => rfl
  rw [← decode_eq_map_some_iff, lossyChars, List.map_map, List.map_congr_left hread, List.map_id]

/-- What occurs in a text occurs in its bytes. -/
theorem infix_encode {cs ds : List Char} (h : cs <:+: ds) : encode cs <:+: encode ds := by
  obtain ⟨before, after, rfl⟩ := h
  exact ⟨encode before, encode after, by simp only [encode, List.flatMap_append]⟩

/-- Reading and writing again gives the same bytes exactly where nothing was damaged. -/
theorem ofText_lossy_eq_iff : ofText (lossy bs) = bs ↔ (text? bs).isSome := by
  rw [Option.isSome_iff_exists]
  simp only [text?_eq_some_iff]
  constructor
  · exact fun h => ⟨_, h⟩
  · rintro ⟨s, rfl⟩
    rw [lossy_ofText]

/-! ## ASCII in the text -/

variable {key : Bytes}

/-- ASCII at the beginning of a reading stands at the beginning of the bytes. -/
theorem Reads.prefix_of_ascii (h : Reads bs cs) (hascii : ∀ k ∈ key, k < 0x80)
    (hkey : key.map asciiChar <+: cs.map (·.getD replacement)) : key <+: bs := by
  induction h generalizing key with
  | nil => simpa using hkey
  | @char rest cs c next ih =>
    cases key with
    | nil => exact List.nil_prefix
    | cons k ks =>
      simp only [List.map_cons, List.cons_prefix_cons, Option.getD_some] at hkey
      have hk : k.toNat < 0x80 := UInt8.lt_iff_toNat_lt.mp (hascii k List.mem_cons_self)
      rw [← hkey.1, encodeChar_asciiChar hk, List.singleton_append, List.cons_prefix_cons]
      exact ⟨rfl, ih (fun x hx => hascii x (List.mem_cons_of_mem k hx)) hkey.2⟩
  | damage here next ih =>
    cases key with
    | nil => exact List.nil_prefix
    | cons k ks =>
      -- the sign for damaged text is no ASCII character
      simp only [List.map_cons, List.cons_prefix_cons, Option.getD_none] at hkey
      have hk : k.toNat < 0x80 := UInt8.lt_iff_toNat_lt.mp (hascii k List.mem_cons_self)
      have hnumber : k.toNat = 0xFFFD := (asciiChar_toNat k).symm.trans (congrArg Char.toNat hkey.1)
      omega

/-- ASCII that is seen in the text of some bytes stands in the bytes. -/
theorem infix_of_infix_lossyChars (hascii : ∀ k ∈ key, k < 0x80)
    (hkey : key.map asciiChar <:+: lossyChars bs) : key <:+: bs := by
  have hreads := reads_decode bs
  unfold lossyChars at hkey
  generalize decode bs = cs at hreads hkey
  induction hreads with
  | nil => exact (Reads.nil.prefix_of_ascii hascii (by simpa using hkey)).isInfix
  | char c next ih =>
    rw [List.map_cons, List.infix_cons_iff] at hkey
    rcases hkey with hkey | hkey
    · exact ((next.char c).prefix_of_ascii hascii hkey).isInfix
    · exact (ih hkey).trans (List.suffix_append _ _).isInfix
  | damage here next ih =>
    rw [List.map_cons, List.infix_cons_iff] at hkey
    rcases hkey with hkey | hkey
    · exact ((next.damage here).prefix_of_ascii hascii hkey).isInfix
    · exact (ih hkey).trans (List.suffix_append _ _).isInfix

end ShaderChain.Utf8
