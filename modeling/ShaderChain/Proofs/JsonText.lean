import ShaderChain.Json.Record
import ShaderChain.Json.Value

/-!
# What is written as JSON is read back

`Json.Reads read v a` says that a reader takes the text of `v` off the front of whatever it stands
before, and gives `a`. Strings are read back character by character: every spelling of a character,
plain or escaped, is one piece, and the piece stands for the character (`exists_piece`). A record is
read back from an object whose members fill its draft one after another (`Record.Fills`); each
member is one step of the reader (`members_first`, `members_next`), and `Record.reads_obj` is the
induction over them.
-/

namespace ShaderChain.Json

variable {α δ : Type}

/-- A reader takes the text of a value off the front, and gives `a`. -/
def Reads (read : Reader α) (v : Json) (a : α) : Prop :=
  ∀ rest, read (v.renderOf.map some ++ rest) = .ok (a, rest)

/-! ## Strings -/

/-- The two last digits of an escape are those of the character. -/
theorem unit?_digits : ∀ n < 0x20,
    unit? (some '0') (some '0') (some (Nat.digitChar (n / 16))) (some (Nat.digitChar (n % 16))) =
      some n := by
  decide

/-- The closing quote ends a string. -/
theorem pieces_quote (acc : List Piece) (s : Symbols) :
    pieces acc (some '"' :: s) = .ok (acc.reverse, s) := by
  unfold pieces
  rfl

/-- A character that needs no escape is a piece by itself. -/
theorem pieces_plain {c : Char} (hquote : c ≠ '"') (hbackslash : c ≠ '\\')
    (hcontrol : ¬c.toNat < 0x20) (acc : List Piece) (s : Symbols) :
    pieces acc (some c :: s) = pieces (.plain c :: acc) s := by
  rw [pieces.eq_def]
  simp only [hquote, hbackslash, hcontrol, if_false]

/-- An escape with four digits is one piece. -/
theorem pieces_unit {h₁ h₂ h₃ h₄ : Option Char} {n : Nat} (h : unit? h₁ h₂ h₃ h₄ = some n)
    (acc : List Piece) (s : Symbols) :
    pieces acc (some '\\' :: some 'u' :: h₁ :: h₂ :: h₃ :: h₄ :: s) =
      pieces (.unit n :: acc) s := by
  rw [pieces.eq_def]
  simp [h]

/-- A unit below the surrogates stands for a character by itself. -/
theorem joined?_unit {n : Nat} (h : n < 0xD800) (acc : List Char) (ps : List Piece) :
    joined? acc (.unit n :: ps) = joined? (Char.ofNat n :: acc) ps := by
  rw [joined?.eq_def]
  simp only [h, true_or, if_true]

/-- A written character is one piece, and the piece stands for the character. -/
theorem exists_piece (c : Char) : ∃ p : Piece,
    (∀ acc rest, pieces acc ((escape c).map some ++ rest) = pieces (p :: acc) rest) ∧
      ∀ acc ps, joined? acc (p :: ps) = joined? (c :: acc) ps := by
  have hofNat : Char.ofNat c.toNat = c := Char.ofNat_toNat c
  -- one case for each spelling; of the two control characters without a literal the number is known
  unfold escape
  split
  · next h =>
    subst h
    exact ⟨.plain '"', fun _ _ => rfl, fun _ _ => rfl⟩
  split
  · next h =>
    subst h
    exact ⟨.plain '\\', fun _ _ => rfl, fun _ _ => rfl⟩
  split
  · next h => exact ⟨.plain c, fun _ _ => by rw [← hofNat, h]; rfl, fun _ _ => rfl⟩
  split
  · next h => exact ⟨.plain c, fun _ _ => by rw [← hofNat, h]; rfl, fun _ _ => rfl⟩
  split
  · next h =>
    subst h
    exact ⟨.plain '\n', fun _ _ => rfl, fun _ _ => rfl⟩
  split
  · next h =>
    subst h
    exact ⟨.plain '\r', fun _ _ => rfl, fun _ _ => rfl⟩
  split
  · next h =>
    subst h
    exact ⟨.plain '\t', fun _ _ => rfl, fun _ _ => rfl⟩
  split
  · next hcontrol =>
    refine ⟨.unit c.toNat, fun acc rest => pieces_unit (unit?_digits c.toNat hcontrol) acc rest,
      fun acc ps => ?_⟩
    rw [joined?_unit (Nat.lt_trans hcontrol (by decide)), hofNat]
  · next hquote hbackslash _ _ _ _ _ hcontrol =>
    exact ⟨.plain c, pieces_plain hquote hbackslash hcontrol, fun _ _ => rfl⟩

/-- A written string is as many pieces as it has characters, and they stand for them. -/
theorem exists_pieces (cs : List Char) : ∃ ps : List Piece,
    (∀ acc rest, pieces acc ((cs.flatMap escape).map some ++ some '"' :: rest) =
      .ok (acc.reverse ++ ps, rest)) ∧
      ∀ acc, joined? acc ps = some (acc.reverse ++ cs) := by
  induction cs with
  | nil =>
    refine ⟨[], fun acc rest => ?_, fun acc => ?_⟩
    · rw [List.append_nil]
      exact pieces_quote acc rest
    · rw [List.append_nil]
      rfl
  | cons c cs ih =>
    obtain ⟨p, hp, hjoin⟩ := exists_piece c
    obtain ⟨ps, hps, hjoins⟩ := ih
    refine ⟨p :: ps, fun acc rest => ?_, fun acc => ?_⟩
    · rw [List.flatMap_cons, List.map_append, List.append_assoc, hp, hps, List.reverse_cons,
        List.append_assoc]
      rfl
    · rw [hjoin, hjoins, List.reverse_cons, List.append_assoc]
      rfl

/-- The text of a string behind its opening quote. -/
def closing (s : String) : List Char :=
  s.toList.flatMap escape ++ ['"']

theorem renderText_eq (s : String) : renderText s = '"' :: closing s := rfl

/-- A string is read up to its closing quote. -/
theorem stringBody_closing (s : String) (rest : Symbols) :
    stringBody ((closing s).map some ++ rest) = .ok (s, rest) := by
  obtain ⟨ps, hps, hjoin⟩ := exists_pieces s.toList
  have hread : pieces [] ((closing s).map some ++ rest) = .ok (ps, rest) := by
    have hclosing : (closing s).map some ++ rest =
        (s.toList.flatMap escape).map some ++ some '"' :: rest := by
      simp [closing]
    rw [hclosing, hps]
    rfl
  have hjoined : joined? [] ps = some s.toList := hjoin []
  unfold stringBody
  simp only [hread, bind, Except.bind, hjoined, String.ofList_toList]

/-! ## Strings and truth values as such -/

/-- A string is read back from its text. -/
theorem text_reads (s : String) : Reads text (.str s) s := by
  intro rest
  exact stringBody_closing s rest

theorem flag_reads (b : Bool) : Reads flag (.bool b) b := by
  intro rest
  cases b <;> rfl

/-- What is read off the front is read where nothing follows. -/
theorem readText_render {read : Reader α} {v : Json} {a : α} (h : Reads read v a) :
    readText read v.render = .ok a := by
  have hread : read (symbolsOf v.render) = .ok (a, []) := by
    rw [symbolsOf, render, String.toList_ofList, ← List.append_nil (v.renderOf.map some)]
    exact h []
  rw [readText, hread]
  rfl

/-! ## Records -/

/-- A member is read by the reader of its value, and is put into its field. -/
theorem Field.reads_of {name : String} {get : δ → Option α} {set : δ → α → δ} {value : Reader α}
    {v : Json} {a : α} (h : Reads value v a) (d : δ) :
    Reads ((Field.of name get set value).read d) v (set d a) := by
  intro rest
  simp only [Field.of, h rest, bind, Except.bind]
  rfl

namespace Record

/-- Members fill a draft: each of them a field that is not set yet. -/
inductive Fills (fields : List (Field δ)) : δ → List (String × Json) → δ → Prop
  | nil (d : δ) : Fills fields d [] d
  | cons {d d' d'' : δ} {name : String} {v : Json} {ms : List (String × Json)} {field : Field δ}
    (hfield : fields.find? (·.name == name) = some field) (hunset : field.isSet d = false)
    (hread : Reads (field.read d) v d') (h : Fills fields d' ms d'') :
    Fills fields d ((name, v) :: ms) d''

variable {fields : List (Field δ)} {d d' : δ} {name : String} {v : Json}
  {ms : List (String × Json)} {field : Field δ}

/-- The text of members that follow another one. -/
def following : List (String × Json) → List Char
  | [] => []
  | m :: ms => ',' :: renderOf.renderMembers (m :: ms)

theorem renderMembers_cons (name : String) (v : Json) (ms : List (String × Json)) :
    renderOf.renderMembers ((name, v) :: ms) =
      '"' :: (closing name ++ ':' :: (v.renderOf ++ following ms)) := by
  cases ms with
  | nil =>
    show renderText name ++ ':' :: v.renderOf = _
    rw [renderText_eq, following, List.append_nil]
    rfl
  | cons m ms =>
    show renderText name ++ ':' :: v.renderOf ++ following (m :: ms) = _
    rw [renderText_eq, List.append_assoc]
    rfl

theorem length_le_following (ms : List (String × Json)) : ms.length ≤ (following ms).length := by
  induction ms with
  | nil => exact Nat.zero_le _
  | cons m ms ih =>
    obtain ⟨name, v⟩ := m
    rw [following, renderMembers_cons]
    simp only [List.length_cons, List.length_append]
    omega

/-- A member with the name of a field that is not set yet is read into this field. -/
theorem member_closing (hfield : fields.find? (·.name == name) = some field)
    (hunset : field.isSet d = false) (hread : Reads (field.read d) v d') (rest : Symbols) :
    member fields d ((closing name ++ ':' :: v.renderOf).map some ++ rest) = .ok (d', rest) := by
  unfold member
  rw [List.map_append, List.append_assoc, stringBody_closing]
  simp only [bind, Except.bind, hfield, hunset, Bool.false_eq_true, if_false]
  exact hread rest

/-- The first member of an object is read into the draft. -/
theorem members_first (hfield : fields.find? (·.name == name) = some field)
    (hunset : field.isSet d = false) (hread : Reads (field.read d) v d') (fuel : Nat)
    (rest : Symbols) :
    members fields (fuel + 1) true d
        ((renderOf.renderMembers ((name, v) :: ms)).map some ++ rest) =
      members fields fuel false d' ((following ms).map some ++ rest) := by
  rw [renderMembers_cons]
  have hmember := member_closing hfield hunset hread ((following ms).map some ++ rest)
  simp only [List.map_append, List.map_cons, List.append_assoc, List.cons_append] at hmember ⊢
  rw [members, show skipGap (some '"' :: _) = some '"' :: _ from rfl]
  simp only [if_true, hmember]
  rfl

/-- So is any other member, which stands behind a comma. -/
theorem members_next (hfield : fields.find? (·.name == name) = some field)
    (hunset : field.isSet d = false) (hread : Reads (field.read d) v d') (fuel : Nat)
    (rest : Symbols) :
    members fields (fuel + 1) false d ((following ((name, v) :: ms)).map some ++ rest) =
      members fields fuel false d' ((following ms).map some ++ rest) := by
  rw [following, renderMembers_cons]
  have hmember := member_closing hfield hunset hread ((following ms).map some ++ rest)
  simp only [List.map_append, List.map_cons, List.append_assoc, List.cons_append] at hmember ⊢
  rw [members, show skipGap (some ',' :: _) = some ',' :: _ from rfl]
  simp only [Bool.false_eq_true, if_false]
  rw [show skipGap (some '"' :: _) = some '"' :: _ from rfl]
  simp only [hmember]
  rfl

/-- Members are read one after another up to the closing brace. -/
theorem members_following (h : Fills fields d ms d') (rest : Symbols) {fuel : Nat}
    (hfuel : ms.length < fuel) :
    members fields fuel false d ((following ms).map some ++ some '\x7d' :: rest) =
      .ok (d', rest) := by
  induction h generalizing fuel with
  | nil d =>
    obtain ⟨fuel, rfl⟩ := Nat.exists_eq_succ_of_ne_zero (Nat.ne_zero_of_lt hfuel)
    rfl
  | cons hfield hunset hread _ ih =>
    obtain ⟨fuel, rfl⟩ := Nat.exists_eq_succ_of_ne_zero (Nat.ne_zero_of_lt hfuel)
    rw [members_next hfield hunset hread]
    exact ih (Nat.lt_of_succ_lt_succ hfuel)

/-- An object whose members fill the draft is read as what the draft becomes. -/
theorem reads_obj (r : Record δ α) {d : δ} {a : α} (h : Fills r.fields r.draft ms d)
    (hfinish : r.finish d = some a) : Reads r.read (.obj ms) a := by
  intro rest
  have hmembers : ∀ fuel > ms.length, members r.fields fuel true r.draft
      ((renderOf.renderMembers ms).map some ++ some '\x7d' :: rest) = .ok (d, rest) := by
    intro fuel hfuel
    obtain ⟨fuel, rfl⟩ := Nat.exists_eq_succ_of_ne_zero (Nat.ne_zero_of_lt hfuel)
    cases h with
    | nil => rfl
    | cons hfield hunset hread htail =>
      rw [members_first hfield hunset hread]
      exact members_following htail rest (Nat.lt_of_succ_lt_succ hfuel)
  -- each member takes up a character at least, so the text is fuel enough
  have hlength : ms.length < ((renderOf.renderMembers ms).map some ++
      some '\x7d' :: rest).length + 1 := by
    have hle := length_le_following ms
    cases ms with
    | nil => exact Nat.succ_pos _
    | cons m ms =>
      simp only [following, List.length_cons, List.length_append, List.length_map] at hle ⊢
      omega
  have htext : (Json.obj ms).renderOf.map some ++ rest =
      some '\x7b' :: ((renderOf.renderMembers ms).map some ++ some '\x7d' :: rest) := by
    simp [renderOf]
  have hgap : ∀ s, skipGap (some '\x7b' :: s) = some '\x7b' :: s := fun _ => rfl
  rw [htext, read, hgap]
  simp only [hmembers _ hlength, bind, Except.bind, complete, hfinish]

end Record

end ShaderChain.Json
