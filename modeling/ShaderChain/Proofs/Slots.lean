import ShaderChain.Chain.Request
import Mathlib.Data.List.Forall2
import Mathlib.Data.List.TakeWhile

/-!
# Which slots make a request

Slots are taken apart into the filled ones in front, the empty ones behind them, and a rest, which
begins with a filled slot if it begins at all (`Slot.Parts`). That slot is **stranded**: it is the
first filled one behind an empty one. All slots have such parts, and what is made of them can be read
off: without a rest the stages of the filled slots, and else the error that names the stranded one
(`Request.ofSlots_cases`). So slots make a request exactly if the filled ones come first and there
are any (`Request.ofSlots_in_front`).

A stage has the name of its slot without the blanks at both ends. `Trims` says what that is, and not
how it is found.
-/

namespace ShaderChain

/-! ## Names without blanks at their ends -/

/-- `name` is `text` without the blanks at both ends. -/
def Trims (text name : List Char) : Prop :=
  ∃ before after, text = before ++ name ++ after ∧ (∀ c ∈ before ++ after, isBlank c = true) ∧
    (∀ c ∈ name.head?, isBlank c = false) ∧ ∀ c ∈ name.getLast?, isBlank c = false

/-- Of blanks and a text behind them, exactly the blanks are dropped. -/
theorem dropWhile_isBlank {before cs : List Char} (hbefore : ∀ c ∈ before, isBlank c = true)
    (hcs : ∀ c ∈ cs.head?, isBlank c = false) : (before ++ cs).dropWhile isBlank = cs := by
  rw [List.dropWhile_append_of_pos hbefore]
  cases cs with
  | nil => rfl
  | cons c cs =>
    have hc : isBlank c = false := hcs c rfl
    exact List.dropWhile_cons_of_neg (by simp [hc])

/-- A text is blanks and what is left without them, which does not begin with one. -/
theorem exists_dropWhile_isBlank (cs : List Char) : ∃ before,
    cs = before ++ cs.dropWhile isBlank ∧ (∀ c ∈ before, isBlank c = true) ∧
      ∀ c ∈ (cs.dropWhile isBlank).head?, isBlank c = false := by
  refine ⟨cs.takeWhile isBlank, List.takeWhile_append_dropWhile.symm,
    fun c hc => List.mem_takeWhile_imp hc, fun c hc => ?_⟩
  have hhead := List.head?_dropWhile_not isBlank cs
  rw [Option.mem_def.mp hc] at hhead
  exact hhead

/-- Trimming takes off the blanks at both ends, and nothing else. -/
theorem trims_trimOf (text : List Char) : Trims text (trimOf text) := by
  obtain ⟨before, htext, hbefore, hhead⟩ := exists_dropWhile_isBlank text
  obtain ⟨after, hrest, hafter, hlast⟩ :=
    exists_dropWhile_isBlank (text.dropWhile isBlank).reverse
  have hname : text.dropWhile isBlank = trimOf text ++ after.reverse := by
    rw [← List.reverse_reverse (text.dropWhile isBlank), hrest, List.reverse_append]
    rfl
  -- the blanks at the end are found as the first ones of the reversed text
  refine ⟨before, after.reverse, ?_, fun c hc => ?_, fun c hc => ?_, fun c hc => ?_⟩
  · rw [List.append_assoc, ← hname]
    exact htext
  · rcases List.mem_append.mp hc with hc | hc
    · exact hbefore c hc
    · exact hafter c (List.mem_reverse.mp hc)
  · -- the name begins as the text does that is left once its first blanks are dropped
    refine hhead c ?_
    rw [hname, List.head?_append, Option.mem_def.mp hc]
    rfl
  · rw [trimOf, List.getLast?_reverse] at hc
    exact hlast c hc

/-- There is only one text that is left without them. -/
theorem Trims.trimOf_eq {text name : List Char} (h : Trims text name) : trimOf text = name := by
  obtain ⟨before, after, rfl, hblank, hhead, hlast⟩ := h
  have hbefore : ∀ c ∈ before, isBlank c = true := fun c hc =>
    hblank c (List.mem_append_left after hc)
  have hafter : ∀ c ∈ after.reverse, isBlank c = true := fun c hc =>
    hblank c (List.mem_append_right before (List.mem_reverse.mp hc))
  unfold trimOf
  cases name with
  | nil =>
    rw [List.append_nil, List.dropWhile_eq_nil_iff.mpr hblank]
    rfl
  | cons c cs =>
    have hfirst : ∀ d ∈ (c :: cs ++ after).head?, isBlank d = false := hhead
    have hfinal : ∀ d ∈ (c :: cs).reverse.head?, isBlank d = false := by
      rwa [List.head?_reverse]
    rw [List.append_assoc, dropWhile_isBlank hbefore hfirst, List.reverse_append,
      dropWhile_isBlank hafter hfinal, List.reverse_reverse]

theorem trimOf_eq_iff {text name : List Char} : trimOf text = name ↔ Trims text name :=
  ⟨fun h => h ▸ trims_trimOf text, Trims.trimOf_eq⟩

/-- What is not blank is not trimmed away. -/
theorem Trims.mem {text name : List Char} {c : Char} (h : Trims text name) (hc : c ∈ text)
    (hblank : isBlank c = false) : c ∈ name := by
  obtain ⟨before, after, rfl, hall, -⟩ := h
  simp only [List.mem_append] at hc hall
  rcases hc with (hc | hc) | hc
  · rw [hall c (.inl hc)] at hblank
    cases hblank
  · exact hc
  · rw [hall c (.inr hc)] at hblank
    cases hblank

/-- A trimmed name has no blanks to trim. -/
theorem Trims.self {text name : List Char} (h : Trims text name) : Trims name name := by
  obtain ⟨-, -, -, -, hends⟩ := h
  exact ⟨[], [], (List.append_nil name).symm, fun _ hc => (nomatch hc), hends⟩

/-! ## One slot -/

namespace Slot

variable {s s' : Slot} {stage : Stage}

/-- The tool name has a character that is not blank. -/
def Filled (s : Slot) : Prop :=
  ∃ name, s.tool = some name ∧ ∃ c ∈ name.toList, isBlank c = false

/-- The stage of a filled slot: its name is trimmed, and flags that are missing are empty. -/
structure Holds (s : Slot) (stage : Stage) : Prop where
  filled : s.Filled
  tool : ∀ name, s.tool = some name → Trims name.toList stage.tool.toList
  flags : stage.flags = s.flags.getD ""

/-- A text is blank exactly if it has no character that is not. -/
theorem isBlankText_eq_true_iff {name : String} :
    isBlankText name = true ↔ ¬ ∃ c ∈ name.toList, isBlank c = false := by
  simp [isBlankText]

/-- A slot without a stage is one that is not filled. -/
theorem stage?_eq_none_iff : s.stage? = none ↔ ¬ s.Filled := by
  unfold stage? Filled
  cases s.tool with
  | none => simp
  | some name =>
    dsimp only
    by_cases hblank : isBlankText name = true
    · simpa [hblank] using isBlankText_eq_true_iff.mp hblank
    · simpa [hblank] using mt isBlankText_eq_true_iff.mpr hblank

/-- The stage that is read from a slot is the one that it holds. -/
theorem stage?_eq_some_iff : s.stage? = some stage ↔ s.Holds stage := by
  constructor
  · intro h
    have hfilled : s.Filled := by
      by_contra hempty
      rw [stage?_eq_none_iff.mpr hempty] at h
      cases h
    unfold stage? at h
    split at h
    · cases h
    · next name hname =>
      split at h
      · cases h
      · obtain rfl := Option.some.inj h
        refine ⟨hfilled, fun name' hname' => ?_, rfl⟩
        obtain rfl := Option.some.inj (hname.symm.trans hname')
        rw [trim, String.toList_ofList]
        exact trims_trimOf name.toList
  · rintro ⟨⟨name, hname, hblank⟩, htool, hflags⟩
    have htrim : trim name = stage.tool := by
      rw [trim, trimOf_eq_iff.mpr (htool name hname), String.ofList_toList]
    have hnot : ¬ isBlankText name = true := fun h => isBlankText_eq_true_iff.mp h hblank
    simp only [stage?, hname, if_neg hnot, htrim, ← hflags]

/-- A filled slot holds a stage. -/
theorem Filled.exists_holds (h : s.Filled) : ∃ stage, s.Holds stage := by
  cases hstage : s.stage? with
  | none => exact absurd h (stage?_eq_none_iff.mp hstage)
  | some stage => exact ⟨stage, stage?_eq_some_iff.mp hstage⟩

/-- The tool name is the same, and so are the flags if the slot is filled. -/
structure Like (s s' : Slot) : Prop where
  tool : s.tool = s'.tool
  flags : s.Filled → s.flags = s'.flags

/-- The flags of an empty slot do not matter for its stage, since it has none. -/
theorem Like.stage?_eq (h : s.Like s') : s.stage? = s'.stage? := by
  have hfilled : s.Filled ↔ s'.Filled := by
    unfold Filled
    rw [h.tool]
  by_cases hs : s.Filled
  · unfold stage?
    rw [h.tool, h.flags hs]
  · rw [stage?_eq_none_iff.mpr hs, stage?_eq_none_iff.mpr (mt hfilled.mpr hs)]

/-- The slot that a stage is sent in. -/
def ofStage (stage : Stage) : Slot where
  tool := some stage.tool
  flags := some stage.flags

/-- The stage of a slot is read back from a slot of its own. -/
theorem Holds.ofStage (h : s.Holds stage) : (ofStage stage).Holds stage := by
  obtain ⟨⟨name, hname, c, hc, hblank⟩, htool, -⟩ := h
  have htrims := htool name hname
  refine ⟨⟨stage.tool, rfl, c, htrims.mem hc hblank, hblank⟩, fun name' hname' => ?_, rfl⟩
  obtain rfl := Option.some.inj hname'
  exact htrims.self

/-! ## Filled, empty and stranded slots -/

/-- The slot at this place is filled, and one before it is empty. -/
def Stranded (slots : List Slot) (i : Nat) : Prop :=
  (∃ s, slots[i]? = some s ∧ s.Filled) ∧ ∃ j, j < i ∧ ∃ s, slots[j]? = some s ∧ ¬ s.Filled

/-- The filled slots in front, the empty ones behind them, and what is left. -/
structure Parts (slots filled empty rest : List Slot) : Prop where
  eq_append : slots = filled ++ empty ++ rest
  all_filled : ∀ s ∈ filled, s.Filled
  none_filled : ∀ s ∈ empty, ¬ s.Filled
  stranded : rest = [] ∨ empty ≠ [] ∧ ∃ s after, rest = s :: after ∧ s.Filled

theorem parts_of_append {slots filled empty : List Slot} (hslots : slots = filled ++ empty)
    (hfilled : ∀ s ∈ filled, s.Filled) (hempty : ∀ s ∈ empty, ¬ s.Filled) :
    Parts slots filled empty [] where
  eq_append := by rw [hslots, List.append_nil]
  all_filled := hfilled
  none_filled := hempty
  stranded := .inl rfl

theorem Parts.append_of_nil {slots filled empty : List Slot} (h : Parts slots filled empty []) :
    slots = filled ++ empty := by
  rw [h.eq_append, List.append_nil]

/-- All slots have such parts. -/
theorem exists_parts (slots : List Slot) : ∃ filled empty rest, Parts slots filled empty rest := by
  induction slots with
  | nil => exact ⟨[], [], [], rfl, List.forall_mem_nil _, List.forall_mem_nil _, .inl rfl⟩
  | cons s slots ih =>
    obtain ⟨filled, empty, rest, rfl, hfilled, hempty, hrest⟩ := ih
    by_cases hs : s.Filled
    · exact ⟨s :: filled, empty, rest, rfl, List.forall_mem_cons.mpr ⟨hs, hfilled⟩, hempty, hrest⟩
    · -- an empty slot joins the empty ones behind it, or strands a filled one
      cases filled with
      | nil =>
        refine ⟨[], s :: empty, rest, rfl, nofun, List.forall_mem_cons.mpr ⟨hs, hempty⟩, ?_⟩
        exact hrest.imp_right fun h => ⟨List.cons_ne_nil s empty, h.2⟩
      | cons t filled =>
        refine ⟨[], [s], t :: filled ++ empty ++ rest, rfl, nofun,
          List.forall_mem_singleton.mpr hs, .inr ⟨List.cons_ne_nil s [], t, _, rfl, ?_⟩⟩
        exact hfilled t List.mem_cons_self

/-- Slots with a rest have a stranded one, the first of the rest. -/
theorem Parts.stranded_of_rest {slots filled empty rest : List Slot}
    (h : Parts slots filled empty rest) (hrest : rest ≠ []) :
    Stranded slots (filled.length + empty.length) := by
  obtain ⟨hne, s, after, rfl, hs⟩ := h.stranded.resolve_left hrest
  obtain ⟨e, empty', rfl⟩ := List.exists_cons_of_ne_nil hne
  have he : ¬ e.Filled := h.none_filled e List.mem_cons_self
  rw [h.eq_append]
  refine ⟨⟨s, ?_, hs⟩, filled.length, by simp, e, ?_, he⟩
  · rw [← List.length_append, List.getElem?_append_right (Nat.le_refl _), Nat.sub_self]
    rfl
  · simp

/-- No slot is stranded in front of the rest. -/
theorem Parts.not_stranded {slots filled empty rest : List Slot} {i : Nat}
    (h : Parts slots filled empty rest) (hi : rest = [] ∨ i < filled.length + empty.length) :
    ¬ Stranded slots i := by
  rintro ⟨⟨s, hs, hfilled⟩, j, hj, t, ht, hempty⟩
  have hfront : (filled ++ empty)[i]? = some s := by
    rw [h.eq_append] at hs
    rcases hi with rfl | hi
    · rwa [List.append_nil] at hs
    · rwa [List.getElem?_append_left (by rwa [List.length_append])] at hs
  by_cases hlt : i < filled.length
  · -- then the earlier slot is among the filled ones, too
    have hj : j < filled.length := Nat.lt_trans hj hlt
    rw [h.eq_append, List.append_assoc, List.getElem?_append_left hj] at ht
    exact hempty (h.all_filled t (List.mem_of_getElem? ht))
  · rw [List.getElem?_append_right (Nat.le_of_not_lt hlt)] at hfront
    exact h.none_filled s (List.mem_of_getElem? hfront) hfilled

end Slot

/-! ## The stages of slots -/

namespace Request

variable {slots filled empty rest : List Slot} {stages : List Stage} {source : String}

/-- Filled slots in front give their stages, and reading goes on behind them. -/
theorem stagesOf_filled (h : List.Forall₂ Slot.Holds filled stages) (number : Nat)
    (rest : List Slot) : stagesOf number false (filled ++ rest) =
      (stagesOf (number + filled.length) false rest).map (stages ++ ·) := by
  induction h generalizing number with
  | nil =>
    show stagesOf number false rest = (stagesOf number false rest).map ([] ++ ·)
    cases stagesOf number false rest <;> rfl
  | @cons s stage filled stages hs _ ih =>
    rw [List.cons_append, stagesOf, Slot.stage?_eq_some_iff.mpr hs]
    dsimp only
    rw [if_neg Bool.false_ne_true, ih, List.length_cons, Nat.add_assoc, Nat.add_comm 1]
    cases stagesOf (number + (filled.length + 1)) false rest <;> rfl

/-- Empty slots give nothing, but they are counted, and no filled one is accepted behind them. -/
theorem stagesOf_empty (h : ∀ s ∈ empty, ¬ s.Filled) (number : Nat) (ended : Bool)
    (rest : List Slot) : stagesOf number ended (empty ++ rest) =
      stagesOf (number + empty.length) (ended || !empty.isEmpty) rest := by
  induction empty generalizing number ended with
  | nil => simp
  | cons s empty ih =>
    obtain ⟨hs, hempty⟩ := List.forall_mem_cons.mp h
    rw [List.cons_append, stagesOf, Slot.stage?_eq_none_iff.mpr hs]
    dsimp only
    rw [ih hempty, List.length_cons, Nat.add_assoc, Nat.add_comm 1]
    simp

/-- A filled slot behind an empty one is the error that names it. -/
theorem stagesOf_stranded {s : Slot} (h : s.Filled) (number : Nat) (rest : List Slot) :
    stagesOf number true (s :: rest) = .error (.missingStage number) := by
  obtain ⟨stage, hstage⟩ := h.exists_holds
  rw [stagesOf, Slot.stage?_eq_some_iff.mpr hstage]
  rfl

/-- If the filled slots come first, their stages are the stages. -/
theorem stagesOf_of_inFront (h : Slot.Parts slots filled empty [])
    (hstages : List.Forall₂ Slot.Holds filled stages) (number : Nat) :
    stagesOf number false slots = .ok stages := by
  rw [h.eq_append, List.append_assoc, stagesOf_filled hstages, stagesOf_empty h.none_filled]
  exact congrArg Except.ok (List.append_nil stages)

/-- Each of some filled slots holds a stage. -/
theorem exists_stages (h : ∀ s ∈ filled, s.Filled) :
    ∃ stages, List.Forall₂ Slot.Holds filled stages := by
  induction filled with
  | nil => exact ⟨[], .nil⟩
  | cons s filled ih =>
    obtain ⟨hs, hfilled⟩ := List.forall_mem_cons.mp h
    obtain ⟨stage, hstage⟩ := hs.exists_holds
    obtain ⟨stages, hstages⟩ := ih hfilled
    exact ⟨stage :: stages, .cons hstage hstages⟩

/-- If they do not, the error names the first slot of the rest. -/
theorem stagesOf_of_rest (h : Slot.Parts slots filled empty rest) (hrest : rest ≠ [])
    (number : Nat) : stagesOf number false slots =
      .error (.missingStage (number + (filled.length + empty.length))) := by
  obtain ⟨hne, s, after, rfl, hs⟩ := h.stranded.resolve_left hrest
  obtain ⟨stages, hstages⟩ := exists_stages h.all_filled
  -- the rest is stranded because there is an empty slot before it
  have hended : (false || !empty.isEmpty) = true := by
    cases empty with
    | nil => exact absurd rfl hne
    | cons => rfl
  rw [h.eq_append, List.append_assoc, stagesOf_filled hstages, stagesOf_empty h.none_filled,
    hended, stagesOf_stranded hs, Nat.add_assoc]
  rfl

theorem stagesOf_congr {slots' : List Slot} (h : List.Forall₂ Slot.Like slots slots')
    (number : Nat) (ended : Bool) : stagesOf number ended slots = stagesOf number ended slots' := by
  induction h generalizing number ended with
  | nil => rfl
  | @cons s s' _ _ hs _ ih =>
    rw [stagesOf, stagesOf, ← hs.stage?_eq]
    cases s.stage? with
    | none => exact ih _ _
    | some stage =>
      cases ended with
      | true => rfl
      | false => exact congrArg (Except.map (stage :: ·)) (ih _ _)

/-! ## Requests -/

/-- A request keeps the source and the stages that it is made of. -/
theorem of_ofStages {request : Request} (h : ofStages source stages = .ok request) :
    request.source = source ∧ request.stages = stages := by
  unfold ofStages at h
  split at h
  · cases h
  · split at h
    · obtain rfl := Except.ok.inj h
      exact ⟨rfl, rfl⟩
    · cases h

/-- Any one to three stages make a request. -/
theorem exists_ofStages (source : String) {stages : List Stage} (hne : stages ≠ [])
    (hle : stages.length ≤ maxStages) : ∃ request, ofStages source stages = .ok request := by
  rw [ofStages, dif_neg hne, dif_pos hle]
  exact ⟨_, rfl⟩

/-- A request is made of its source and its stages. -/
theorem ofStages_self (request : Request) :
    ofStages request.source request.stages = .ok request := by
  rw [ofStages, dif_neg request.stages_ne, dif_pos request.stages_le]

variable {first second third : Slot}

theorem ofSlots_of_stages (h : stagesOf 1 false [first, second, third] = .ok stages) :
    ofSlots source first second third = ofStages source stages := by
  unfold ofSlots
  rw [h]
  rfl

theorem ofSlots_of_error {e : ChainError}
    (h : stagesOf 1 false [first, second, third] = .error e) :
    ofSlots source first second third = .error e := by
  unfold ofSlots
  rw [h]
  rfl

/-- Slots that hold the stages of a request, with empty ones behind them, make this request. -/
theorem ofSlots_of_inFront (h : Slot.Parts [first, second, third] filled empty [])
    {request : Request} (hstages : List.Forall₂ Slot.Holds filled request.stages) :
    ofSlots request.source first second third = .ok request := by
  rw [ofSlots_of_stages (stagesOf_of_inFront h hstages 1), ofStages_self]

/-- The three outcomes: no slot is filled, the filled ones come first, or one is stranded. -/
theorem ofSlots_cases (source : String) (first second third : Slot) :
    let slots := [first, second, third]
    let outcome := ofSlots source first second third
    ((∀ s ∈ slots, ¬ s.Filled) ∧ outcome = .error .noStages) ∨
    (∃ filled empty request, Slot.Parts slots filled empty [] ∧ filled ≠ [] ∧
      List.Forall₂ Slot.Holds filled request.stages ∧ request.source = source ∧
      outcome = .ok request) ∨
    ∃ filled empty rest, Slot.Parts slots filled empty rest ∧ rest ≠ [] ∧
      outcome = .error (.missingStage (filled.length + empty.length + 1)) := by
  intro slots outcome
  obtain ⟨filled, empty, rest, hparts⟩ := Slot.exists_parts slots
  by_cases hrest : rest = []
  · subst hrest
    obtain ⟨stages, hstages⟩ := exists_stages hparts.all_filled
    have houtcome : outcome = ofStages source stages :=
      ofSlots_of_stages (stagesOf_of_inFront hparts hstages 1)
    by_cases hfilled : filled = []
    · subst hfilled
      obtain rfl := List.forall₂_nil_left_iff.mp hstages
      refine .inl ⟨?_, houtcome⟩
      rw [hparts.append_of_nil]
      exact hparts.none_filled
    · have hlen : stages.length = filled.length := hstages.length_eq.symm
      -- three slots hold at most three stages, so there are not too many
      have hthree : 3 = filled.length + empty.length := by
        simpa [slots] using congrArg List.length hparts.append_of_nil
      have hne : stages ≠ [] := by
        rintro rfl
        exact hfilled (List.eq_nil_of_length_eq_zero hlen.symm)
      obtain ⟨request, hrequest⟩ := exists_ofStages source hne (show _ ≤ 3 by omega)
      obtain ⟨hsource, rfl⟩ := of_ofStages hrequest
      exact .inr (.inl ⟨filled, empty, request, hparts, hfilled, hstages, hsource,
        houtcome.trans hrequest⟩)
  · refine .inr (.inr ⟨filled, empty, rest, hparts, hrest, ?_⟩)
    rw [Nat.add_comm _ 1]
    exact ofSlots_of_error (stagesOf_of_rest hparts hrest 1)

/-- Slots make a request exactly if there are filled ones and these come first. -/
theorem exists_ofSlots_iff : (∃ request, ofSlots source first second third = .ok request) ↔
    ∃ filled empty, [first, second, third] = filled ++ empty ∧ filled ≠ [] ∧
      (∀ s ∈ filled, s.Filled) ∧ ∀ s ∈ empty, ¬ s.Filled := by
  constructor
  · rintro ⟨request, hrequest⟩
    rcases ofSlots_cases source first second third with ⟨-, houtcome⟩ |
      ⟨filled, empty, -, hparts, hne, -⟩ | ⟨_, _, _, -, -, houtcome⟩
    · rw [houtcome] at hrequest
      cases hrequest
    · exact ⟨filled, empty, hparts.append_of_nil, hne, hparts.all_filled,
        hparts.none_filled⟩
    · rw [houtcome] at hrequest
      cases hrequest
  · rintro ⟨filled, empty, hslots, hne, hfilled, hempty⟩
    have hparts := Slot.parts_of_append hslots hfilled hempty
    rcases ofSlots_cases source first second third with ⟨hnone, -⟩ |
      ⟨_, _, request, -, -, -, -, houtcome⟩ | ⟨_, _, _, hstranded, hrest, -⟩
    · obtain ⟨s, hs⟩ := List.exists_mem_of_ne_nil filled hne
      have hmem : s ∈ [first, second, third] := hslots ▸ List.mem_append_left empty hs
      exact absurd (hfilled s hs) (hnone s hmem)
    · exact ⟨request, houtcome⟩
    · exact absurd (hstranded.stranded_of_rest hrest) (hparts.not_stranded (.inl rfl))

/-- The request that they make has the stages of the filled slots, in order. -/
theorem ofSlots_eq_ok_iff {request : Request} :
    ofSlots source first second third = .ok request ↔ request.source = source ∧ ∃ filled empty,
      [first, second, third] = filled ++ empty ∧ (∀ s ∈ filled, s.Filled) ∧
        (∀ s ∈ empty, ¬ s.Filled) ∧ List.Forall₂ Slot.Holds filled request.stages := by
  constructor
  · intro h
    rcases ofSlots_cases source first second third with ⟨-, houtcome⟩ |
      ⟨filled, empty, request', hparts, -, hstages, hsource, houtcome⟩ | ⟨_, _, _, -, -, houtcome⟩
    · rw [houtcome] at h
      cases h
    · obtain rfl := Except.ok.inj (houtcome.symm.trans h)
      exact ⟨hsource, filled, empty, hparts.append_of_nil, hparts.all_filled,
        hparts.none_filled, hstages⟩
    · rw [houtcome] at h
      cases h
  · rintro ⟨rfl, filled, empty, hslots, hfilled, hempty, hstages⟩
    exact ofSlots_of_inFront (Slot.parts_of_append hslots hfilled hempty) hstages

/-- There is no stage exactly if no slot is filled. -/
theorem ofSlots_eq_noStages_iff :
    ofSlots source first second third = .error .noStages ↔
      ∀ s ∈ [first, second, third], ¬ s.Filled := by
  constructor
  · intro h
    rcases ofSlots_cases source first second third with ⟨hnone, -⟩ |
      ⟨_, _, _, -, -, -, -, houtcome⟩ | ⟨_, _, _, -, -, houtcome⟩
    · exact hnone
    · rw [houtcome] at h
      cases h
    · rw [houtcome] at h
      cases h
  · intro hnone
    have hparts := Slot.parts_of_append (List.nil_append [first, second, third]).symm
      (List.forall_mem_nil _) hnone
    rw [ofSlots_of_stages (stagesOf_of_inFront hparts .nil 1), ofStages, dif_pos rfl]

/-- A stage is missing exactly if a slot is stranded, and the error has the number of the first one.
-/
theorem ofSlots_eq_missingStage_iff {k : Nat} :
    ofSlots source first second third = .error (.missingStage k) ↔
      ∃ i, k = i + 1 ∧ Slot.Stranded [first, second, third] i ∧
        ∀ j, j < i → ¬ Slot.Stranded [first, second, third] j := by
  constructor
  · intro h
    rcases ofSlots_cases source first second third with ⟨-, houtcome⟩ |
      ⟨_, _, _, -, -, -, -, houtcome⟩ | ⟨filled, empty, rest, hparts, hrest, houtcome⟩
    · rw [houtcome] at h
      cases h
    · rw [houtcome] at h
      cases h
    · obtain rfl := ChainError.missingStage.inj (Except.error.inj (houtcome.symm.trans h))
      exact ⟨_, rfl, hparts.stranded_of_rest hrest, fun j hj => hparts.not_stranded (.inr hj)⟩
  · rintro ⟨i, rfl, hstranded, hfirst⟩
    rcases ofSlots_cases source first second third with ⟨hnone, -⟩ |
      ⟨_, _, _, hparts, -⟩ | ⟨filled, empty, rest, hparts, hrest, houtcome⟩
    · obtain ⟨⟨s, hs, hfilled⟩, -⟩ := hstranded
      exact absurd hfilled (hnone s (List.mem_of_getElem? hs))
    · exact absurd hstranded (hparts.not_stranded (.inl rfl))
    · -- there is only one first stranded slot
      have hle : filled.length + empty.length ≤ i :=
        Nat.le_of_not_lt fun hi => hparts.not_stranded (.inr hi) hstranded
      have hge : i ≤ filled.length + empty.length :=
        Nat.le_of_not_lt fun hi => hfirst _ hi (hparts.stranded_of_rest hrest)
      rw [houtcome, Nat.le_antisymm hle hge]

/-- Slots are refused for these two reasons only; there are never too many of them. -/
theorem error_of_ofSlots {e : ChainError} (h : ofSlots source first second third = .error e) :
    e = .noStages ∨ ∃ k, e = .missingStage k := by
  rcases ofSlots_cases source first second third with ⟨-, houtcome⟩ |
    ⟨_, _, _, -, -, -, -, houtcome⟩ | ⟨_, _, _, -, -, houtcome⟩
  · exact .inl (Except.error.inj (h.symm.trans houtcome))
  · rw [houtcome] at h
    cases h
  · exact .inr ⟨_, Except.error.inj (h.symm.trans houtcome)⟩

theorem ofSlots_congr {first' second' third' : Slot}
    (h : List.Forall₂ Slot.Like [first, second, third] [first', second', third']) :
    ofSlots source first' second' third' = ofSlots source first second third := by
  unfold ofSlots
  rw [stagesOf_congr h]

/-- The slot in which a stage of a request is sent again. -/
def slot (request : Request) (i : Nat) : Slot :=
  request.stages[i]?.elim ({} : Slot) .ofStage

/-- The slots of a request are those of its stages and as many empty ones as make three. -/
theorem slots_eq (request : Request) : [request.slot 0, request.slot 1, request.slot 2] =
    request.stages.map .ofStage ++
      List.replicate (maxStages - request.stages.length) ({} : Slot) := by
  have hle : request.stages.length ≤ 3 := request.stages_le
  unfold slot
  generalize request.stages = stages at hle ⊢
  match stages, hle with
  | [], _ | [_], _ | [_, _], _ | [_, _, _], _ => rfl

/-- The stages of slots are read back from slots of their own. -/
theorem holds_again (h : List.Forall₂ Slot.Holds filled stages) :
    List.Forall₂ Slot.Holds (stages.map .ofStage) stages := by
  induction h with
  | nil => exact .nil
  | cons hs _ ih => exact .cons hs.ofStage ih

theorem filled_of_holds (h : List.Forall₂ Slot.Holds filled stages) : ∀ s ∈ filled, s.Filled :=
  ((List.forall₂_and_left filled stages).mp (h.imp fun _ _ hs => ⟨hs.filled, hs⟩)).1

/-- A request that was made of slots is made of its own slots again. -/
theorem ofSlots_slots {request : Request} (h : ofSlots source first second third = .ok request) :
    ofSlots request.source (request.slot 0) (request.slot 1) (request.slot 2) = .ok request := by
  obtain ⟨-, filled, empty, -, -, -, hstages⟩ := ofSlots_eq_ok_iff.mp h
  have hagain := holds_again hstages
  have hempty : ∀ s ∈ List.replicate (maxStages - request.stages.length) ({} : Slot),
      ¬ s.Filled := by
    intro s hs
    rw [List.eq_of_mem_replicate hs]
    rintro ⟨name, hname, -⟩
    cases hname
  exact ofSlots_of_inFront
    (Slot.parts_of_append request.slots_eq (filled_of_holds hagain) hempty) hagain

/-- **Which slots make a request.** It is made exactly of slots of which the filled ones come first,
if there are any; its stages are those of the filled slots, in order. Without a filled slot there is
no stage, and otherwise the first slot is named that is filled behind an empty one, which has a
number from two on; there is no other error. The flags of empty slots do not matter, and the stages
of a request, sent in slots again, make the same request. -/
theorem ofSlots_in_front (source : String) (first second third : Slot) :
    let slots := [first, second, third]
    let outcome := ofSlots source first second third
    ((∃ request, outcome = .ok request) ↔ ∃ filled empty, slots = filled ++ empty ∧ filled ≠ [] ∧
      (∀ s ∈ filled, s.Filled) ∧ ∀ s ∈ empty, ¬ s.Filled) ∧
    (∀ request, outcome = .ok request ↔ request.source = source ∧ ∃ filled empty,
      slots = filled ++ empty ∧ (∀ s ∈ filled, s.Filled) ∧ (∀ s ∈ empty, ¬ s.Filled) ∧
        List.Forall₂ Slot.Holds filled request.stages) ∧
    (outcome = .error .noStages ↔ ∀ s ∈ slots, ¬ s.Filled) ∧
    (∀ k, outcome = .error (.missingStage k) ↔
      ∃ i, k = i + 1 ∧ Slot.Stranded slots i ∧ ∀ j, j < i → ¬ Slot.Stranded slots j) ∧
    (∀ k, outcome = .error (.missingStage k) → ∃ before, 1 ≤ before ∧ k = before + 1 ∧
      (ChainError.missingStage k).message = "stage " ++ toString (before + 1) ++
        " was supplied without stage " ++ toString before) ∧
    (∀ e, outcome = .error e → e = .noStages ∨ ∃ k, e = .missingStage k) ∧
    (∀ first' second' third', List.Forall₂ Slot.Like slots [first', second', third'] →
      ofSlots source first' second' third' = outcome) ∧
    ∀ request, outcome = .ok request →
      ofSlots request.source (request.slot 0) (request.slot 1) (request.slot 2) =
        .ok request := by
  intro slots outcome
  refine ⟨exists_ofSlots_iff, fun _ => ofSlots_eq_ok_iff, ofSlots_eq_noStages_iff,
    fun _ => ofSlots_eq_missingStage_iff, fun k hk => ?_, fun _ => error_of_ofSlots,
    fun _ _ _ => ofSlots_congr, fun _ => ofSlots_slots⟩
  obtain ⟨i, rfl, ⟨-, j, hj, -⟩, -⟩ := ofSlots_eq_missingStage_iff.mp hk
  exact ⟨i, Nat.lt_of_le_of_lt (Nat.zero_le j) hj, rfl, rfl⟩

/-- A compiler and a decompiler, with a blank slot between them and behind them. -/
theorem slots_around_blank :
    let compiler : Slot := { tool := some "\tdxc ", flags := some "-spirv" }
    let blank : Slot := { tool := some "\u2003", flags := some "-O" }
    let decompiler : Slot := { tool := some "spirv-cross" }
    (ofSlots "text" compiler blank decompiler = .error (.missingStage 3) ∧
      Slot.Stranded [compiler, blank, decompiler] 2) ∧
    ∃ request, ofSlots "text" compiler decompiler blank = .ok request ∧
      request.stages = [⟨"dxc", "-spirv"⟩, ⟨"spirv-cross", ""⟩] ∧
      ofSlots "text" (request.slot 0) (request.slot 1) (request.slot 2) = .ok request := by
  intro compiler blank decompiler
  obtain ⟨-, -, -, hmissing, -⟩ := ofSlots_in_front "text" compiler blank decompiler
  obtain ⟨-, -, -, -, -, -, -, hagain⟩ := ofSlots_in_front "text" compiler decompiler blank
  have hrejected : ofSlots "text" compiler blank decompiler = .error (.missingStage 3) := rfl
  obtain ⟨i, hi, hstranded, -⟩ := (hmissing 3).mp hrejected
  obtain rfl := Nat.succ.inj hi
  refine ⟨⟨hrejected, hstranded⟩, _, rfl, rfl, ?_⟩
  exact hagain _ rfl

end Request

end ShaderChain
