import ShaderChain.Proofs.Launching
import Mathlib.Control.Monad.Basic

/-!
# Which file a tool on the search path is started from

A tool without a configured location is searched twice in the same list of directories, by two
programs. Discovery takes the first candidate that is a file with an execute bit, and keeps only the
bare name. The operating system searches the name again for every launch, and asks of each candidate
how its execution ends: after some failures it goes on (`Errno.passedOver`), any other one ends the
search (`FileSystem.Blocks`). Both spell the candidate of a directory in their own way, but mean the
same file (`FileSystem.stat_candidate`).

`Discovery.launch_discovered` compares the two. As long as no candidate on the way blocks the search,
the launch executes the very candidate that discovery found. One that does makes every launch fail,
and no other file is started in its place. What discovery does not find cannot be launched.
-/

namespace ShaderChain

variable {fs : FileSystem} {p program : Path} {args : List Bytes}

/-! ## Names without a slash -/

/-- A byte of a character with a value from `0x80` on has its highest bit set. -/
theorem Utf8.le_toNat_of_mem_encodeChar {c : Char} {b : UInt8} (hc : 127 < c.val.toNat)
    (hb : b ∈ String.utf8EncodeChar c) : 128 ≤ b.toNat := by
  have hlong : ¬ c.val.toNat ≤ 127 := by omega
  unfold String.utf8EncodeChar at hb
  simp only [hlong, if_false] at hb
  split at hb
  · simp only [List.mem_cons, List.not_mem_nil, or_false] at hb
    rcases hb with rfl | rfl <;> simp <;> omega
  · split at hb
    · simp only [List.mem_cons, List.not_mem_nil, or_false] at hb
      rcases hb with rfl | rfl | rfl <;> simp <;> omega
    · simp only [List.mem_cons, List.not_mem_nil, or_false] at hb
      rcases hb with rfl | rfl | rfl | rfl <;> simp <;> omega

/-- The byte of a slash stands for nothing else in a text. -/
theorem Utf8.mem_of_slash_mem_ofText {s : String} (h : Path.slash ∈ ofText s) : '/' ∈ s.toList := by
  obtain ⟨c, hc, hbyte⟩ := List.mem_flatMap.mp h
  have hslash : Path.slash.toNat = 47 := rfl
  have hshort : c.val.toNat ≤ 127 := by
    rcases Nat.lt_or_ge 127 c.val.toNat with hlong | hshort
    · have hhigh := le_toNat_of_mem_encodeChar hlong hbyte
      omega
    · exact hshort
  unfold String.utf8EncodeChar at hbyte
  simp only [hshort, if_true, List.mem_singleton] at hbyte
  have hnat : c.val.toNat = 47 := by
    have hvalue := congrArg UInt8.toNat hbyte
    simp only [hslash, UInt8.toNat_ofNat'] at hvalue
    omega
  have hchar : c = '/' := Char.ext (UInt32.toNat_inj.mp hnat)
  exact hchar ▸ hc

theorem Utf8.ofText_ne_nil {s : String} (h : s ≠ "") : ofText s ≠ [] := by
  intro hnil
  have hempty : s.toList = [] := by
    cases hs : s.toList with
    | nil => rfl
    | cons c rest =>
      rw [ofText, encode, hs, List.flatMap_cons] at hnil
      exact absurd (List.append_eq_nil_iff.mp hnil).1 String.utf8EncodeChar_ne_nil
  exact h (String.toList_eq_nil_iff.mp hempty)

/-! ## How a candidate is spelled -/

namespace Path

theorem splitAt_cons (sep b : UInt8) {bs piece : Bytes} {pieces : List Bytes}
    (h : splitAt sep bs = piece :: pieces) :
    splitAt sep (b :: bs) =
      if b = sep then [] :: piece :: pieces else (b :: piece) :: pieces := by
  unfold splitAt at h ⊢
  rw [List.foldr_cons, h]

theorem splitAt_ne_nil (sep : UInt8) (bs : Bytes) : splitAt sep bs ≠ [] := by
  induction bs with
  | nil => exact List.cons_ne_nil _ _
  | cons b rest ih =>
    obtain ⟨piece, pieces, hrest⟩ := List.exists_cons_of_ne_nil ih
    rw [splitAt_cons sep b hrest]
    split <;> exact List.cons_ne_nil _ _

/-- The pieces of two strings with a separator between them. -/
theorem splitAt_append (sep : UInt8) (before after : Bytes) :
    splitAt sep (before ++ sep :: after) = splitAt sep before ++ splitAt sep after := by
  induction before with
  | nil =>
    obtain ⟨piece, pieces, hafter⟩ := List.exists_cons_of_ne_nil (splitAt_ne_nil sep after)
    rw [List.nil_append, splitAt_cons sep sep hafter, if_pos rfl, hafter]
    rfl
  | cons b rest ih =>
    obtain ⟨piece, pieces, hrest⟩ := List.exists_cons_of_ne_nil (splitAt_ne_nil sep rest)
    rw [hrest, List.cons_append] at ih
    rw [List.cons_append, splitAt_cons sep b ih, splitAt_cons sep b hrest]
    split <;> rfl

theorem getLast?_below (dir : Bytes) {name : Path} (hne : name ≠ []) :
    (dir ++ slash :: name).getLast? = name.getLast? := by
  obtain ⟨last, hlast⟩ := Option.ne_none_iff_exists'.mp (mt List.getLast?_eq_none_iff.mp hne)
  rw [← List.singleton_append, ← List.append_assoc, List.getLast?_append, hlast]
  rfl

/-- A second slash between a directory and a name adds no component. -/
theorem components_slash (dir : Path) {name : Path} (hne : name ≠ []) :
    components (dir ++ slash :: slash :: name) = components (dir ++ slash :: name) := by
  -- between the two slashes there is an empty piece, which is no component
  have hpieces : splitAt slash (slash :: name) = [] :: splitAt slash name :=
    splitAt_append slash [] name
  have hlast : (slash :: name).getLast? = name.getLast? := getLast?_below [] hne
  unfold components
  rw [splitAt_append, splitAt_append, hpieces, getLast?_below dir (List.cons_ne_nil _ _),
    getLast?_below dir hne, hlast]
  simp

end Path

namespace FileSystem

variable {dir : Path}

/-- The two spellings of a candidate differ in at most a second slash. -/
theorem candidate_cases (hbare : Path.slash ∉ program) (dir : Path) :
    candidate dir program = Path.join dir program ∨
      ∃ above, dir = above ++ [Path.slash] ∧
        candidate dir program = above ++ Path.slash :: Path.slash :: program ∧
        Path.join dir program = above ++ Path.slash :: program := by
  have hrelative : ¬ Path.isAbsolute program = true := by
    intro habsolute
    exact hbare (List.mem_of_mem_head? (by simpa [Path.isAbsolute] using habsolute))
  by_cases hempty : dir.isEmpty = true
  · left
    obtain rfl := List.isEmpty_iff.mp hempty
    simp [candidate, Path.join, hrelative]
  · by_cases hlast : dir.getLast? = some Path.slash
    · right
      obtain ⟨above, rfl⟩ := List.getLast?_eq_some_iff.mp hlast
      refine ⟨above, rfl, ?_, ?_⟩
      · simp [candidate]
      · simp [Path.join, hrelative]
    · left
      simp [candidate, Path.join, hrelative, hempty, hlast]

/-- Both spellings of a candidate name the same place, unless the longer one is too long. -/
theorem locate_candidate (hne : program ≠ []) (hbare : Path.slash ∉ program)
    (hlen : (candidate dir program).length ≤ maxPath) :
    fs.locate (candidate dir program) = fs.locate (Path.join dir program) := by
  rcases candidate_cases hbare dir with heq | ⟨above, -, hcandidate, hjoin⟩
  · rw [heq]
  · rw [hcandidate] at hlen ⊢
    rw [hjoin]
    have hlen' : (above ++ Path.slash :: program).length ≤ maxPath := by
      simp only [List.length_append, List.length_cons] at hlen ⊢
      omega
    have hstart : fs.start (above ++ Path.slash :: Path.slash :: program) =
        fs.start (above ++ Path.slash :: program) := by
      cases above <;> rfl
    unfold locate locateFor
    rw [if_neg (by simp), if_neg (Nat.not_lt.mpr hlen), if_neg (by simp),
      if_neg (Nat.not_lt.mpr hlen'), hstart, Path.components_slash above hne]

end FileSystem

/-! ## How the execution of a candidate ends -/

/-- The failures after which a search goes on with the next directory. -/
def Errno.passedOver : Errno → Bool
  | .denied | .noEntry | .notDirectory => true
  | _ => false

namespace FileSystem

/-- A path that cannot be followed, for a reason that ends a search. -/
def Blocks (fs : FileSystem) (p : Path) (e : Errno) : Prop :=
  fs.stat p = .error e ∧ e.passedOver = false

/-- Whoever may start programs here may start every file with an execute bit. -/
def AnyBitSuffices (fs : FileSystem) : Prop :=
  ∀ entry ∈ fs.nodes, entry.2.isExecutable = true → entry.2.ownerMayExecute = true

instance : Decidable fs.AnyBitSuffices :=
  inferInstanceAs (Decidable (∀ entry ∈ fs.nodes, _))

/-- The reasons for which a path cannot be followed. -/
def walkErrors : List Errno :=
  [.noEntry, .notDirectory, .nameTooLong, .tooManyLinks]

theorem walkBy_error {create : Bool} {follow : Location → List Bytes → Except Errno Location}
    (hfollow : ∀ loc names e, follow loc names = .error e → e ∈ walkErrors) {loc : Location}
    {names : List Bytes} {e : Errno} (h : fs.walkBy create follow loc names = .error e) :
    e ∈ walkErrors := by
  induction names generalizing loc with
  | nil => cases h
  | cons name rest ih =>
    unfold walkBy at h
    -- the walk ends here with an error of its own, goes on, or follows a link
    split at h
    · obtain rfl := Except.error.inj h
      decide
    · split at h
      · exact ih h
      · split at h
        · exact ih h
        · split at h
          · obtain rfl := Except.error.inj h
            decide
          · dsimp only at h
            split at h
            · split at h
              · cases h
              · obtain rfl := Except.error.inj h
                decide
            · exact hfollow _ _ _ h
            · exact ih h

theorem walk_error {create : Bool} {links : Nat} {loc : Location} {names : List Bytes} {e : Errno}
    (h : fs.walk create links loc names = .error e) : e ∈ walkErrors := by
  induction links generalizing loc names e with
  | zero =>
    refine walkBy_error (fun _ _ e he => ?_) h
    obtain rfl := Except.error.inj he
    decide
  | succ links ih => exact walkBy_error (fun _ _ _ he => ih he) h

theorem stat_of_locate {loc : Location} (h : fs.locate p = .ok loc) :
    fs.stat p = match fs.get? loc with
      | some node => .ok node
      | none => .error .noEntry := by
  rw [stat, h]
  rfl

theorem stat_of_locate_error {e : Errno} (h : fs.locate p = .error e) : fs.stat p = .error e := by
  rw [stat, h]
  rfl

theorem stat_error {e : Errno} (h : fs.stat p = .error e) : e ∈ walkErrors := by
  cases hloc : fs.locate p with
  | error e' =>
    rw [stat_of_locate_error hloc] at h
    obtain rfl := Except.error.inj h
    unfold locate locateFor at hloc
    split at hloc
    · obtain rfl := Except.error.inj hloc
      decide
    · split at hloc
      · obtain rfl := Except.error.inj hloc
        decide
      · exact walk_error hloc
  | ok loc =>
    rw [stat_of_locate hloc] at h
    split at h
    · cases h
    · obtain rfl := Except.error.inj h
      decide

/-- A search is ended by a loop of links or by a name that is too long. -/
theorem Blocks.cause {e : Errno} (h : fs.Blocks p e) : e = .tooManyLinks ∨ e = .nameTooLong := by
  have hmem := stat_error h.1
  have hends := h.2
  simp only [walkErrors, List.mem_cons, List.not_mem_nil, or_false] at hmem
  rcases hmem with rfl | rfl | rfl | rfl
  · cases hends
  · cases hends
  · exact .inr rfl
  · exact .inl rfl

theorem AnyBitSuffices.of_stat (h : fs.AnyBitSuffices) {node : Node} (hstat : fs.stat p = .ok node)
    (hnode : node.isExecutable = true) : node.ownerMayExecute = true := by
  cases hloc : fs.locate p with
  | error e =>
    rw [stat_of_locate_error hloc] at hstat
    cases hstat
  | ok loc =>
    rw [stat_of_locate hloc] at hstat
    cases hget : fs.get? loc with
    | none =>
      rw [hget] at hstat
      cases hstat
    | some found =>
      rw [hget] at hstat
      obtain rfl := Except.ok.inj hstat
      unfold get? at hget
      split at hget
      · obtain rfl := Option.some.inj hget
        cases hnode
      · obtain ⟨before, after, hnodes, -⟩ := List.lookup_eq_some_iff.mp hget
        exact h (loc, found) (hnodes ▸ by simp) hnode

end FileSystem

/-- An execute bit for the owner is an execute bit. -/
theorem Node.isExecutable_of_ownerMayExecute {node : Node} (h : node.ownerMayExecute = true) :
    node.isExecutable = true := by
  cases node with
  | file mode contents runs =>
    -- the bit of the owner is one of the three
    have hbits : mode &&& 0o100 = (mode &&& 0o111) &&& 0o100 := by
      rw [Nat.and_assoc]
      rfl
    simp only [ownerMayExecute, isExecutable, bne_iff_ne, ne_eq] at h ⊢
    intro hnone
    rw [hbits, hnone] at h
    exact h (Nat.zero_and _)
  | directory | link => cases h

namespace FileSystem

variable {dir : Path}

theorem execute_of_stat_error {e : Errno} (h : fs.stat p = .error e) (args : List Bytes) :
    fs.execute args p = .error e := by
  rw [execute, h]
  rfl

/-- The execution of a file with an execute bit is tried, and not refused for lack of rights. -/
theorem execute_of_isExecutable (hbits : fs.AnyBitSuffices) (h : fs.isExecutable p = true)
    (args : List Bytes) {e : Errno} (he : fs.execute args p = .error e) :
    e.passedOver = false := by
  unfold isExecutable at h
  cases hstat : fs.stat p with
  | error e' =>
    rw [hstat] at h
    cases h
  | ok node =>
    rw [hstat] at h
    have hmay := hbits.of_stat hstat h
    cases node with
    | file mode contents runs =>
      rw [execute_of_stat hstat, hmay, if_neg (by decide)] at he
      split at he
      · obtain rfl := Except.error.inj he
        rfl
      · split at he
        · cases he
        · obtain rfl := Except.error.inj he
          rfl
    | directory | link => cases h

/-- What has no execute bit is passed over, if its path can be followed. -/
theorem execute_of_not_isExecutable (h : fs.isExecutable p = false) (args : List Bytes) :
    ∃ e, fs.execute args p = .error e ∧ (e.passedOver = true ∨ fs.Blocks p e) := by
  unfold isExecutable at h
  cases hstat : fs.stat p with
  | error e =>
    refine ⟨e, execute_of_stat_error hstat args, ?_⟩
    cases hpassed : e.passedOver with
    | true => exact .inl rfl
    | false => exact .inr ⟨hstat, hpassed⟩
  | ok node =>
    refine ⟨.denied, ?_, .inl rfl⟩
    rw [hstat] at h
    cases node with
    | file mode contents runs =>
      have hmay : (Node.file mode contents runs).ownerMayExecute = false :=
        Bool.eq_false_iff.mpr fun hmay =>
          Bool.false_ne_true (h.symm.trans (Node.isExecutable_of_ownerMayExecute hmay))
      rw [execute_of_stat hstat, hmay]
      rfl
    | directory | link =>
      rw [execute, hstat]
      rfl

/-! ## Searching -/

variable {denied : Bool} {last : Errno} {before after dirs : List Path}

/-- A search goes on behind a candidate that is passed over. -/
theorem search_cons_passedOver {e : Errno} (h : fs.execute args (candidate dir program) = .error e)
    (he : e.passedOver = true) (denied : Bool) (last : Errno) (rest : List Path) :
    ∃ denied' last', fs.search args program denied last (dir :: rest) =
      fs.search args program denied' last' rest := by
  rw [search, h]
  cases e <;> first | exact ⟨_, _, rfl⟩ | cases he

/-- A search ends with a candidate that is not passed over. -/
theorem search_cons_decided
    (h : ∀ e, fs.execute args (candidate dir program) = .error e → e.passedOver = false)
    (denied : Bool) (last : Errno) (rest : List Path) :
    fs.search args program denied last (dir :: rest) =
      fs.execute args (candidate dir program) := by
  rw [search]
  cases hexecute : fs.execute args (candidate dir program) with
  | ok p => rfl
  | error e =>
    have hends := h e hexecute
    cases e <;> first | rfl | cases hends

/-- A search ends with a candidate that blocks it. -/
theorem search_cons_blocked {e : Errno} (h : fs.Blocks (candidate dir program) e) (denied : Bool)
    (last : Errno) (rest : List Path) :
    fs.search args program denied last (dir :: rest) = .error e := by
  have hexecute := execute_of_stat_error h.1 args
  rw [search_cons_decided _ denied last rest, hexecute]
  intro e' he'
  obtain rfl := Except.error.inj (hexecute.symm.trans he')
  exact h.2

/-- Both spellings of a candidate are executable, or the longer one blocks the search. -/
theorem stat_candidate (fs : FileSystem) (hne : program ≠ []) (hbare : Path.slash ∉ program)
    (dir : Path) :
    fs.locate (candidate dir program) = fs.locate (Path.join dir program) ∨
      fs.Blocks (candidate dir program) .nameTooLong := by
  by_cases hlen : (candidate dir program).length ≤ maxPath
  · exact .inl (locate_candidate hne hbare hlen)
  · right
    refine ⟨stat_of_locate_error ?_, rfl⟩
    have hnonempty : ¬ (candidate dir program).isEmpty = true := by
      intro hempty
      rw [List.isEmpty_iff.mp hempty] at hlen
      exact hlen (Nat.zero_le _)
    rw [locate, locateFor, if_neg hnonempty, if_pos (Nat.not_le.mp hlen)]

theorem isExecutable_congr {q : Path} (h : fs.locate p = fs.locate q) :
    fs.isExecutable p = fs.isExecutable q := by
  rw [isExecutable, isExecutable, stat, stat, h]

/-- A search passes over a directory that discovery passes over, or is blocked there. -/
theorem search_cons_of_not_found (hne : program ≠ []) (hbare : Path.slash ∉ program)
    (h : fs.isExecutable (Path.join dir program) = false) (args : List Bytes) (denied : Bool)
    (last : Errno) (rest : List Path) :
    (∃ denied' last', fs.search args program denied last (dir :: rest) =
      fs.search args program denied' last' rest) ∨
      ∃ e, fs.Blocks (candidate dir program) e ∧
        fs.search args program denied last (dir :: rest) = .error e := by
  rcases fs.stat_candidate hne hbare dir with hsame | hblocks
  · rw [← isExecutable_congr hsame] at h
    obtain ⟨e, hexecute, hpassed | hblocks⟩ := execute_of_not_isExecutable h args
    · exact .inl (search_cons_passedOver hexecute hpassed denied last rest)
    · exact .inr ⟨e, hblocks, search_cons_blocked hblocks denied last rest⟩
  · exact .inr ⟨_, hblocks, search_cons_blocked hblocks denied last rest⟩

/-- A search executes the first candidate that discovery accepts, or is blocked on the way. -/
theorem search_found (hne : program ≠ []) (hbare : Path.slash ∉ program)
    (hbits : fs.AnyBitSuffices)
    (hbefore : ∀ dir ∈ before, fs.isExecutable (Path.join dir program) = false)
    (hdir : fs.isExecutable (Path.join dir program) = true) (args : List Bytes) (denied : Bool)
    (last : Errno) (after : List Path) :
    (fs.locate (candidate dir program) = fs.locate (Path.join dir program) ∧
      fs.search args program denied last (before ++ dir :: after) =
        fs.execute args (candidate dir program)) ∨
      ∃ way ∈ before ++ [dir], ∃ e, fs.Blocks (candidate way program) e ∧
        fs.search args program denied last (before ++ dir :: after) = .error e := by
  induction before generalizing denied last with
  | nil =>
    rcases fs.stat_candidate hne hbare dir with hsame | hblocks
    · left
      rw [← isExecutable_congr hsame] at hdir
      refine ⟨hsame, search_cons_decided (fun e he => ?_) denied last after⟩
      exact execute_of_isExecutable hbits hdir args he
    · exact .inr ⟨dir, List.mem_singleton_self dir, _, hblocks,
        search_cons_blocked hblocks denied last after⟩
  | cons way rest ih =>
    have hway := hbefore way List.mem_cons_self
    rcases search_cons_of_not_found hne hbare hway args denied last (rest ++ dir :: after) with
      ⟨denied', last', hnext⟩ | ⟨e, hblocks, hends⟩
    · rw [List.cons_append, hnext]
      rcases ih (fun d hd => hbefore d (List.mem_cons_of_mem _ hd)) denied' last' with
        hfound | ⟨way', hmem, hblocked⟩
      · exact .inl hfound
      · exact .inr ⟨way', List.mem_cons_of_mem _ hmem, hblocked⟩
    · exact .inr ⟨way, List.mem_cons_self, e, hblocks, hends⟩

/-- A search fails where discovery accepts no candidate. -/
theorem search_not_found (hne : program ≠ []) (hbare : Path.slash ∉ program)
    (h : ∀ dir ∈ dirs, fs.isExecutable (Path.join dir program) = false) (args : List Bytes)
    (denied : Bool) (last : Errno) :
    ∃ e, fs.search args program denied last dirs = .error e := by
  induction dirs generalizing denied last with
  | nil => exact ⟨_, rfl⟩
  | cons dir rest ih =>
    have hdir := h dir List.mem_cons_self
    rcases search_cons_of_not_found hne hbare hdir args denied last rest with
      ⟨denied', last', hnext⟩ | ⟨e, -, hends⟩
    · rw [hnext]
      exact ih (fun d hd => h d (List.mem_cons_of_mem _ hd)) denied' last'
    · exact ⟨e, hends⟩

/-- Directories whose names are not too long are searched as they are listed. -/
theorem searchedDirectories_eq (h : ∀ dir ∈ dirs, dir.length ≤ maxSearched) :
    searchedDirectories dirs = dirs := by
  induction dirs with
  | nil => rfl
  | cons dir rest ih =>
    have hdir : ¬ maxSearched < dir.length := Nat.not_lt.mpr (h dir List.mem_cons_self)
    cases rest with
    | nil => rw [searchedDirectories, if_neg hdir]
    | cons next more =>
      rw [searchedDirectories, if_neg hdir, ih fun d hd => h d (List.mem_cons_of_mem _ hd)]
      exact List.cons_ne_nil _ _

end FileSystem

/-! ## Tools on the search path -/

namespace Discovery

variable {overrides : Overrides} {spec : Spec} {exe : String} {list : Bytes}

theorem resolve_searched (hnone : explicitLocation overrides spec = none)
    (hexe : spec.defaultExe = some exe) :
    resolve fs overrides (some list) spec =
      .ok (if (findInPath fs exe list).isSome then some (Utf8.ofText exe) else none) := by
  simp only [resolve, hnone, hexe]

/-- What discovery finds is the first candidate with an execute bit. -/
theorem findInPath_eq_some {found : Path} (h : findInPath fs exe list = some found) :
    ∃ before dir after, Path.directories list = before ++ dir :: after ∧
      found = Path.join dir (Utf8.ofText exe) ∧
      fs.isExecutable (Path.join dir (Utf8.ofText exe)) = true ∧
      ∀ way ∈ before, fs.isExecutable (Path.join way (Utf8.ofText exe)) = false := by
  rw [findInPath, List.find?_map] at h
  obtain ⟨dir, hdir, hfound⟩ := Option.map_eq_some_iff.mp h
  obtain ⟨hexecutable, before, after, hlist, hbefore⟩ := List.find?_eq_some_iff_append.mp hdir
  exact ⟨before, dir, after, hlist, hfound.symm, hexecutable, fun way hway => by
    simpa using hbefore way hway⟩

theorem findInPath_eq_none (h : findInPath fs exe list = none) :
    ∀ dir ∈ Path.directories list,
      fs.isExecutable (Path.join dir (Utf8.ofText exe)) = false := by
  intro dir hdir
  have hnone := List.find?_eq_none.mp h _ (List.mem_map_of_mem hdir)
  simpa using hnone

/-- **Which file a tool on the search path is started from.** Let a tool have no configured location,
and a command without a slash that is looked for in a list of directories, none of which has too long
a name. If the tool is found, the command of the tool is the bare name, and the candidate that was
found is that of one directory of the list. A launch with the same list executes the candidate of this
very directory, which is the same file; or else the path of a candidate up to there leads into a loop
of links or is too long, and the launch fails with that error. If the tool is not found, launching the
bare name fails. -/
theorem launch_discovered (hnone : explicitLocation overrides spec = none)
    (hexe : spec.defaultExe = some exe) (hne : exe ≠ "") (hbare : '/' ∉ exe.toList)
    (hbits : fs.AnyBitSuffices)
    (hshort : ∀ dir ∈ Path.directories list, dir.length ≤ FileSystem.maxSearched) :
    (∀ executable, resolve fs overrides (some list) spec = .ok (some executable) →
      executable = Utf8.ofText exe ∧
      ∃ before dir after, Path.directories list = before ++ dir :: after ∧
        findInPath fs exe list = some (Path.join dir executable) ∧
        ∀ flags scratch, ∃ cmd,
          Command.build (.of spec (some executable)) flags scratch = .ok cmd ∧
          cmd.program = executable ∧
          let args := cmd.args.map Utf8.ofText
          let picked := FileSystem.candidate dir executable
          FileSystem.Passes executable args →
            (fs.locate picked = fs.locate (Path.join dir executable) ∧
              fs.launch (some list) cmd.program args = (fs.execute args picked).mapError .os) ∨
            ∃ way ∈ before ++ [dir], ∃ e, (e = .tooManyLinks ∨ e = .nameTooLong) ∧
              fs.stat (FileSystem.candidate way executable) = .error e ∧
              fs.launch (some list) cmd.program args = .error (.os e)) ∧
    (resolve fs overrides (some list) spec = .ok none →
      ∀ args, ∃ e, fs.launch (some list) (Utf8.ofText exe) args = .error e) := by
  have hne' : Utf8.ofText exe ≠ [] := Utf8.ofText_ne_nil hne
  have hbare' : Path.slash ∉ Utf8.ofText exe := mt Utf8.mem_of_slash_mem_ofText hbare
  have hsearched : FileSystem.searched (some list) = Path.directories list :=
    FileSystem.searchedDirectories_eq hshort
  rw [resolve_searched hnone hexe]
  constructor
  · intro executable hres
    cases hfind : findInPath fs exe list with
    | none =>
      rw [hfind] at hres
      cases hres
    | some found =>
      rw [hfind] at hres
      obtain rfl : Utf8.ofText exe = executable := Option.some.inj (Except.ok.inj hres)
      obtain ⟨before, dir, after, hlist, hfound, hdir, hbefore⟩ := findInPath_eq_some hfind
      refine ⟨rfl, before, dir, after, hlist, congrArg some hfound, fun flags scratch => ?_⟩
      obtain ⟨cmd, hcmd, hprogram⟩ := build_of_found hne' spec flags scratch
      refine ⟨cmd, hcmd, hprogram, ?_⟩
      intro args picked hpasses
      rw [hprogram, FileSystem.launch_of_bare hpasses hne' hbare', hsearched, hlist]
      rcases FileSystem.search_found hne' hbare' hbits hbefore hdir args false .noEntry after with
        ⟨hsame, hsearch⟩ | ⟨way, hway, e, hblocks, hsearch⟩
      · left
        rw [hsearch]
        exact ⟨hsame, rfl⟩
      · right
        rw [hsearch]
        exact ⟨way, hway, e, hblocks.cause, hblocks.1, rfl⟩
  · intro hres args
    have hfind : findInPath fs exe list = none := by
      cases hfind : findInPath fs exe list with
      | none => rfl
      | some found =>
        rw [hfind] at hres
        cases hres
    by_cases hpasses : FileSystem.Passes (Utf8.ofText exe) args
    · obtain ⟨e, hsearch⟩ := FileSystem.search_not_found hne' hbare' (findInPath_eq_none hfind) args
        false .noEntry
      rw [FileSystem.launch_of_bare hpasses hne' hbare', hsearched, hsearch]
      exact ⟨_, rfl⟩
    · exact ⟨_, FileSystem.launch_of_not_passes hpasses _⟩

/-- The directory `bin` with a program in it, and other nodes. -/
def shelf (others : List (Location × Node)) : FileSystem where
  nodes := ([Utf8.ofText "bin"], .directory) ::
    ([Utf8.ofText "bin", Utf8.ofText "dxc"], .file 0o755 [] true) :: others

/-- A missing directory and a file without an execute bit are passed over; what is started is the
program that was found, although it is spelled with one slash more. -/
theorem launch_of_discovered_program :
    let fs := shelf [([Utf8.ofText "a"], .directory),
      ([Utf8.ofText "a", Utf8.ofText "dxc"], .file 0o644 [] false)]
    let list := Utf8.ofText "nope:a:bin/"
    ∃ cmd, Command.build (.of .dxc (some (Utf8.ofText "dxc"))) "-O" (Utf8.ofText "/tmp/a") =
        .ok cmd ∧
      findInPath fs "dxc" list = some (Utf8.ofText "bin/dxc") ∧
      fs.locate (Utf8.ofText "bin//dxc") = fs.locate (Utf8.ofText "bin/dxc") ∧
      fs.launch (some list) cmd.program (cmd.args.map Utf8.ofText) =
        .ok (Utf8.ofText "bin//dxc") := by
  intro fs list
  have hbits : fs.AnyBitSuffices := by decide +kernel
  have hshort : ∀ dir ∈ Path.directories list, dir.length ≤ FileSystem.maxSearched := by
    decide +kernel
  have hfind : findInPath fs "dxc" list = some (Utf8.ofText "bin/dxc") := by decide +kernel
  have hres : resolve fs {} (some list) .dxc = .ok (some (Utf8.ofText "dxc")) := by
    rw [resolve_searched rfl rfl, hfind]
    rfl
  obtain ⟨-, before, dir, after, hlist, hfound, hlaunch⟩ :=
    (launch_discovered rfl rfl (by decide) (by decide) hbits hshort).1 _ hres
  obtain ⟨cmd, hcmd, hprogram, hpicked⟩ := hlaunch "-O" (Utf8.ofText "/tmp/a")
  obtain rfl := Except.ok.inj hcmd
  have hmem : dir ∈ Path.directories list := by simp [hlist]
  have hdir : dir = Utf8.ofText "bin/" := by
    have honly : ∀ d ∈ Path.directories list,
        Path.join d (Utf8.ofText "dxc") = Utf8.ofText "bin/dxc" → d = Utf8.ofText "bin/" := by
      decide +kernel
    exact honly dir hmem (Option.some.inj (hfound.symm.trans hfind))
  subst hdir
  refine ⟨_, rfl, hfind, ?_⟩
  rcases hpicked (by unfold FileSystem.Passes; decide +kernel) with
    ⟨hsame, hstarted⟩ | ⟨way, hway, e, he, hstat, -⟩
  · exact ⟨hsame, hstarted.trans (by decide +kernel)⟩
  · have hopen : ∀ d ∈ Path.directories list, ∀ e ∈ [Errno.tooManyLinks, .nameTooLong],
        fs.stat (FileSystem.candidate d (Utf8.ofText "dxc")) ≠ .error e := by
      decide +kernel
    have hlisted : way ∈ Path.directories list := by
      rw [hlist]
      rcases List.mem_append.mp hway with hbefore | hlast
      · exact List.mem_append_left _ hbefore
      · exact List.mem_append_right _ (List.mem_singleton.mp hlast ▸ List.mem_cons_self)
    exact absurd hstat (hopen way hlisted e (by simpa using he))

/-- Where a search is blocked, or a directory has too long a name, a launch differs from what was
found: before the directory `bin` there is a loop of links, a name that is too long for a file, or one
that is too long to be searched, in place of which the working directory is. -/
theorem launch_not_as_discovered :
    let program := Utf8.ofText "dxc"
    let discovered := fun fs list => fs.AnyBitSuffices ∧
      resolve fs {} (some list) .dxc = .ok (some program) ∧
      findInPath fs "dxc" list = some (Utf8.ofText "bin/dxc")
    let launch := fun (fs : FileSystem) list =>
      fs.launch (some list) program [Utf8.ofText "/tmp/a"]
    let loop := shelf [([Utf8.ofText "a"], .directory), ([Utf8.ofText "a", program], .link program)]
    let behindLoop := Utf8.ofText "a:bin"
    let behindName := List.replicate 256 0x78 ++ Utf8.ofText ":bin"
    let here := shelf [([program], .file 0o755 [] true)]
    let behindPath := List.replicate 4096 0x78 ++ Utf8.ofText ":bin"
    (discovered loop behindLoop ∧ launch loop behindLoop = .error (.os .tooManyLinks)) ∧
    (discovered (shelf []) behindName ∧
      launch (shelf []) behindName = .error (.os .nameTooLong)) ∧
    (discovered here behindPath ∧ launch here behindPath = .ok program) := by
  decide +kernel

end Discovery

end ShaderChain
