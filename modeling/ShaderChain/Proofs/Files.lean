import ShaderChain.Proofs.Locations
import Mathlib.Logic.Function.Basic

/-!
# What changing one file changes

A walk through a file system goes by directories and links. `FileSystem.Walks` tells how, step by
step, and `FileSystem.walk_eq_ok_iff` that it is what `FileSystem.walk` does where it succeeds. The
laws about walks are then inductions over their steps. Two of them are needed:

- file systems that differ in one file only (`FileSystem.DifferAt`) have the same walks, since no walk
  goes on from a file or from where nothing is (`FileSystem.Walks.congr`);
- where a path has its last name tells where a file is written through it, unless a directory or a link
  is there (`FileSystem.Walks.entry`).

So to write, to create and to remove a file change what is at one location, and no path leads elsewhere
after it (`FileSystem.write_of_locateEntry`, `FileSystem.DifferAt.locateEntry`).
-/

namespace ShaderChain.FileSystem

/-! ## Nodes -/

/-- Where some keys are left out, the others are found as before. -/
theorem lookup_filter_fst (f : Location → Bool) (l : Location) (nodes : List (Location × Node)) :
    (nodes.filter (f ·.1)).lookup l = if f l then nodes.lookup l else none := by
  induction nodes with
  | nil => simp
  | cons entry nodes ih =>
    obtain ⟨key, node⟩ := entry
    rw [List.filter_cons]
    by_cases hl : l = key
    · subst hl
      cases hf : f l <;> simp [hf, ih]
    · cases f key <;> simp [ih, List.lookup_cons, beq_false_of_ne hl]

/-- After an insertion the node is at its location, and nothing else is changed. -/
theorem get?_insert (fs : FileSystem) {loc : Location} (hloc : loc ≠ []) (node : Node) :
    (fs.insert loc node).get? = Function.update fs.get? loc (some node) := by
  funext l
  rcases eq_or_ne l [] with rfl | hl
  · rw [Function.update_of_ne hloc.symm]
    rfl
  · simp only [get?, List.isEmpty_iff, hl, if_false, insert, List.lookup_cons]
    by_cases hloc' : l = loc
    · rw [hloc', Function.update_self, beq_self_eq_true]
    · rw [Function.update_of_ne hloc', beq_false_of_ne hloc', lookup_filter_fst (· != loc)]
      simp [get?, hl, hloc']

/-- After a removal nothing is at the location, and nothing else is changed. -/
theorem get?_erase (fs : FileSystem) {loc : Location} (hloc : loc ≠ []) :
    (fs.erase loc).get? = Function.update fs.get? loc none := by
  funext l
  rcases eq_or_ne l [] with rfl | hl
  · rw [Function.update_of_ne hloc.symm]
    rfl
  · simp only [get?, List.isEmpty_iff, hl, if_false, erase, lookup_filter_fst (· != loc)]
    by_cases hloc' : l = loc
    · simp [hloc']
    · rw [Function.update_of_ne hloc']
      simp [get?, hl, hloc']

/-! ## Walks -/

/-- A name that a node can have. -/
structure IsName (name : Bytes) : Prop where
  ne_here : name ≠ Path.here
  ne_above : name ≠ Path.above
  length_le : name.length ≤ maxName

/-- How a walk goes from a location by these names, through at most `links` links. -/
inductive Walks (fs : FileSystem) (create : Bool) :
    (links : Nat) → Location → List Bytes → Location → Prop
  | stop {links loc} : Walks fs create links loc [] loc
  | here {links loc rest stop} (hdir : fs.get? loc = some .directory)
    (h : Walks fs create links loc rest stop) :
    Walks fs create links loc (Path.here :: rest) stop
  | above {links loc rest stop} (hdir : fs.get? loc = some .directory)
    (h : Walks fs create links loc.dropLast rest stop) :
    Walks fs create links loc (Path.above :: rest) stop
  /-- To what the directory has under this name. -/
  | down {links loc name node rest stop} (hdir : fs.get? loc = some .directory)
    (hname : IsName name) (hnode : fs.get? (loc ++ [name]) = some node)
    (hlink : ∀ target, node ≠ .link target)
    (h : Walks fs create links (loc ++ [name]) rest stop) :
    Walks fs create links loc (name :: rest) stop
  /-- To where the link leads that the directory has under this name. -/
  | follow {links loc name target rest stop} (hdir : fs.get? loc = some .directory)
    (hname : IsName name) (hnode : fs.get? (loc ++ [name]) = some (.link target))
    (h : Walks fs create links (if Path.isAbsolute target then [] else loc)
      (Path.components target ++ rest) stop) :
    Walks fs create (links + 1) loc (name :: rest) stop
  /-- To where something is to be created. -/
  | new {links loc name} (hdir : fs.get? loc = some .directory) (hname : IsName name)
    (hnone : fs.get? (loc ++ [name]) = none) (hcreate : create = true) :
    Walks fs create links loc [name] (loc ++ [name])

variable {fs fs' : FileSystem} {create : Bool} {links : Nat} {loc stop dir k : Location}
  {names rest : List Bytes} {name : Bytes} {p : Path} {node : Node} {contents : Bytes}

/-- The steps of a walk of which the steps behind links are known. -/
theorem walks_of_walkBy {follow : Location → List Bytes → Except Errno Location}
    (hfollow : ∀ {loc name target rest stop}, fs.get? loc = some .directory → IsName name →
      fs.get? (loc ++ [name]) = some (.link target) →
      follow (if Path.isAbsolute target then [] else loc) (Path.components target ++ rest) =
        .ok stop →
      fs.Walks create links loc (name :: rest) stop)
    (h : fs.walkBy create follow loc names = .ok stop) : fs.Walks create links loc names stop := by
  induction names generalizing loc with
  | nil =>
    obtain rfl := Except.ok.inj h
    exact .stop
  | cons name rest ih =>
    unfold walkBy at h
    split at h
    · cases h
    next hdir =>
    have hdir : fs.get? loc = some .directory := by simpa using hdir
    split at h
    next hhere =>
      obtain rfl := beq_iff_eq.mp hhere
      exact .here hdir (ih h)
    next hhere =>
    split at h
    next habove =>
      obtain rfl := beq_iff_eq.mp habove
      exact .above hdir (ih h)
    next habove =>
    split at h
    · cases h
    next hlength =>
    have hname : IsName name :=
      ⟨fun heq => hhere (beq_iff_eq.mpr heq), fun heq => habove (beq_iff_eq.mpr heq),
        Nat.not_lt.mp hlength⟩
    dsimp only at h
    cases hnode : fs.get? (loc ++ [name]) with
    | none =>
      rw [hnode] at h
      dsimp only at h
      split at h
      next hlast =>
        obtain ⟨hcreate, hrest⟩ := Bool.and_eq_true_iff.mp hlast
        obtain rfl := List.isEmpty_iff.mp hrest
        obtain rfl := Except.ok.inj h
        exact .new hdir hname hnode hcreate
      · cases h
    | some node =>
      rw [hnode] at h
      cases node with
      | link target => exact hfollow hdir hname hnode h
      | file | directory => exact .down hdir hname hnode (by rintro _ ⟨⟩) (ih h)

theorem walks_of_walk (h : fs.walk create links loc names = .ok stop) :
    fs.Walks create links loc names stop := by
  induction links generalizing loc names stop with
  | zero =>
    refine walks_of_walkBy ?_ h
    rintro _ _ _ _ _ - - - ⟨⟩
  | succ links ih =>
    exact walks_of_walkBy (fun hdir hname hnode h => .follow hdir hname hnode (ih h)) h

namespace Walks

/-- With a name in front, a walk first looks at what the directory has under it. -/
theorem walkBy_cons_name {follow : Location → List Bytes → Except Errno Location}
    (hdir : fs.get? loc = some .directory) (hname : IsName name) :
    fs.walkBy create follow loc (name :: rest) =
      match fs.get? (loc ++ [name]) with
      | none => if create && rest.isEmpty then .ok (loc ++ [name]) else .error .noEntry
      | some (.link target) =>
        follow (if Path.isAbsolute target then [] else loc) (Path.components target ++ rest)
      | some _ => fs.walkBy create follow (loc ++ [name]) rest := by
  have hdirectory : ¬ (fs.get? loc != some .directory) = true := by simp [hdir]
  have hhere : ¬ (name == Path.here) = true := by simp [hname.ne_here]
  have habove : ¬ (name == Path.above) = true := by simp [hname.ne_above]
  have hlength : ¬ maxName < name.length := Nat.not_lt.mpr hname.length_le
  calc fs.walkBy create follow loc (name :: rest) = _ := if_neg hdirectory
    _ = _ := if_neg hhere
    _ = _ := if_neg habove
    _ = _ := if_neg hlength

theorem walk_eq (h : fs.Walks create links loc names stop) :
    fs.walk create links loc names = .ok stop := by
  induction h with
  | @stop links loc => cases links <;> rfl
  | @here links loc rest stop hdir h ih =>
    rw [← ih]
    cases links <;> simp [walk, walkBy, hdir]
  | @above links loc rest stop hdir h ih =>
    have hhere : (Path.above == Path.here) = false := by decide
    rw [← ih]
    cases links <;> simp [walk, walkBy, hdir, hhere]
  | @down links loc name node rest stop hdir hname hnode hlink h ih =>
    rw [← ih]
    cases node with
    | link target => exact absurd rfl (hlink target)
    | file | directory => cases links <;> rw [walk, walkBy_cons_name hdir hname, hnode]
  | follow hdir hname hnode h ih =>
    rw [← ih, walk, walkBy_cons_name hdir hname, hnode]
  | @new links loc name hdir hname hnone hcreate =>
    cases links <;> rw [walk, walkBy_cons_name hdir hname, hnone, hcreate] <;> rfl

end Walks

/-- Where a walk succeeds, these are its steps. -/
theorem walk_eq_ok_iff :
    fs.walk create links loc names = .ok stop ↔ fs.Walks create links loc names stop :=
  ⟨walks_of_walk, Walks.walk_eq⟩

/-! ## Where no walk goes on -/

/-- Neither a directory nor a link is at this location: it is a file, or nothing. -/
def Clear (fs : FileSystem) (loc : Location) : Prop :=
  ∀ node, fs.get? loc = some node → node.isFile = true

theorem Clear.ne_directory (h : fs.Clear k) (hdir : fs.get? loc = some .directory) : loc ≠ k := by
  rintro rfl
  exact absurd (h .directory hdir) Bool.noConfusion

theorem Clear.ne_nil (h : fs.Clear k) : k ≠ [] :=
  (h.ne_directory rfl).symm

/-- There is nothing below a place without a directory. -/
theorem Walks.eq_of_clear (h : fs.Walks create links k names stop) (hk : fs.Clear k) :
    names = [] ∧ stop = k := by
  cases h with
  | stop => exact ⟨rfl, rfl⟩
  | here hdir | above hdir | down hdir | follow hdir | new hdir =>
    exact absurd rfl (hk.ne_directory hdir)

/-- A walk that ends where something is needs nothing to be created. -/
theorem Walks.found (h : fs.Walks create links loc names stop) (hstop : (fs.get? stop).isSome) :
    fs.Walks false links loc names stop := by
  induction h with
  | stop => exact .stop
  | here hdir h ih => exact .here hdir (ih hstop)
  | above hdir h ih => exact .above hdir (ih hstop)
  | down hdir hname hnode hlink h ih => exact .down hdir hname hnode hlink (ih hstop)
  | follow hdir hname hnode h ih => exact .follow hdir hname hnode (ih hstop)
  | new hdir hname hnone hcreate =>
    rw [hnone] at hstop
    cases hstop

/-- Where nothing has to be created, nothing matters of what can be. -/
theorem Walks.creating (h : fs.Walks false links loc names stop) :
    fs.Walks true links loc names stop := by
  induction h with
  | stop => exact .stop
  | here hdir h ih => exact .here hdir ih
  | above hdir h ih => exact .above hdir ih
  | down hdir hname hnode hlink h ih => exact .down hdir hname hnode hlink ih
  | follow hdir hname hnode h ih => exact .follow hdir hname hnode ih
  | new hdir hname hnone hcreate => cases hcreate

/-- A walk ends in one place. -/
theorem Walks.unique {stop' : Location} (h : fs.Walks create links loc names stop)
    (h' : fs.Walks create links loc names stop') : stop = stop' :=
  Except.ok.inj (h.walk_eq.symm.trans h'.walk_eq)

/-- Two file systems that differ at one location at most, where each has a file or nothing. -/
structure DifferAt (k : Location) (fs fs' : FileSystem) : Prop where
  cwd : fs'.cwd = fs.cwd
  elsewhere : ∀ loc, loc ≠ k → fs'.get? loc = fs.get? loc
  before : fs.Clear k
  after : fs'.Clear k

namespace DifferAt

theorem insert (hk : fs.Clear k) (hnode : node.isFile = true) : DifferAt k fs (fs.insert k node) where
  cwd := rfl
  elsewhere loc hloc := by rw [get?_insert fs hk.ne_nil, Function.update_of_ne hloc]
  before := hk
  after found hfound := by
    rw [get?_insert fs hk.ne_nil, Function.update_self] at hfound
    obtain rfl := Option.some.inj hfound
    exact hnode

theorem erase (hk : fs.Clear k) : DifferAt k fs (fs.erase k) where
  cwd := rfl
  elsewhere loc hloc := by rw [get?_erase fs hk.ne_nil, Function.update_of_ne hloc]
  before := hk
  after found hfound := by
    rw [get?_erase fs hk.ne_nil, Function.update_self] at hfound
    cases hfound

theorem start (h : DifferAt k fs fs') (p : Path) : fs'.start p = fs.start p := by
  rw [FileSystem.start, FileSystem.start, h.cwd]

/-- The directories of one are those of the other. -/
theorem directory (h : DifferAt k fs fs') (hdir : fs.get? loc = some .directory) :
    fs'.get? loc = some .directory := by
  rw [h.elsewhere loc (h.before.ne_directory hdir), hdir]

end DifferAt

/-- The walks of one are those of the other, up to one that ends where they differ; this one needs a
file to be there. -/
theorem Walks.congr (h : DifferAt k fs fs') (hwalk : fs.Walks create links loc names stop)
    (hstop : stop = k → (fs'.get? k).isSome) : fs'.Walks create links loc names stop := by
  induction hwalk with
  | stop => exact .stop
  | here hdir hrest ih => exact .here (h.directory hdir) (ih hstop)
  | above hdir hrest ih => exact .above (h.directory hdir) (ih hstop)
  | @down links loc name node rest stop hdir hname hnode hlink hrest ih =>
    by_cases hk : loc ++ [name] = k
    · -- the walk ends at the file, so what matters is that there still is one
      subst hk
      obtain ⟨rfl, rfl⟩ := hrest.eq_of_clear h.before
      obtain ⟨node', hnode'⟩ := Option.isSome_iff_exists.mp (hstop rfl)
      refine .down (h.directory hdir) hname hnode' ?_ .stop
      rintro target rfl
      exact absurd (h.after _ hnode') Bool.noConfusion
    · exact .down (h.directory hdir) hname ((h.elsewhere _ hk).trans hnode) hlink (ih hstop)
  | @follow links loc name target rest stop hdir hname hnode hrest ih =>
    -- a link is nowhere where they differ
    have hk : loc ++ [name] ≠ k := by
      rintro rfl
      exact absurd (h.before _ hnode) Bool.noConfusion
    exact .follow (h.directory hdir) hname ((h.elsewhere _ hk).trans hnode) (ih hstop)
  | @new links loc name hdir hname hnone hcreate =>
    by_cases hk : loc ++ [name] = k
    · obtain ⟨node', hnode'⟩ := Option.isSome_iff_exists.mp (hstop hk)
      rw [← hk] at hnode'
      refine .down (h.directory hdir) hname hnode' ?_ .stop
      rintro target rfl
      exact absurd (h.after _ (hk ▸ hnode')) Bool.noConfusion
    · exact .new (h.directory hdir) hname ((h.elsewhere _ hk).trans hnone) hcreate

/-- From the directory of a path to its last name it is one more step, if no directory and no link is
there. -/
theorem Walks.entry (hdir : fs.Walks false links loc (names ++ [Path.here]) dir)
    (hname : IsName name) (hclear : fs.Clear (dir ++ [name])) :
    fs.Walks true links loc (names ++ [name]) (dir ++ [name]) := by
  generalize hnames : names ++ [Path.here] = ways at hdir
  induction hdir generalizing names with
  | stop => simp at hnames
  | @here links loc rest stop hdir hrest ih =>
    cases names with
    | nil =>
      obtain rfl : rest = [] := (List.cons.inj hnames).2.symm
      cases hrest
      -- the walk stands in the directory, so the name is the next step
      cases hnode : fs.get? (loc ++ [name]) with
      | none => exact .new hdir hname hnode rfl
      | some node =>
        refine .down hdir hname hnode ?_ .stop
        rintro target rfl
        exact absurd (hclear _ hnode) Bool.noConfusion
    | cons first names =>
      obtain ⟨rfl, hrest'⟩ := List.cons.inj hnames
      exact .here hdir (ih hclear hrest')
  | @above links loc rest stop hdir hrest ih =>
    cases names with
    | nil => exact absurd (List.cons.inj hnames).1 (by decide)
    | cons first names =>
      obtain ⟨rfl, hrest'⟩ := List.cons.inj hnames
      exact .above hdir (ih hclear hrest')
  | @down links loc first node rest stop hdir hfirst hnode hlink hrest ih =>
    cases names with
    | nil => exact absurd (List.cons.inj hnames).1.symm hfirst.ne_here
    | cons first names =>
      obtain ⟨rfl, hrest'⟩ := List.cons.inj hnames
      exact .down hdir hfirst hnode hlink (ih hclear hrest')
  | @follow links loc first target rest stop hdir hfirst hnode hrest ih =>
    cases names with
    | nil => exact absurd (List.cons.inj hnames).1.symm hfirst.ne_here
    | cons first names =>
      obtain ⟨rfl, hrest'⟩ := List.cons.inj hnames
      -- what the link names goes before the names that are left
      have hways : (Path.components target ++ names) ++ [Path.here] =
          Path.components target ++ rest := by
        rw [← hrest', List.append_assoc]
        rfl
      have hbehind := ih hclear hways
      rw [List.append_assoc] at hbehind
      exact .follow hdir hfirst hnode hbehind
  | new hdir hname hnone hcreate => cases hcreate

/-! ## Files by their paths -/

/-- How a path leads to the place of its last name: by the names before it to a directory. -/
structure EntryOf (fs : FileSystem) (p : Path) (names : List Bytes) (name : Bytes)
    (dir : Location) : Prop where
  components : Path.components p = names ++ [name]
  length_le : p.length ≤ maxPath
  isName : IsName name
  walks : fs.Walks false maxLinks (fs.start p) (names ++ [Path.here]) dir

theorem EntryOf.locateEntry_eq (h : fs.EntryOf p names name dir) :
    fs.locateEntry p = .ok (dir ++ [name]) := by
  have hspecial : ¬ (name == Path.here || name == Path.above) = true := by
    simp [h.isName.ne_here, h.isName.ne_above]
  simp only [locateEntry, h.components, List.getLast?_concat, List.dropLast_concat,
    if_neg (Nat.not_lt.mpr h.length_le), h.walks.walk_eq]
  simp only [Except.bind, bind, if_neg hspecial, if_neg (Nat.not_lt.mpr h.isName.length_le)]

theorem exists_entryOf (h : fs.locateEntry p = .ok loc) :
    ∃ names name dir, fs.EntryOf p names name dir ∧ loc = dir ++ [name] := by
  unfold locateEntry at h
  cases hlast : (Path.components p).getLast? with
  | none => simp [hlast] at h
  | some name =>
    simp only [hlast] at h
    obtain ⟨names, hnames⟩ := List.getLast?_eq_some_iff.mp hlast
    split at h
    · cases h
    next hlength =>
    rw [hnames, List.dropLast_concat] at h
    cases hwalk : fs.walk false maxLinks (fs.start p) (names ++ [Path.here]) with
    | error e =>
      rw [hwalk] at h
      cases h
    | ok dir =>
      rw [hwalk] at h
      simp only [Except.bind, bind] at h
      split at h
      · cases h
      next hspecial =>
      split at h
      · cases h
      next hlong =>
      obtain ⟨hhere, habove⟩ := Bool.or_eq_false_iff.mp (Bool.eq_false_iff.mpr hspecial)
      have hname : IsName name :=
        ⟨beq_eq_false_iff_ne.mp hhere, beq_eq_false_iff_ne.mp habove, Nat.not_lt.mp hlong⟩
      exact ⟨names, name, dir, ⟨hnames, Nat.not_lt.mp hlength, hname, walk_eq_ok_iff.mp hwalk⟩,
        (Except.ok.inj h).symm⟩

/-- A path leads to the same place in file systems that differ in one file. -/
theorem DifferAt.locateEntry (h : DifferAt k fs fs') (hloc : fs.locateEntry p = .ok loc) :
    fs'.locateEntry p = .ok loc := by
  obtain ⟨names, name, dir, hentry, rfl⟩ := exists_entryOf hloc
  have hdir : fs.get? dir = some .directory := directory_of_walk hentry.walks.walk_eq
  have hwalks := hentry.walks.congr h fun hk => absurd hk (h.before.ne_directory hdir)
  exact EntryOf.locateEntry_eq ⟨hentry.components, hentry.length_le, hentry.isName, h.start p ▸ hwalks⟩

/-- A path leads somewhere by a walk of its components, if it is not empty and not too long. -/
theorem locateFor_eq_ok_iff : fs.locateFor create p = .ok loc ↔
    p ≠ [] ∧ p.length ≤ maxPath ∧
      fs.Walks create maxLinks (fs.start p) (Path.components p) loc := by
  unfold locateFor
  by_cases hempty : p.isEmpty = true
  · rw [if_pos hempty]
    exact ⟨nofun, fun h => absurd (List.isEmpty_iff.mp hempty) h.1⟩
  · rw [if_neg hempty]
    by_cases hlength : maxPath < p.length
    · rw [if_pos hlength]
      exact ⟨nofun, fun h => absurd hlength (Nat.not_lt.mpr h.2.1)⟩
    · rw [if_neg hlength, walk_eq_ok_iff]
      exact ⟨fun h => ⟨mt List.isEmpty_iff.mpr hempty, Nat.not_lt.mp hlength, h⟩, fun h => h.2.2⟩

/-- The place of the last name is where a file is written, if no directory and no link is there. -/
theorem locateFor_of_locateEntry (hloc : fs.locateEntry p = .ok loc) (hclear : fs.Clear loc) :
    fs.locateFor true p = .ok loc := by
  obtain ⟨names, name, dir, hentry, rfl⟩ := exists_entryOf hloc
  have hne : p ≠ [] := by
    rintro rfl
    have := hentry.components
    simp [Path.components, Path.splitAt] at this
  have hwalks := hentry.walks.entry hentry.isName hclear
  rw [← hentry.components] at hwalks
  exact locateFor_eq_ok_iff.mpr ⟨hne, hentry.length_le, hwalks⟩

/-- A path names what is in the place of its last name, if no directory and no link is there. -/
theorem pathExists_of_locateEntry (hloc : fs.locateEntry p = .ok loc) (hclear : fs.Clear loc) :
    fs.pathExists p = (fs.get? loc).isSome := by
  obtain ⟨hne, hlength, hwalks⟩ := locateFor_eq_ok_iff.mp (locateFor_of_locateEntry hloc hclear)
  rw [Bool.eq_iff_iff, pathExists]
  constructor
  · intro hexists
    cases hlocate : fs.locate p with
    | error e =>
      rw [stat_of_locate_error hlocate] at hexists
      cases hexists
    | ok there =>
      -- what the path names is where it would be created
      obtain ⟨-, -, hwalks'⟩ := locateFor_eq_ok_iff.mp hlocate
      obtain rfl : there = loc := hwalks'.creating.unique hwalks
      rw [stat_of_locate hlocate] at hexists
      cases hnode : fs.get? there with
      | none =>
        rw [hnode] at hexists
        cases hexists
      | some node => rfl
  · intro hsome
    obtain ⟨node, hnode⟩ := Option.isSome_iff_exists.mp hsome
    have hlocate : fs.locate p = .ok loc :=
      locateFor_eq_ok_iff.mpr ⟨hne, hlength, hwalks.found hsome⟩
    rw [stat_of_locate hlocate, hnode]
    rfl

/-- To write a file, unless a directory or a link is in its place, is to put a file there. -/
theorem write_of_locateEntry (hloc : fs.locateEntry p = .ok loc) (hclear : fs.Clear loc)
    (contents : Bytes) :
    ∃ node : Node, node.isFile = true ∧ fs.write p contents = .ok (fs.insert loc node) := by
  rw [write, locateFor_of_locateEntry hloc hclear]
  simp only [Except.bind, bind]
  cases hnode : fs.get? loc with
  | none => exact ⟨_, rfl, rfl⟩
  | some node =>
    cases node with
    | file mode old runs => exact ⟨_, rfl, rfl⟩
    | directory | link target => exact absurd (hclear _ hnode) Bool.noConfusion

/-- To create a file is to put one where nothing was. -/
theorem create_eq_ok (h : fs.create p = .ok fs') :
    ∃ loc, fs.locateEntry p = .ok loc ∧ fs.get? loc = none ∧
      fs' = fs.insert loc (.file 0o600 [] false) := by
  unfold create at h
  cases hloc : fs.locateEntry p with
  | error e =>
    rw [hloc] at h
    cases h
  | ok loc =>
    rw [hloc] at h
    simp only [Except.bind, bind] at h
    split at h
    · cases h
    · next hnone => exact ⟨loc, rfl, hnone, (Except.ok.inj h).symm⟩

/-- To remove a file, unless a directory is in its place, is to leave nothing there. -/
theorem remove_of_locateEntry (hloc : fs.locateEntry p = .ok loc) (hclear : fs.Clear loc) :
    fs.remove p = fs.erase loc := by
  rw [remove, hloc]
  refine if_neg fun hdir => ?_
  exact absurd (hclear .directory (beq_iff_eq.mp hdir)) Bool.noConfusion

/-- What was written through a path is read through it. -/
theorem read_of_write (h : fs.write p contents = .ok fs') : fs'.read p = .ok contents := by
  unfold write at h
  cases hloc : fs.locateFor true p with
  | error e =>
    rw [hloc] at h
    cases h
  | ok loc =>
    rw [hloc] at h
    simp only [Except.bind, bind] at h
    have hwritten : ∃ mode runs, fs.Clear loc ∧
        fs' = fs.insert loc (.file mode contents runs) := by
      split at h
      next hnone =>
        refine ⟨_, _, fun node hnode => ?_, (Except.ok.inj h).symm⟩
        rw [hnone] at hnode
        cases hnode
      next mode old runs hfile =>
        refine ⟨_, _, fun node hnode => ?_, (Except.ok.inj h).symm⟩
        rw [hfile] at hnode
        obtain rfl := Option.some.inj hnode
        rfl
      · cases h
    obtain ⟨mode, runs, hclear, rfl⟩ := hwritten
    have hdiffer : DifferAt loc fs (fs.insert loc (.file mode contents runs)) := .insert hclear rfl
    have hget : (fs.insert loc (.file mode contents runs)).get? loc =
        some (.file mode contents runs) := by
      rw [get?_insert fs hclear.ne_nil, Function.update_self]
    have hthere : ((fs.insert loc (.file mode contents runs)).get? loc).isSome := by rw [hget]; rfl
    -- the walk to the file is still one when the file is there
    obtain ⟨hne, hlength, hwalks⟩ := locateFor_eq_ok_iff.mp hloc
    have hfound := (hwalks.congr hdiffer fun _ => hthere).found hthere
    rw [← hdiffer.start p] at hfound
    rw [read, stat, locate, locateFor_eq_ok_iff.mpr ⟨hne, hlength, hfound⟩]
    simp only [Except.bind, bind, hget]

end ShaderChain.FileSystem
