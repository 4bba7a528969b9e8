import ShaderChain.Bench.ScratchTrial
import ShaderChain.Proofs.DataFlow
import ShaderChain.Proofs.Files
import ShaderChain.Proofs.Rerun

/-!
# Machines that keep house

What is relied on of the steps of a machine that are not processes (`Machine.Housekeeping`). A machine
has files at places, and paths lead to places; a `FileView` tells how to look at them. Where a path
leads is not a matter of the path alone, since there can be links on its way, so each law says also
that the path still leads there after the step.

A step reaches its file only if neither a directory nor a link is in its place. Through a link, a text
would be staged somewhere else; that is why the laws ask for a place that is clear.

Both machines keep house whatever their processes do: the store, on which paths are places
(`Store.machine_housekeeping`), and the bench, which has a file system with links
(`Bench.World.machine_housekeeping`). What is staged on the bench is in the file
(`Bench.World.machine_writes`), and a file that is tried out there shows all that is staged in it and
is gone in the end (`Bench.ScratchTrial.run_eq`).
-/

namespace ShaderChain

variable {σ κ ν : Type} [DecidableEq κ]

/-- How to look at the files of a machine. -/
structure FileView (σ κ ν : Type) where
  /-- The place of a path's last name, if the names before it lead to a directory. -/
  place : σ → Path → Option κ
  /-- What is at a place. -/
  look : σ → κ → Option ν
  /-- Whether this is a file, and not a directory or a link. -/
  isFile : ν → Bool

namespace FileView

/-- Neither a directory nor a link is at this place: it is a file, or nothing. -/
def Clear (v : FileView σ κ ν) (s : σ) (k : κ) : Prop :=
  ∀ n, v.look s k = some n → v.isFile n = true

/-- A path leads to this place, where neither a directory nor a link is. -/
structure Leads (v : FileView σ κ ν) (path : Path) (s : σ) (k : κ) : Prop where
  place : v.place s path = some k
  clear : v.Clear s k

/-- From `s` to `s'`, what is at the place of a path became this, and nothing else was changed. -/
structure Puts (v : FileView σ κ ν) (path : Path) (k : κ) (now : Option ν) (s s' : σ) : Prop where
  look : v.look s' = Function.update (v.look s) k now
  place : v.place s' path = some k

variable {v : FileView σ κ ν} {path : Path} {k q : κ} {now : Option ν} {s s' : σ}

namespace Puts

theorem look_self (h : v.Puts path k now s s') : v.look s' k = now := by
  rw [h.look, Function.update_self]

theorem look_of_ne (h : v.Puts path k now s s') (hq : q ≠ k) : v.look s' q = v.look s q := by
  rw [h.look, Function.update_of_ne hq]

/-- Where a file was put, or nothing, the path leads to a place that is clear. -/
theorem leads (h : v.Puts path k now s s') (hnow : ∀ n ∈ now, v.isFile n = true) :
    v.Leads path s' k :=
  ⟨h.place, fun n hn => hnow n (h.look_self ▸ hn)⟩

end Puts

end FileView

/-- What the steps of a machine do to files. A scratch file is created where nothing is; where none
could be created, nothing is changed. Staging and removing change nothing but what is at the place of
the file, if neither a directory nor a link is there, and put neither of them there, whether or not
the contents could be staged. Nothing is said of processes. -/
structure Machine.Housekeeping (m : Machine σ) (v : FileView σ κ ν) : Prop where
  created : ∀ dir s path, (m.create dir s).1 = .ok path →
    ∃ k file, v.place s path = some k ∧ v.look s k = none ∧ v.isFile file = true ∧
      v.Puts path k (some file) s (m.create dir s).2
  uncreated : ∀ dir s e, (m.create dir s).1 = .error e → v.look (m.create dir s).2 = v.look s
  staged : ∀ path contents s k, v.Leads path s k →
    ∃ now, (∀ n ∈ now, v.isFile n = true) ∧ v.Puts path k now s (m.stage path contents s).2
  removed : ∀ path s k, v.Leads path s k → v.Puts path k none s (m.remove path s)

/-! ## The store -/

namespace Store

/-- On a store every path is a place, and there are no links. -/
def view : FileView Store Path Entry where
  place _ path := some path
  look s := s
  isFile entry := entry != .directory

end Store

/-! ## The bench -/

namespace Bench

namespace World

/-- On the bench a path leads to a location in a file system, through links. -/
def view : FileView World Location Node where
  place w path := (w.files.locateEntry path).toOption
  look w := w.files.get?
  isFile := Node.isFile

variable {w : World} {path : Path} {k : Location}

theorem locateEntry_of_place (h : view.place w path = some k) : w.files.locateEntry path = .ok k := by
  cases hloc : w.files.locateEntry path with
  | error e =>
    simp only [view, hloc] at h
    cases h
  | ok loc =>
    simp only [view, hloc] at h
    exact congrArg _ (Option.some.inj h)

/-- To put a file in the place of a path, or nothing, is all that changes. -/
theorem puts_insert {w' : World} {node : Node} (hloc : w.files.locateEntry path = .ok k)
    (hclear : w.files.Clear k) (hnode : node.isFile = true)
    (hfiles : w'.files = w.files.insert k node) : view.Puts path k (some node) w w' where
  look := by
    show w'.files.get? = _
    rw [hfiles, FileSystem.get?_insert w.files hclear.ne_nil]
    rfl
  place := by
    show (w'.files.locateEntry path).toOption = some k
    rw [hfiles, (FileSystem.DifferAt.insert hclear hnode).locateEntry hloc]
    rfl

theorem puts_erase {w' : World} (hloc : w.files.locateEntry path = .ok k)
    (hclear : w.files.Clear k) (hfiles : w'.files = w.files.erase k) :
    view.Puts path k none w w' where
  look := by
    show w'.files.get? = _
    rw [hfiles, FileSystem.get?_erase w.files hclear.ne_nil]
    rfl
  place := by
    show (w'.files.locateEntry path).toOption = some k
    rw [hfiles, (FileSystem.DifferAt.erase hclear).locateEntry hloc]
    rfl

/-- A name that is free is found by trying one after another. -/
theorem create_of_createFrom {files files' : FileSystem} {dir : Path} {serial serial' fuel : Nat}
    (h : createFrom files dir serial fuel = .ok (path, serial', files')) :
    files.create path = .ok files' := by
  induction fuel generalizing serial with
  | zero => cases h
  | succ fuel ih =>
    unfold createFrom at h
    dsimp only at h
    split at h
    next found hfound =>
      cases h
      exact hfound
    · exact ih h
    · cases h

/-- To stage contents where the path leads is to put a file there; it cannot fail. -/
theorem stage_of_leads (hk : view.Leads path w k) (contents : Bytes) :
    ∃ node : Node, node.isFile = true ∧ (stage path contents w).1 = .ok () ∧
      view.Puts path k (some node) w (stage path contents w).2 := by
  have hloc : (w.wait 0).files.locateEntry path = .ok k := locateEntry_of_place hk.place
  obtain ⟨node, hnode, hwrite⟩ := FileSystem.write_of_locateEntry hloc hk.clear contents
  have hstage : stage path contents w =
      (.ok (), { w.wait 0 with files := (w.wait 0).files.insert k node }) := by
    rw [stage, hwrite]
  rw [hstage]
  exact ⟨node, hnode, rfl, puts_insert hloc hk.clear hnode rfl⟩

/-- To remove a file where the path leads is to leave nothing there. -/
theorem remove_of_leads (hk : view.Leads path w k) : view.Puts path k none w (w.remove path) := by
  have hloc := locateEntry_of_place hk.place
  exact puts_erase hloc hk.clear (FileSystem.remove_of_locateEntry hloc hk.clear)

/-- A scratch file is created where nothing was. -/
theorem create_eq_ok {dir : Option Path} (h : (create dir w).1 = .ok path) :
    ∃ k file, view.place w path = some k ∧ view.look w k = none ∧ Node.isFile file = true ∧
      view.Puts path k (some file) w (create dir w).2 := by
  unfold create at h ⊢
  dsimp only at h ⊢
  split at h
  · cases h
  next hnul =>
  rw [if_neg hnul]
  cases hfrom : createFrom w.files (Path.join (pathOf w.files.cwd) (dir.getD w.tempDir)) w.serial
      (w.files.nodes.length + 1) with
  | error e =>
    rw [hfrom] at h
    cases h
  | ok found =>
    obtain ⟨p, serial, files⟩ := found
    rw [hfrom] at h
    obtain rfl := Except.ok.inj h
    -- names that are taken were passed over
    obtain ⟨k, hloc, hnone, rfl⟩ := FileSystem.create_eq_ok (create_of_createFrom hfrom)
    have hclear : w.files.Clear k := by
      intro node hnode
      rw [hnone] at hnode
      cases hnode
    refine ⟨k, _, ?_, hnone, rfl, puts_insert hloc hclear rfl rfl⟩
    show (w.files.locateEntry p).toOption = some k
    rw [hloc]
    rfl

/-- What was staged on the bench is read from its file, also through links. -/
theorem read_of_stage {contents : Bytes} (h : (stage path contents w).1 = .ok ()) :
    (stage path contents w).2.files.read path = .ok contents := by
  unfold stage at h ⊢
  dsimp only at h ⊢
  cases hwrite : (w.wait 0).files.write path contents with
  | error e =>
    rw [hwrite] at h
    cases h
  | ok files => exact FileSystem.read_of_write hwrite

/-- What the file of a path holds. -/
def held (path : Path) (w : World) : Option Bytes :=
  (w.files.read path).toOption

/-- A text that was staged on the bench is held by its file. -/
theorem machine_writes (launch : Path → Command → Option Span → World → Ending × World) :
    Machine.Writes { machine with launch } held := by
  intro path contents w hstaged
  have hread : (stage path contents w).2.files.read path = .ok contents := read_of_stage hstaged
  show ((stage path contents w).2.files.read path).toOption = some contents
  rw [hread]
  rfl

/-- Where a path leads, it names what is there. -/
theorem pathExists_of_leads (hk : view.Leads path w k) :
    w.files.pathExists path = (view.look w k).isSome :=
  FileSystem.pathExists_of_locateEntry (locateEntry_of_place hk.place) hk.clear

end World

/-! ## Trying out a scratch file -/

namespace ScratchTrial

variable {w : World} {path : Path} {k : Location}

/-- All contents are seen as they were staged, and the file is still there after them. -/
theorem stageAll_of_leads (hk : World.view.Leads path w k) (hthere : (World.view.look w k).isSome)
    (contents : List Bytes) :
    ∃ after, stageAll path w contents = .ok (contents, after) ∧ World.view.Leads path after k ∧
      (World.view.look after k).isSome := by
  induction contents generalizing w with
  | nil => exact ⟨w, rfl, hk, hthere⟩
  | cons first contents ih =>
    obtain ⟨node, hnode, hstaged, hputs⟩ := World.stage_of_leads hk first
    have hread := World.read_of_stage hstaged
    have hleads : World.view.Leads path (w.stage path first).2 k := by
      refine hputs.leads ?_
      rintro _ ⟨⟩
      exact hnode
    have hthere' : (World.view.look (w.stage path first).2 k).isSome := by
      rw [hputs.look_self]
      rfl
    obtain ⟨after, hrest, hafter⟩ := ih hleads hthere'
    refine ⟨after, ?_, hafter⟩
    rw [stageAll]
    simp only [hstaged, hread, hrest, Except.mapError, bind, Except.bind, pure, Except.pure]

/-- A scratch file that can be created shows what was staged last, is there up to its end, and is not
there any more after it. So a trial fails only if its file cannot be created. -/
theorem run_eq (w : World) (dir : Option Path) (contents : List Bytes) :
    run w dir contents = (w.create dir).1.map fun path =>
      { path, seen := contents, existed := true, remains := false } := by
  unfold run
  cases hcreate : (w.create dir).1 with
  | error e =>
    simp only [hcreate, bind, Except.bind]
    rfl
  | ok path =>
    obtain ⟨k, file, -, -, hfile, hputs⟩ := World.create_eq_ok hcreate
    have hleads : World.view.Leads path (w.create dir).2 k := by
      refine hputs.leads ?_
      rintro _ ⟨⟩
      exact hfile
    have hthere : (World.view.look (w.create dir).2 k).isSome := by
      rw [hputs.look_self]
      rfl
    obtain ⟨after, hstaged, hafter, hstill⟩ := stageAll_of_leads hleads hthere contents
    have hexisted : after.files.pathExists path = true :=
      (World.pathExists_of_leads hafter).trans hstill
    -- after its end the path still leads to the same place, and nothing is there
    have hremains : (after.remove path).files.pathExists path = false := by
      have hremoved := World.remove_of_leads hafter
      rw [World.pathExists_of_leads (hremoved.leads nofun), hremoved.look_self]
      rfl
    simp only [hcreate, hstaged, hexisted, hremains, bind, Except.bind, pure, Except.pure]
    rfl

end ScratchTrial

end Bench

end ShaderChain
