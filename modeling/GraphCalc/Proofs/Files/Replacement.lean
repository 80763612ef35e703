import GraphCalc.Proofs.Files.Following

/-!
# Replacing output files

Writing an output file goes through a lock file and a temporary file, and each step
of it may be refused.  None of the steps makes or removes a directory.  So the path
of the output file leads to the same place throughout, which is neither that of the
lock file nor that of the temporary file.  What remains is one of four trees: the
tree before, that tree with its lock file, the latter with a temporary file that
could not be removed, or the latter with the new content at the place of the output
file.
-/

namespace GraphCalc

open Text (Bytes)

namespace FileTree

/-! ## Steps on the tree -/

/-- A file is there after it was made sure of: as it was, or empty if nothing was
there. -/
theorem touch_cases {tree after : FileTree} {path : String}
    (touched : tree.touch path = .ok after) :
    ∃ place, tree.locate path = .ok place ∧
      ((∃ content, tree.entry? place = some (.file content) ∧ after = tree) ∨
        (tree.entry? place = none ∧ after = tree.insert place (.file []))) := by
  rw [touch] at touched
  split at touched
  · contradiction
  · rename_i place located
    refine ⟨place, located, ?_⟩
    split at touched
    · rename_i empty
      exact .inr ⟨empty, (Except.ok.inj touched).symm⟩
    · contradiction
    · rename_i content isFile
      exact .inl ⟨content, isFile, (Except.ok.inj touched).symm⟩

theorem sameDirectories_touch {tree after : FileTree} {path : String}
    (touched : tree.touch path = .ok after) : tree.SameDirectories after := by
  rcases touch_cases touched with ⟨place, _, ⟨_, _, rfl⟩ | ⟨empty, rfl⟩⟩
  · exact .refl after
  · exact sameDirectories_insert (not_directory_of_empty empty) []

theorem insert_insert (tree : FileTree) (place : Location) (first second : Entry) :
    (tree.insert place first).insert place second = tree.insert place second := by
  simp only [insert, mk.injEq, true_and]
  apply Std.ExtTreeMap.ext_getElem?
  intro other
  by_cases isPlace : place = other
  · simp [isPlace]
  · simp [Std.ExtTreeMap.getElem?_insert, isPlace]

/-- What lies somewhere stays there when a file is put at an empty place. -/
theorem entry?_insert_of_empty {tree : FileTree} {place other : Location} {entry : Entry}
    (empty : tree.entry? place = none) (there : tree.entry? other = some entry)
    (content : Bytes) :
    FileTree.entry? (tree.insert place (.file content)) other = some entry := by
  rw [entry?_insert tree (ne_root (not_directory_of_empty empty)), if_neg]
  · exact there
  · rintro rfl
    cases empty.symm.trans there

/-- Whether a path leads to a place where nothing lies. -/
structure Vacant (tree : FileTree) (path : String) (place : Location) : Prop where
  located : tree.locate path = .ok place
  empty : tree.entry? place = none

theorem exists_vacant_of_freshFrom {tree : FileTree} {exhausted : FileError}
    {paths : Nat → String} {number left : Nat} {found : String × Location}
    (fresh : tree.freshFrom exhausted paths number left = .ok found) :
    ∃ used, found.1 = paths used ∧ tree.Vacant found.1 found.2 := by
  induction left generalizing number with
  | zero => cases fresh
  | succ left ih =>
      rw [freshFrom] at fresh
      split at fresh
      · contradiction
      · rename_i place located
        split at fresh
        · exact ih fresh
        · rename_i free
          cases fresh
          exact ⟨number, rfl, located, by simpa using free⟩

/-- Nothing lies at the place of a new temporary file. -/
theorem exists_vacant_of_freshTemporary {tree : FileTree} {suffix : Nat → String} {path : String}
    {found : String × Location} (fresh : tree.freshTemporary suffix path = .ok found) :
    ∃ used, found.1 = Output.temporaryPath path (suffix used) ∧
      tree.Vacant found.1 found.2 :=
  exists_vacant_of_freshFrom fresh

namespace Vacant

variable {tree : FileTree} {path : String} {place : Location}

theorem ne_root (vacant : tree.Vacant path place) : place ≠ [] :=
  FileTree.ne_root (not_directory_of_empty vacant.empty)

theorem sameDirectories (vacant : tree.Vacant path place) (content : Bytes) :
    tree.SameDirectories (tree.insert place (.file content)) :=
  sameDirectories_insert (not_directory_of_empty vacant.empty) content

theorem entry?_insert_self (vacant : tree.Vacant path place) (content : Bytes) :
    FileTree.entry? (tree.insert place (.file content)) place = some (.file content) := by
  rw [entry?_insert tree vacant.ne_root, if_pos rfl]

theorem find_insert (vacant : tree.Vacant path place) (content : Bytes) :
    (tree.insert place (.file content)).find path = .ok (.file content) := by
  rw [find, (vacant.sameDirectories content).locate_eq_ok vacant.located]
  simp only [bind, Except.bind, vacant.entry?_insert_self content]

/-- A file that was put at a vacant place and is removed leaves no trace. -/
theorem remove_insert (vacant : tree.Vacant path place) (content : Bytes) :
    (tree.insert place (.file content)).remove path = tree := by
  rw [remove, (vacant.sameDirectories content).locate_eq_ok vacant.located]
  simp only [vacant.entry?_insert_self content]
  exact erase_insert vacant.empty (.file content)

theorem remove_eq (vacant : tree.Vacant path place) : tree.remove path = tree := by
  simp only [remove, vacant.located, vacant.empty]

/-- A path is vacant as long as files are put elsewhere. -/
theorem insert (vacant : tree.Vacant path place) {other : Location} (apart : place ≠ other)
    (notDirectory : tree.entry? other ≠ some .directory) (content : Bytes) :
    (tree.insert other (.file content)).Vacant path place where
  located := (sameDirectories_insert notDirectory content).locate_eq_ok vacant.located
  empty := by
    rw [entry?_insert tree (FileTree.ne_root notDirectory), if_neg apart]
    exact vacant.empty

/-- A file that is moved from a vacant place ends up as if it had been put where
the other path leads, and it can be moved if no directory lies there. -/
theorem move_insert_iff (vacant : tree.Vacant path place) (content : Bytes) (other : String)
    (moved : FileTree) :
    (tree.insert place (.file content)).move path other = .ok moved ↔
      ∃ target, tree.locate other = .ok target ∧ tree.entry? target ≠ some .directory ∧
        moved = tree.insert target (.file content) := by
  have same := vacant.sameDirectories content
  simp only [move, same.locate_eq_ok vacant.located, bind, Except.bind,
    vacant.entry?_insert_self content, erase_insert vacant.empty]
  cases located : (tree.insert place (.file content)).locate other with
  | error problem =>
      refine iff_of_false (fun isOk => by cases isOk) ?_
      rintro ⟨target, locatedBefore, -, -⟩
      cases located.symm.trans (same.locate_eq_ok locatedBefore)
  | ok target =>
      simp only [← same.directory_iff]
      have locatedBefore := same.symm.locate_eq_ok located
      by_cases isDirectory : tree.entry? target = some .directory
      · rw [if_pos isDirectory]
        refine iff_of_false (fun isOk => by cases isOk) ?_
        rintro ⟨other, locatedOther, notDirectory, -⟩
        cases locatedBefore.symm.trans locatedOther
        exact notDirectory isDirectory
      · rw [if_neg isDirectory, Except.ok.injEq]
        constructor
        · rintro rfl
          exact ⟨target, locatedBefore, isDirectory, rfl⟩
        · rintro ⟨other, locatedOther, -, rfl⟩
          cases locatedBefore.symm.trans locatedOther
          rfl

end Vacant

end FileTree

/-! ## Steps of a simulated host -/

section Steps

variable {α β : Type} {world after : World} {failure : Failure}

theorem World.run_bind_of_ok {first : ExceptT Failure (StateM World) α}
    {next : α → ExceptT Failure (StateM World) β} {value : α}
    (done : first.run.run world = (.ok value, after)) :
    (first >>= next).run.run world = (next value).run.run after := by
  rw [ExceptT.run_bind, StateT.run_bind, done]
  rfl

theorem World.run_bind_of_error {first : ExceptT Failure (StateM World) α}
    {next : α → ExceptT Failure (StateM World) β}
    (failed : first.run.run world = (.error failure, after)) :
    (first >>= next).run.run world = (.error failure, after) := by
  rw [ExceptT.run_bind, StateT.run_bind, failed]
  rfl

theorem World.run_discard {action : StateM World α} {result : α}
    (done : action.run world = (result, after)) : (discard action).run world = ((), after) := by
  change ((), (action.run world).2) = _
  rw [done]

namespace Host

variable {action : ExceptT Failure (StateM World) α}

theorem run_during_of_ok {value : α} (done : action.run.run world = (.ok value, after))
    (task : String) : (during task action).run.run world = (.ok value, after) := by
  rw [during, ExceptT.run_mk, StateT.run_bind, done]
  rfl

theorem run_during_of_error (failed : action.run.run world = (.error failure, after))
    (task : String) :
    (during task action).run.run world = (.error (.during task failure), after) := by
  rw [during, ExceptT.run_mk, StateT.run_bind, failed]
  rfl

theorem run_ensuring {result : Except Failure α} (done : action.run.run world = (result, after))
    (last : StateM World Unit) :
    (ensuring last action).run.run world = (result, (last.run after).2) := by
  rw [ensuring, ExceptT.run_mk, StateT.run_bind, done]
  rfl

theorem run_onFailure_of_ok {value : α} (done : action.run.run world = (.ok value, after))
    (last : StateM World Unit) :
    (onFailure last action).run.run world = (.ok value, after) := by
  rw [onFailure, ExceptT.run_mk, StateT.run_bind, done]
  rfl

theorem run_onFailure_of_error (failed : action.run.run world = (.error failure, after))
    (last : StateM World Unit) :
    (onFailure last action).run.run world = (.error failure, (last.run after).2) := by
  rw [onFailure, ExceptT.run_mk, StateT.run_bind, failed]
  rfl

end Host

namespace Behavior

variable {behavior : Behavior} {operation : Operation} {shown : String} {paths : List String}
variable {action : FileTree → Except FileProblem (α × FileTree)} {problem : FileProblem}

theorem run_change_of_refused (refused : behavior.refusal? operation = some problem) :
    (behavior.change operation shown paths action).run.run world =
      (.error (.file ⟨shown, paths, problem⟩), world) := by
  simp only [change, ExceptT.run_mk, StateT.run, refused]

theorem run_change_of_error (granted : behavior.refusal? operation = none)
    (failed : action world.tree = .error problem) :
    (behavior.change operation shown paths action).run.run world =
      (.error (.file ⟨shown, paths, problem⟩), world) := by
  simp only [change, ExceptT.run_mk, StateT.run, granted, failed]

theorem run_change_of_ok {value : α} {tree : FileTree}
    (granted : behavior.refusal? operation = none) (done : action world.tree = .ok (value, tree)) :
    (behavior.change operation shown paths action).run.run world =
      (.ok value, { world with tree := tree }) := by
  simp only [change, ExceptT.run_mk, StateT.run, granted, done]

section Host

variable (behavior : Behavior) (draft : String × Location) (path : String)

theorem host_path : behavior.host.path draft = draft.1 :=
  rfl

theorem host_write (content : Bytes) :
    behavior.host.write draft content = behavior.write draft content :=
  rfl

theorem host_close :
    behavior.host.close draft =
      behavior.change .close "close" [draft.1] fun tree => .ok ((), tree) :=
  rfl

theorem host_publish :
    behavior.host.publish path =
      behavior.change .publish "chmod" [path] fun tree =>
        (tree.find path).map fun _ => ((), tree) :=
  rfl

theorem host_move (target : String) :
    behavior.host.move path target =
      behavior.change .move "rename" [path, target] fun tree =>
        (tree.move path target).map fun moved => ((), moved) :=
  rfl

/-- Closing a temporary file changes nothing, whether or not it is refused. -/
theorem run_close (world : World) :
    ∃ result, (behavior.host.close draft).run.run world = (result, world) := by
  rw [host_close]
  cases closeEq : behavior.refusal? .close with
  | some problem => exact ⟨_, run_change_of_refused closeEq⟩
  | none => exact ⟨_, run_change_of_ok closeEq rfl⟩

end Host

end Behavior

end Steps

/-! ## Filling the temporary file -/

namespace Behavior

variable {behavior : Behavior} {tree : FileTree} {path : String} {content : Bytes}

/-- Whether a temporary file can be filled and moved into place: nothing of that
is refused, and there is room for a file where the path leads. -/
def CanFill (behavior : Behavior) (tree : FileTree) (path : String) : Prop :=
  (∀ operation ∈ [Operation.write, .close, .publish, .move],
    behavior.refusal? operation = none) ∧
  ∃ target, tree.locate path = .ok target ∧ tree.entry? target ≠ some .directory

theorem not_canFill {operation : Operation} {problem : FileProblem}
    (isStep : operation ∈ [Operation.write, .close, .publish, .move])
    (refused : behavior.refusal? operation = some problem) : ¬ behavior.CanFill tree path := by
  rintro ⟨granted, -⟩
  rw [granted operation isStep] at refused
  contradiction

theorem run_write_of_refused {draft : String × Location} {world : World} {problem : FileProblem}
    (treeEq : world.tree = tree.insert draft.2 (.file []))
    (refused : behavior.refusal? .write = some problem) (content : Bytes) :
    (behavior.write draft content).run.run world =
      (.error (.file ⟨"write", [draft.1], problem⟩),
        { world with tree := tree.insert draft.2 (.file (content.take behavior.reach)) }) := by
  simp only [write, ExceptT.run_mk, StateT.run, refused, treeEq, FileTree.insert_insert]

theorem run_write_of_granted {draft : String × Location} {world : World}
    (treeEq : world.tree = tree.insert draft.2 (.file []))
    (granted : behavior.refusal? .write = none) (content : Bytes) :
    (behavior.write draft content).run.run world =
      (.ok (), { world with tree := tree.insert draft.2 (.file content) }) := by
  simp only [write, ExceptT.run_mk, StateT.run, granted, treeEq, FileTree.insert_insert]

/-- A temporary file that is complete is moved into place, or it stays where it is. -/
theorem move_cases {draft : String × Location} (vacant : tree.Vacant draft.1 draft.2)
    (world : World) (treeEq : world.tree = tree.insert draft.2 (.file content))
    (granted : ∀ operation ∈ [Operation.write, .close, .publish],
      behavior.refusal? operation = none) (task : String) :
    (∃ failure, ¬ behavior.CanFill tree path ∧
      (Host.during task (behavior.host.move draft.1 path)).run.run world =
        (.error failure, world)) ∨
    ∃ target, behavior.CanFill tree path ∧ tree.locate path = .ok target ∧
      tree.entry? target ≠ some .directory ∧
      (Host.during task (behavior.host.move draft.1 path)).run.run world =
        (.ok (), { world with tree := tree.insert target (.file content) }) := by
  rw [host_move]
  cases moveEq : behavior.refusal? .move with
  | some problem =>
      exact .inl ⟨_, not_canFill (by decide) moveEq,
        Host.run_during_of_error (run_change_of_refused moveEq) task⟩
  | none =>
      have movedIff := vacant.move_insert_iff content path
      rw [← treeEq] at movedIff
      cases outcome : world.tree.move draft.1 path with
      | error problem =>
          refine .inl ⟨_, ?_, Host.run_during_of_error
            (run_change_of_error moveEq (congrArg (Except.map _) outcome)) task⟩
          rintro ⟨-, target, located, notDirectory⟩
          rw [outcome] at movedIff
          cases (movedIff _).2 ⟨target, located, notDirectory, rfl⟩
      | ok moved =>
          rcases (movedIff moved).1 outcome with ⟨target, located, notDirectory, rfl⟩
          refine .inr ⟨target, ⟨?_, target, located, notDirectory⟩, located, notDirectory,
            Host.run_during_of_ok
              (run_change_of_ok moveEq (congrArg (Except.map _) outcome)) task⟩
          simp only [List.forall_mem_cons] at granted ⊢
          exact ⟨granted.1, granted.2.1, granted.2.2.1, moveEq, granted.2.2.2⟩

/-- A temporary file is filled and moved into place, or it stays where it is,
filled in part or not at all. -/
theorem fill_cases {draft : String × Location} (vacant : tree.Vacant draft.1 draft.2)
    {world : World} (treeEq : world.tree = tree.insert draft.2 (.file [])) :
    (∃ failure written, ¬ behavior.CanFill tree path ∧
      (behavior.host.fill draft path content).run.run world =
        (.error failure, { world with tree := tree.insert draft.2 (.file written) })) ∨
    ∃ target, behavior.CanFill tree path ∧ tree.locate path = .ok target ∧
      tree.entry? target ≠ some .directory ∧
      (behavior.host.fill draft path content).run.run world =
        (.ok (), { world with tree := tree.insert target (.file content) }) := by
  let holding (written : Bytes) : World :=
    { world with tree := tree.insert draft.2 (.file written) }
  unfold Host.fill
  simp only [host_path, host_write, host_publish]
  cases writeEq : behavior.refusal? .write with
  | some problem =>
      have written := run_write_of_refused treeEq writeEq content
      rcases behavior.run_close draft (holding (content.take behavior.reach)) with ⟨_, closed⟩
      have abandoned := Host.run_onFailure_of_error written
        (discard (behavior.host.close draft).run)
      rw [World.run_discard closed] at abandoned
      exact .inl ⟨_, _, not_canFill (by decide) writeEq,
        World.run_bind_of_error (Host.run_during_of_error abandoned _)⟩
  | none =>
      have written := run_write_of_granted treeEq writeEq content
      rw [World.run_bind_of_ok (Host.run_during_of_ok (Host.run_onFailure_of_ok written _) _)]
      simp only [host_close]
      cases closeEq : behavior.refusal? .close with
      | some problem =>
          exact .inl ⟨_, content, not_canFill (by decide) closeEq, World.run_bind_of_error
            (Host.run_during_of_error (run_change_of_refused closeEq) _)⟩
      | none =>
          rw [World.run_bind_of_ok (Host.run_during_of_ok (run_change_of_ok closeEq rfl) _)]
          cases publishEq : behavior.refusal? .publish with
          | some problem =>
              exact .inl ⟨_, content, not_canFill (by decide) publishEq, World.run_bind_of_error
                (Host.run_during_of_error (run_change_of_refused publishEq) _)⟩
          | none =>
              have found := congrArg (Except.map fun _ => ((), (holding content).tree))
                (vacant.find_insert content)
              rw [World.run_bind_of_ok (Host.run_during_of_ok
                (run_change_of_ok publishEq found) _)]
              have granted : ∀ operation ∈ [Operation.write, .close, .publish],
                  behavior.refusal? operation = none := by
                simp only [List.forall_mem_cons]
                exact ⟨writeEq, closeEq, publishEq, List.forall_mem_nil _⟩
              rcases move_cases vacant (holding content) rfl granted "move output into place" with
                ⟨failure, cannot, stayed⟩ | moved
              · exact .inl ⟨failure, content, cannot, stayed⟩
              · exact .inr moved

/-! ## Writing with the lock held -/

/-- Whether an output file whose lock is held can be written: there is a name for
the temporary file, which can be created, filled and moved into place. -/
def CanReplace (behavior : Behavior) (tree : FileTree) (path : String) : Prop :=
  Output.nameError? path = none ∧ behavior.refusal? .create = none ∧
    (∃ draft, tree.freshTemporary behavior.suffix path = .ok draft) ∧ behavior.CanFill tree path

/-- What can become of a file tree when an output file whose lock is held is
written: nothing, or a temporary file that cannot be removed, or the new content in
place. -/
inductive Replaces (behavior : Behavior) (tree : FileTree) (path : String) (content : Bytes) :
    Except Failure Unit → FileTree → Prop
  | stopped (failure : Failure) (cannot : ¬ behavior.CanReplace tree path) :
      Replaces behavior tree path content (.error failure) tree
  | abandoned (failure : Failure) (cannot : ¬ behavior.CanReplace tree path) {place : Location}
      (refused : behavior.refusal? .remove ≠ none) (empty : tree.entry? place = none)
      (apart : ∀ target, tree.locate path = .ok target → place ≠ target) (written : Bytes) :
      Replaces behavior tree path content (.error failure) (tree.insert place (.file written))
  | replaced (can : behavior.CanReplace tree path) {target : Location}
      (located : tree.locate path = .ok target)
      (notDirectory : tree.entry? target ≠ some .directory) :
      Replaces behavior tree path content (.ok ()) (tree.insert target (.file content))

theorem run_remove_of_refused (refused : behavior.refusal? .remove ≠ none) (path : String)
    (world : World) : (behavior.host.remove path).run world = ((), world) := by
  have isSome : (behavior.refusal? .remove).isSome := Option.isSome_iff_ne_none.2 refused
  change (if _ then _ else _ : StateM World Unit).run world = _
  rw [if_pos isSome]
  rfl

theorem run_remove_of_granted (granted : behavior.refusal? .remove = none) (path : String)
    (world : World) :
    (behavior.host.remove path).run world =
      ((), { world with tree := world.tree.remove path }) := by
  change (if _ then _ else _ : StateM World Unit).run world = _
  rw [granted]
  rfl

/-- The suffixes of temporary files are parts of names. -/
def PlainSuffixes (behavior : Behavior) : Prop :=
  ∀ number, '/' ∉ (behavior.suffix number).toList

theorem replaces_of_draft (plain : behavior.PlainSuffixes) (named : Output.nameError? path = none)
    (granted : behavior.refusal? .create = none) {draft : String × Location}
    (fresh : tree.freshTemporary behavior.suffix path = .ok draft) (content : Bytes)
    (world : World) (treeEq : world.tree = tree.insert draft.2 (.file [])) :
    ∃ result after,
      (Host.ensuring (behavior.host.remove draft.1)
          (behavior.host.fill draft path content)).run.run world =
        (result, { world with tree := after }) ∧
      behavior.Replaces tree path content result after := by
  rcases FileTree.exists_vacant_of_freshTemporary fresh with ⟨used, pathEq, vacant⟩
  have apart : ∀ target, tree.locate path = .ok target → draft.2 ≠ target := by
    intro target located
    rw [pathEq] at vacant
    exact FileTree.temporary_ne_target named (plain used) vacant.located vacant.empty located
  have canIff : behavior.CanReplace tree path ↔ behavior.CanFill tree path :=
    ⟨fun can => can.2.2.2, fun can => ⟨named, granted, ⟨draft, fresh⟩, can⟩⟩
  rcases fill_cases vacant treeEq with
    ⟨failure, written, cannot, ended⟩ | ⟨target, can, located, notDirectory, ended⟩
  · rw [← canIff] at cannot
    refine ⟨.error failure, ?_⟩
    by_cases refused : behavior.refusal? .remove = none
    · refine ⟨tree, ?_, .stopped failure cannot⟩
      rw [Host.run_ensuring ended, run_remove_of_granted refused, vacant.remove_insert]
    · refine ⟨_, ?_, .abandoned failure cannot refused vacant.empty apart written⟩
      rw [Host.run_ensuring ended, run_remove_of_refused refused]
  · refine ⟨.ok (), _, ?_, .replaced (canIff.2 can) located notDirectory⟩
    rw [Host.run_ensuring ended]
    by_cases refused : behavior.refusal? .remove = none
    · rw [run_remove_of_granted refused,
        (vacant.insert (apart target located) notDirectory content).remove_eq]
    · rw [run_remove_of_refused refused]

/-- A temporary file is created and empty, or nothing has changed. -/
theorem create_cases (behavior : Behavior) (path : String) (world : World) :
    (∃ failure, ¬ behavior.CanReplace world.tree path ∧
      (behavior.create path).run.run world = (.error failure, world)) ∨
    ∃ draft, Output.nameError? path = none ∧ behavior.refusal? .create = none ∧
      world.tree.freshTemporary behavior.suffix path = .ok draft ∧
      (behavior.create path).run.run world =
        (.ok draft, { world with tree := world.tree.insert draft.2 (.file []) }) := by
  cases nameEq : Output.nameError? path with
  | some error =>
      refine .inl ⟨.file error, ?_, ?_⟩
      · rintro ⟨named, -⟩
        cases nameEq.symm.trans named
      · simp only [create, ExceptT.run_mk, StateT.run, nameEq]
  | none =>
      cases createEq : behavior.refusal? .create with
      | some problem =>
          refine .inl
            ⟨.file ⟨"open", [Output.temporaryPath path (behavior.suffix 0)], problem⟩, ?_, ?_⟩
          · rintro ⟨-, granted, -⟩
            cases createEq.symm.trans granted
          · simp only [create, ExceptT.run_mk, StateT.run, nameEq, createEq]
      | none =>
          cases fresh : world.tree.freshTemporary behavior.suffix path with
          | error error =>
              refine .inl ⟨.file error, ?_, ?_⟩
              · rintro ⟨-, -, ⟨draft, found⟩, -⟩
                cases fresh.symm.trans found
              · simp only [create, ExceptT.run_mk, StateT.run, nameEq, createEq, fresh]
          | ok draft =>
              refine .inr ⟨draft, rfl, rfl, rfl, ?_⟩
              simp only [create, ExceptT.run_mk, StateT.run, nameEq, createEq, fresh]

/-- Writing an output file whose lock is held. -/
theorem replaces (plain : behavior.PlainSuffixes) (path : String) (content : Bytes)
    (world : World) :
    ∃ result after,
      (behavior.host.replace path content).run.run world =
        (result, { world with tree := after }) ∧
      behavior.Replaces world.tree path content result after := by
  rcases behavior.create_cases path world with
    ⟨failure, cannot, failed⟩ | ⟨draft, named, granted, fresh, created⟩
  · exact ⟨_, world.tree, World.run_bind_of_error (Host.run_during_of_error failed _),
      .stopped _ cannot⟩
  · rcases replaces_of_draft plain named granted fresh content
      { world with tree := world.tree.insert draft.2 (.file []) } rfl with
      ⟨result, after, ended, replaces⟩
    exact ⟨result, after, (World.run_bind_of_ok (Host.run_during_of_ok created _)).trans ended,
      replaces⟩

/-! ## Writing -/

/-- Whether an output file can be written: its lock file can be opened and held,
and with the lock file there the output file can be written. -/
def CanWrite (behavior : Behavior) (tree : FileTree) (path : String) : Prop :=
  behavior.refusal? .openLock = none ∧ behavior.refusal? .holdLock = none ∧
    ∃ locked, tree.touch (Output.lockPath path) = .ok locked ∧ behavior.CanReplace locked path

/-- What can become of a file tree when an output file is written. -/
inductive Writes (behavior : Behavior) (tree : FileTree) (path : String) (content : Bytes) :
    Except Failure Unit → FileTree → Prop
  | unopened (failure : Failure) (cannot : ¬ behavior.CanWrite tree path) :
      Writes behavior tree path content (.error failure) tree
  | unheld (failure : Failure) (cannot : ¬ behavior.CanWrite tree path) {locked : FileTree}
      (touched : tree.touch (Output.lockPath path) = .ok locked) :
      Writes behavior tree path content (.error failure) locked
  | held (opened : behavior.refusal? .openLock = none) (held : behavior.refusal? .holdLock = none)
      {locked after : FileTree} {result : Except Failure Unit}
      (touched : tree.touch (Output.lockPath path) = .ok locked)
      (replaces : behavior.Replaces locked path content result after) :
      Writes behavior tree path content result after

/-- A lock file cannot be opened, or it is there but cannot be held, or it is
held. -/
theorem acquire_cases (behavior : Behavior) (path : String) (world : World) :
    (∃ failure,
      ¬ (behavior.refusal? .openLock = none ∧ ∃ locked, world.tree.touch path = .ok locked) ∧
      (behavior.acquire path).run.run world = (.error failure, world)) ∨
    (∃ failure locked, world.tree.touch path = .ok locked ∧ behavior.refusal? .holdLock ≠ none ∧
      (behavior.acquire path).run.run world = (.error failure, { world with tree := locked })) ∨
    ∃ locked, behavior.refusal? .openLock = none ∧ behavior.refusal? .holdLock = none ∧
      world.tree.touch path = .ok locked ∧
      (behavior.acquire path).run.run world = (.ok (), { world with tree := locked }) := by
  rw [acquire]
  cases openEq : behavior.refusal? .openLock with
  | some problem =>
      exact .inl ⟨_, fun can => (by cases can.1),
        World.run_bind_of_error (run_change_of_refused openEq)⟩
  | none =>
      cases touched : world.tree.touch path with
      | error problem =>
          refine .inl ⟨_, ?_, World.run_bind_of_error
            (run_change_of_error openEq (congrArg (Except.map _) touched))⟩
          rintro ⟨-, locked, touchedOk⟩
          cases touchedOk
      | ok locked =>
          rw [World.run_bind_of_ok (run_change_of_ok openEq
            (congrArg (Except.map fun touched => ((), touched)) touched))]
          cases holdEq : behavior.refusal? .holdLock with
          | some problem =>
              exact .inr (.inl ⟨.place problem, locked, rfl, Option.some_ne_none _, rfl⟩)
          | none => exact .inr (.inr ⟨locked, rfl, rfl, rfl, rfl⟩)

/-- Writing an output file changes nothing but the file tree. -/
theorem writes (plain : behavior.PlainSuffixes) (path : String) (content : Bytes)
    (world : World) :
    ∃ result after,
      (behavior.host.writeOutput path content).run.run world =
        (result, { world with tree := after }) ∧
      behavior.Writes world.tree path content result after := by
  rcases behavior.acquire_cases (Output.lockPath path) world with
    ⟨failure, cannot, failed⟩ | ⟨failure, locked, touched, refused, failed⟩ |
      ⟨locked, opened, held, touched, acquired⟩
  · refine ⟨_, world.tree, World.run_bind_of_error (Host.run_during_of_error failed _),
      .unopened _ ?_⟩
    rintro ⟨opened, -, locked, touched, -⟩
    exact cannot ⟨opened, locked, touched⟩
  · refine ⟨_, locked, World.run_bind_of_error (Host.run_during_of_error failed _),
      .unheld _ ?_ touched⟩
    rintro ⟨-, held, -⟩
    exact refused held
  · rcases replaces plain path content { world with tree := locked } with
      ⟨result, after, ended, replaces⟩
    exact ⟨result, after, (World.run_bind_of_ok (Host.run_during_of_ok acquired _)).trans
      (Host.run_ensuring ended _), .held opened held touched replaces⟩

end Behavior

namespace FileTree

/-- Between two trees nothing has changed but the file that a path leads to and
its lock file, and the lock file has not changed unless it is new and empty. -/
structure ChangesOnly (path : String) (before after : FileTree) : Prop where
  directories : before.SameDirectories after
  others (place : Location) (notOutput : before.locate path ≠ .ok place)
    (notLock : before.locate (Output.lockPath path) ≠ .ok place) :
    after.entry? place = before.entry? place
  lock (place : Location) (isLock : before.locate (Output.lockPath path) = .ok place) :
    after.entry? place = before.entry? place ∨
      (before.entry? place = none ∧ after.entry? place = some (.file []))

theorem ChangesOnly.refl (path : String) (tree : FileTree) : ChangesOnly path tree tree :=
  ⟨.refl tree, fun _ _ _ => rfl, fun _ _ => .inl rfl⟩

/-- Putting content where a path leads adds no change to the lock file. -/
theorem ChangesOnly.insert {tree locked : FileTree} {path : String} {target : Location}
    (changes : ChangesOnly path tree locked) (located : locked.locate path = .ok target)
    (notDirectory : locked.entry? target ≠ some .directory)
    (notLock : tree.locate (Output.lockPath path) ≠ .ok target) (content : Bytes) :
    ChangesOnly path tree (locked.insert target (.file content)) := by
  refine ⟨changes.directories.trans (sameDirectories_insert notDirectory content), ?_, ?_⟩
  · intro place notOutput notLockPlace
    rw [entry?_insert locked (ne_root notDirectory), if_neg]
    · exact changes.others place notOutput notLockPlace
    · rintro rfl
      exact notOutput (changes.directories.symm.locate_eq_ok located)
  · intro place isLock
    rw [entry?_insert locked (ne_root notDirectory), if_neg]
    · exact changes.lock place isLock
    · rintro rfl
      exact notLock isLock

end FileTree

namespace Behavior.Writes

open FileTree

variable {behavior : Behavior} {tree after : FileTree} {path : String} {content : Bytes}
variable {result : Except Failure Unit}

/-- An output file that was written holds the new content. -/
theorem read_eq (writes : behavior.Writes tree path content (.ok ()) after) :
    after.read path = .ok content := by
  cases writes with
  | held opened held touched replaces =>
      cases replaces with
      | replaced can located notDirectory =>
          have same := sameDirectories_insert notDirectory content
          simp [FileTree.read, find, same.locate_eq_ok located,
            entry?_insert _ (ne_root notDirectory), bind, Except.bind]

/-- Whatever becomes of the writing, what lies anywhere but at the place of the
output file stays as it is. -/
theorem keeps (writes : behavior.Writes tree path content result after) {place : Location}
    {entry : Entry} (there : tree.entry? place = some entry)
    (notOutput : tree.locate path ≠ .ok place) : after.entry? place = some entry := by
  have keepsLocked {locked : FileTree}
      (touched : tree.touch (Output.lockPath path) = .ok locked) :
      locked.entry? place = some entry := by
    rcases touch_cases touched with ⟨lock, -, ⟨_, -, rfl⟩ | ⟨empty, rfl⟩⟩
    · exact there
    · exact entry?_insert_of_empty empty there []
  cases writes with
  | unopened => exact there
  | unheld failure cannot touched => exact keepsLocked touched
  | held opened held touched replaces =>
      have thereLocked := keepsLocked touched
      cases replaces with
      | stopped => exact thereLocked
      | abandoned failure cannot refused empty apart written =>
          exact entry?_insert_of_empty empty thereLocked written
      | replaced can located notDirectory =>
          rw [entry?_insert _ (ne_root notDirectory), if_neg]
          · exact thereLocked
          · rintro rfl
            exact notOutput ((sameDirectories_touch touched).symm.locate_eq_ok located)

end Behavior.Writes

end GraphCalc
