import GraphCalc.Files.World

/-!
# Where paths lead

Where a path leads depends on the directories of a file tree only.  So a path leads
to the same place as long as no directory is made or removed.  The lock file and
the temporary file of an output file have longer names than the output file, and
so neither lies at its place.
-/

namespace GraphCalc

open Text (Bytes)

/-! ## Names of paths -/

namespace Path

theorem splitSlash_ne_nil (chars : List Char) : splitSlash chars ≠ [] := by
  cases chars with
  | nil => exact List.cons_ne_nil _ _
  | cons char rest =>
      rw [splitSlash]
      split
      · exact List.cons_ne_nil _ _
      · split
        · exact List.cons_ne_nil _ _
        · exact List.cons_ne_nil _ _

theorem splitSlash_eq_singleton {chars : List Char} (noSlash : '/' ∉ chars) :
    splitSlash chars = [chars] := by
  induction chars with
  | nil => rfl
  | cons char rest ih =>
      rw [List.mem_cons, not_or] at noSlash
      rw [splitSlash, if_neg (Ne.symm noSlash.1), ih noSlash.2]

/-- A slash ends a name. -/
theorem splitSlash_append (front rest : List Char) :
    splitSlash (front ++ '/' :: rest) = splitSlash front ++ splitSlash rest := by
  induction front with
  | nil => simp [splitSlash]
  | cons char front ih =>
      rw [List.cons_append, splitSlash, splitSlash, ih]
      by_cases isSlash : char = '/'
      · rw [if_pos isSlash, if_pos isSlash, List.cons_append]
      · rw [if_neg isSlash, if_neg isSlash]
        cases splitEq : splitSlash front with
        | nil => exact absurd splitEq (splitSlash_ne_nil front)
        | cons first others => rfl

/-- Whether a text is the part of a path in front of its last name: it is empty or
ends with a slash. -/
def IsFront (front : List Char) : Prop :=
  front = [] ∨ ∃ before, front = before ++ ['/']

/-- A path can be cut in front of its last name. -/
theorem exists_front (path : List Char) :
    ∃ front name, path = front ++ name ∧ IsFront front ∧ '/' ∉ name := by
  by_cases hasSlash : '/' ∈ path
  · rcases List.eq_append_cons_of_mem (List.mem_reverse.2 hasSlash) with
      ⟨name, before, pathEq, noSlash⟩
    refine ⟨before.reverse ++ ['/'], name.reverse, ?_, .inr ⟨before.reverse, rfl⟩, ?_⟩
    · rw [← List.reverse_inj, pathEq]
      simp
    · rw [List.mem_reverse]
      exact noSlash
  · exact ⟨[], path, rfl, .inl rfl, hasSlash⟩

/-- The names in front of the last one do not depend on it. -/
theorem IsFront.splitSlash_append {front name : List Char} (isFront : IsFront front)
    (noSlash : '/' ∉ name) :
    splitSlash (front ++ name) = (splitSlash front).dropLast ++ [name] := by
  rcases isFront with rfl | ⟨before, rfl⟩
  · exact splitSlash_eq_singleton noSlash
  · rw [List.append_assoc, List.singleton_append, Path.splitSlash_append, Path.splitSlash_append,
      splitSlash_eq_singleton noSlash, splitSlash_eq_singleton List.not_mem_nil,
      List.dropLast_concat]

theorem IsFront.names {front : List Char} {path name : String} (isFront : IsFront front)
    (noSlash : '/' ∉ name.toList) (pathEq : path.toList = front ++ name.toList) :
    Path.names path = (splitSlash front).dropLast.map String.ofList ++ [name] := by
  rw [Path.names, pathEq, isFront.splitSlash_append noSlash, List.map_append, List.map_singleton,
    String.ofList_toList]

theorem lastName_ne_empty (path : String) : lastName path ≠ "" := by
  rw [lastName]
  split
  · decide
  · dsimp only
    split
    · decide
    · rename_i notEmpty
      intro isEmpty
      rw [← String.toList_eq_nil_iff, String.toList_ofList, List.reverse_eq_nil_iff] at isEmpty
      exact notEmpty (List.isEmpty_iff.2 isEmpty)

/-- The last name of a path that does not end with a slash. -/
theorem IsFront.lastName {front : List Char} {path name : String} (isFront : IsFront front)
    (noSlash : '/' ∉ name.toList) (pathEq : path.toList = front ++ name.toList)
    (notEmpty : name ≠ "") : Path.lastName path = name := by
  have nameChars : name.toList.reverse ≠ [] :=
    mt (fun isNil => String.toList_eq_nil_iff.1 (List.reverse_eq_nil_iff.1 isNil)) notEmpty
  have pathNotEmpty : path ≠ "" := by
    rintro rfl
    rw [String.toList_empty, eq_comm, List.append_eq_nil_iff, String.toList_eq_nil_iff] at pathEq
    exact notEmpty pathEq.2
  -- Read backwards, the path starts with the name and goes on with a slash, if at all.
  have unslashed : (name.toList.reverse ++ front.reverse).dropWhile (· = '/') =
      name.toList.reverse ++ front.reverse := by
    cases charsEq : name.toList.reverse with
    | nil => exact absurd charsEq nameChars
    | cons char rest =>
        have isChar : char ∈ name.toList := by
          rw [← List.mem_reverse, charsEq]
          exact List.mem_cons_self
        rw [List.cons_append, List.dropWhile_cons_of_neg]
        simpa using ne_of_mem_of_not_mem isChar noSlash
  have taken : (name.toList.reverse ++ front.reverse).takeWhile (· ≠ '/') =
      name.toList.reverse := by
    rw [List.takeWhile_append_of_pos]
    · rcases isFront with rfl | ⟨before, rfl⟩
      · simp
      · simp
    · intro char isChar
      simpa using ne_of_mem_of_not_mem (List.mem_reverse.1 isChar) noSlash
  rw [Path.lastName, if_neg pathNotEmpty]
  simp only [pathEq, List.reverse_append, unslashed, taken]
  rw [if_neg (mt List.isEmpty_iff.1 nameChars), List.reverse_reverse, String.ofList_toList]

theorem toList_join (parent path : String) :
    ∃ front, IsFront front ∧ (join parent path).toList = front ++ path.toList := by
  rw [join]
  split
  · rename_i endsWithSlash
    rcases List.getLast?_eq_some_iff.1 endsWithSlash with ⟨before, parentEq⟩
    exact ⟨parent.toList, .inr ⟨before, parentEq⟩, String.toList_append⟩
  · refine ⟨parent.toList ++ ['/'], .inr ⟨parent.toList, rfl⟩, ?_⟩
    rw [String.toList_append, String.toList_append]
    rfl

end Path

namespace FileTree

/-! ## Entries -/

/-- Something other than a directory is not at the root. -/
theorem ne_root {tree : FileTree} {place : Location}
    (notDirectory : tree.entry? place ≠ some .directory) : place ≠ [] := by
  rintro rfl
  exact notDirectory rfl

theorem not_directory_of_empty {tree : FileTree} {place : Location}
    (empty : tree.entry? place = none) : tree.entry? place ≠ some .directory := by
  rw [empty]
  exact nofun

theorem entry?_of_ne_root (tree : FileTree) {place : Location} (notRoot : place ≠ []) :
    tree.entry? place = tree.entries[place]? :=
  if_neg notRoot

theorem entry?_insert (tree : FileTree) {place : Location} (notRoot : place ≠ [])
    (entry : Entry) (other : Location) :
    FileTree.entry? (tree.insert place entry) other =
      if other = place then some entry else tree.entry? other := by
  by_cases isPlace : other = place
  · subst isPlace
    rw [entry?_of_ne_root _ notRoot, if_pos rfl]
    exact Std.ExtTreeMap.getElem?_insert_self
  · rw [if_neg isPlace]
    by_cases isRoot : other = []
    · subst isRoot
      rfl
    · rw [entry?_of_ne_root _ isRoot, entry?_of_ne_root _ isRoot, insert,
        Std.ExtTreeMap.getElem?_insert]
      simp [Ne.symm isPlace]

/-- Something put at an empty place and taken away again leaves no trace. -/
theorem erase_insert {tree : FileTree} {place : Location} (empty : tree.entry? place = none)
    (entry : Entry) : (tree.insert place entry).erase place = tree := by
  have notRoot : place ≠ [] := ne_root (not_directory_of_empty empty)
  have absent : tree.entries[place]? = none := (tree.entry?_of_ne_root notRoot).symm.trans empty
  rcases tree with ⟨directory, entries⟩
  simp only [insert, erase, mk.injEq, true_and]
  apply Std.ExtTreeMap.ext_getElem?
  intro other
  by_cases isPlace : place = other
  · subst isPlace
    simp [absent]
  · simp [Std.ExtTreeMap.getElem?_erase, Std.ExtTreeMap.getElem?_insert, isPlace]

/-! ## Directories -/

/-- Trees with the same working directory and the same directories.  Their files
may differ. -/
structure SameDirectories (first second : FileTree) : Prop where
  working : first.directory = second.directory
  directory_iff (place : Location) :
    first.entry? place = some .directory ↔ second.entry? place = some .directory

theorem SameDirectories.refl (tree : FileTree) : tree.SameDirectories tree :=
  ⟨rfl, fun _ => Iff.rfl⟩

theorem SameDirectories.symm {first second : FileTree} (same : first.SameDirectories second) :
    second.SameDirectories first :=
  ⟨same.working.symm, fun place => (same.directory_iff place).symm⟩

theorem SameDirectories.trans {first second third : FileTree}
    (firstStep : first.SameDirectories second) (secondStep : second.SameDirectories third) :
    first.SameDirectories third :=
  ⟨firstStep.working.trans secondStep.working, fun place =>
    (firstStep.directory_iff place).trans (secondStep.directory_iff place)⟩

/-- A file in the place of a file or of nothing leaves the directories alone. -/
theorem sameDirectories_insert {tree : FileTree} {place : Location}
    (notDirectory : tree.entry? place ≠ some .directory) (content : Bytes) :
    tree.SameDirectories (tree.insert place (.file content)) := by
  refine ⟨rfl, ?_⟩
  intro other
  rw [entry?_insert tree (ne_root notDirectory)]
  by_cases isPlace : other = place
  · subst isPlace
    simp [notDirectory]
  · rw [if_neg isPlace]

/-- The place that one name leads to from a directory. -/
def stepTo (tree : FileTree) (place : Location) (name : String) :
    Except FileProblem Location :=
  if name = "" || name = "." then
    .ok place
  else if name = ".." then
    if tree.entry? place.dropLast = some .directory then .ok place.dropLast else .error .notFound
  else if name.utf8ByteSize > longestName then
    .error .nameTooLong
  else
    .ok (place ++ [name])

theorem SameDirectories.stepTo_eq {first second : FileTree} (same : first.SameDirectories second)
    (place : Location) (name : String) : first.stepTo place name = second.stepTo place name := by
  simp only [stepTo, same.directory_iff]

/-- Names are followed through directories only, one step for each. -/
theorem follow_cons_of_directory {tree : FileTree} {place : Location}
    (isDirectory : tree.entry? place = some .directory) (name : String) (rest : List String) :
    tree.follow place (name :: rest) =
      (tree.stepTo place name).bind fun next => tree.follow next rest := by
  rw [follow, isDirectory]
  simp only [stepTo]
  split
  · rfl
  · split
    · split
      · rfl
      · rfl
    · split
      · rfl
      · rfl

theorem directory_of_follow_cons {tree : FileTree} {place target : Location} {name : String}
    {rest : List String} (followed : tree.follow place (name :: rest) = .ok target) :
    tree.entry? place = some .directory := by
  rw [follow] at followed
  split at followed
  · contradiction
  · contradiction
  · assumption

theorem follow_append (tree : FileTree) (place : Location) (front rest : List String) :
    tree.follow place (front ++ rest) =
      (tree.follow place front).bind fun middle => tree.follow middle rest := by
  induction front generalizing place with
  | nil => rfl
  | cons name front ih =>
      cases entry : tree.entry? place with
      | none => simp [follow, entry, Except.bind]
      | some found =>
          cases found with
          | file content => simp [follow, entry, Except.bind]
          | directory =>
              rw [List.cons_append, follow_cons_of_directory entry,
                follow_cons_of_directory entry]
              cases tree.stepTo place name with
              | error problem => rfl
              | ok next => exact ih next

/-- Names that can be followed lead to the same place in every tree with the
same directories. -/
theorem SameDirectories.follow_eq_ok {first second : FileTree}
    (same : first.SameDirectories second) {place target : Location} {names : List String}
    (followed : first.follow place names = .ok target) :
    second.follow place names = .ok target := by
  induction names generalizing place with
  | nil => exact followed
  | cons name rest ih =>
      have isDirectory := directory_of_follow_cons followed
      rw [follow_cons_of_directory isDirectory] at followed
      rw [follow_cons_of_directory ((same.directory_iff place).1 isDirectory),
        ← same.stepTo_eq]
      cases stepEq : first.stepTo place name with
      | error problem =>
          rw [stepEq] at followed
          contradiction
      | ok next =>
          rw [stepEq] at followed
          exact ih followed

/-- A path whose text allows it to be followed. -/
structure Followable (path : String) : Prop where
  clean : path.toList.contains '\x00' = false
  notEmpty : path ≠ ""
  short : path.utf8ByteSize ≤ longestPath

theorem locate_of_followable (tree : FileTree) {path : String} (followable : Followable path) :
    tree.locate path =
      tree.follow (if Path.isRooted path then [] else tree.directory) (Path.names path) := by
  rw [locate, if_neg (Bool.eq_false_iff.1 followable.clean), if_neg followable.notEmpty,
    if_neg (Nat.not_lt.2 followable.short)]

theorem followable_of_locate {tree : FileTree} {path : String} {target : Location}
    (located : tree.locate path = .ok target) : Followable path := by
  rw [locate] at located
  split at located
  · contradiction
  · split at located
    · contradiction
    · split at located
      · contradiction
      · rename_i clean notEmpty short
        exact ⟨Bool.eq_false_iff.2 clean, notEmpty, Nat.not_lt.1 short⟩

/-- A path leads to the same place in every tree with the same directories. -/
theorem SameDirectories.locate_eq_ok {first second : FileTree}
    (same : first.SameDirectories second) {path : String} {target : Location}
    (located : first.locate path = .ok target) : second.locate path = .ok target := by
  have followable := followable_of_locate located
  rw [locate_of_followable first followable, same.working] at located
  rw [locate_of_followable second followable]
  exact same.follow_eq_ok located

/-- The last name of a path is looked up in a directory, and the same one in every
tree with the same directories. -/
theorem exists_stepTo_of_follow {tree : FileTree} {base target : Location} {front : List String}
    {last : String} (followed : tree.follow base (front ++ [last]) = .ok target) :
    ∃ middle, tree.entry? middle = some .directory ∧ tree.stepTo middle last = .ok target ∧
      ∀ other name, tree.SameDirectories other →
        other.follow base (front ++ [name]) = tree.stepTo middle name := by
  rw [follow_append] at followed
  cases frontEq : tree.follow base front with
  | error problem =>
      rw [frontEq] at followed
      contradiction
  | ok middle =>
      rw [frontEq] at followed
      have isDirectory := directory_of_follow_cons followed
      have single (other : FileTree) (name : String) (same : tree.SameDirectories other) :
          other.follow middle [name] = tree.stepTo middle name := by
        rw [follow_cons_of_directory ((same.directory_iff middle).1 isDirectory),
          ← same.stepTo_eq]
        cases tree.stepTo middle name with
        | error problem => rfl
        | ok next => rfl
      refine ⟨middle, isDirectory, ?_, ?_⟩
      · rw [← single tree last (.refl tree)]
        exact followed
      · intro other name same
        rw [follow_append, same.follow_eq_ok frontEq]
        exact single other name same

/-- A name of three characters or more is no detour. -/
theorem eq_of_stepTo_of_long {tree : FileTree} {middle target : Location} {name : String}
    (long : 3 ≤ name.length) (stepped : tree.stepTo middle name = .ok target) :
    target = middle ++ [name] := by
  have notShort (short : String) (isShort : short.length < 3) : name ≠ short := by
    rintro rfl
    omega
  rw [stepTo, if_neg (by simp [notShort "" (by decide), notShort "." (by decide)]),
    if_neg (notShort ".." (by decide))] at stepped
  split at stepped
  · contradiction
  · exact (Except.ok.inj stepped).symm

/-- A name that leads to something other than a directory is no detour. -/
theorem eq_of_stepTo_of_not_directory {tree : FileTree} {middle target : Location}
    {name : String} (isDirectory : tree.entry? middle = some .directory)
    (stepped : tree.stepTo middle name = .ok target)
    (notDirectory : tree.entry? target ≠ some .directory) :
    name ≠ "" ∧ target = middle ++ [name] := by
  rw [stepTo] at stepped
  split at stepped
  · cases stepped
    exact absurd isDirectory notDirectory
  · rename_i proper
    refine ⟨fun isEmpty => proper (by simp [isEmpty]), ?_⟩
    split at stepped
    · split at stepped
      · rename_i aboveIsDirectory
        cases stepped
        exact absurd aboveIsDirectory notDirectory
      · contradiction
    · split at stepped
      · contradiction
      · exact (Except.ok.inj stepped).symm

/-! ## The place of the lock file -/

/-- What a path leads to has the last name of the path, unless it is a directory. -/
theorem exists_eq_append_lastName {tree : FileTree} {path : String} {target : Location}
    (located : tree.locate path = .ok target)
    (notDirectory : tree.entry? target ≠ some .directory) :
    ∃ middle, target = middle ++ [Path.lastName path] := by
  rcases Path.exists_front path.toList with ⟨front, name, pathEq, isFront, noSlash⟩
  rw [← String.toList_ofList (l := name)] at pathEq noSlash
  rw [locate_of_followable tree (followable_of_locate located), isFront.names noSlash pathEq]
    at located
  rcases exists_stepTo_of_follow located with ⟨middle, isDirectory, stepped, -⟩
  rcases eq_of_stepTo_of_not_directory isDirectory stepped notDirectory with
    ⟨notEmpty, targetEq⟩
  rw [isFront.lastName noSlash pathEq notEmpty]
  exact ⟨middle, targetEq⟩

theorem exists_eq_append_temporaryName {tree : FileTree} {path suffix : String}
    {place : Location} (named : Output.nameError? path = none) (plain : '/' ∉ suffix.toList)
    (located : tree.locate (Output.temporaryPath path suffix) = .ok place) :
    ∃ middle, place = middle ++ [Output.temporaryName path suffix] := by
  have noSlash : '/' ∉ (Output.temporaryName path suffix).toList := by
    have nameNoSlash : '/' ∉ (Path.lastName path).toList := by
      intro hasSlash
      rw [Output.nameError?, if_pos (List.contains_iff_mem.2 hasSlash)] at named
      exact Option.some_ne_none _ named
    simp [Output.temporaryName, nameNoSlash, plain]
  have long : 3 ≤ (Output.temporaryName path suffix).length := by
    have notEmpty : (Path.lastName path).length ≠ 0 := by
      rw [← String.length_toList, ne_eq, List.length_eq_zero_iff, String.toList_eq_nil_iff]
      exact Path.lastName_ne_empty path
    have dot : ".".length = 1 := by decide
    simp only [Output.temporaryName, String.length_append, dot]
    omega
  rcases Path.toList_join (Path.parent path) (Output.temporaryName path suffix) with
    ⟨front, isFront, pathEq⟩
  rw [locate_of_followable tree (followable_of_locate located), Output.temporaryPath,
    isFront.names noSlash pathEq] at located
  rcases exists_stepTo_of_follow located with ⟨middle, -, stepped, -⟩
  exact ⟨middle, eq_of_stepTo_of_long long stepped⟩

/-- A temporary file does not lie where the path of the output file leads. -/
theorem temporary_ne_target {tree : FileTree} {path suffix : String} {place target : Location}
    (named : Output.nameError? path = none) (plain : '/' ∉ suffix.toList)
    (temporary : tree.locate (Output.temporaryPath path suffix) = .ok place)
    (empty : tree.entry? place = none) (located : tree.locate path = .ok target) :
    place ≠ target := by
  rintro rfl
  rcases exists_eq_append_lastName located (not_directory_of_empty empty) with ⟨middle, placeEq⟩
  rcases exists_eq_append_temporaryName named plain temporary with ⟨other, otherEq⟩
  rw [placeEq] at otherEq
  have nameEq := List.singleton_inj.1 (List.append_inj_right' otherEq rfl)
  have lengthEq := congrArg String.length nameEq
  have dot : ".".length = 1 := by decide
  simp only [Output.temporaryName, String.length_append, dot] at lengthEq
  omega

end FileTree

end GraphCalc
