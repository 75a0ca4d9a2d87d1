import RosInterface.Table
import RosInterface.Install.Files

/-!
# Directory trees

A directory tree held in memory. A relative path is walked from the top of the tree, name by name:
every name on the way must lead to a directory, `.` and an empty name stay in the directory, and
`..` goes back to the one around it. The last name must be the name of a file. An absolute path, a
path that leaves the tree and one that is too long lead nowhere.

## Main definitions

* `Install.FileTree`: directories and files.
* `Install.FileTree.place?`: the place that the names in a path lead to.
* `Install.FileTree.makeDirectory`, `Install.FileTree.write`, `Install.FileTree.remove`: changes.
* `Install.FileTree.files`: the regular files of a tree.
-/

namespace RosInterface.Install

/-- What stands at a place of a directory tree. -/
inductive FileTree.Item where
  /-- A directory. -/
  | directory
  /-- A regular file. -/
  | file (content : ByteArray)

/-- Directories and files. -/
structure FileTree where
  /-- What stands at each place below the top. A place is given by the names from there up to the
  top. -/
  items : Table (List String) FileTree.Item

namespace FileTree

/-- The tree without anything but its top. -/
def empty : FileTree :=
  ⟨Table.empty⟩

/-- What stands at a place. The top is a directory. -/
def item? (tree : FileTree) : List String → Option Item
  | [] => some .directory
  | place => tree.items.get? place

/-! ### Names and paths -/

/-- The greatest number of bytes in a name. -/
def maxNameSize : Nat :=
  255

/-- The greatest number of bytes in a path. -/
def maxPathSize : Nat :=
  4095

/-- The name stands for the directory that it is looked up in. -/
def isSelf (name : String) : Bool :=
  name == "" || name == "."

/-- The name may be that of a directory or of a file. -/
def isName (name : String) : Bool :=
  !isSelf name && name != ".." && !name.toList.contains '\x00' &&
    decide (name.utf8ByteSize ≤ maxNameSize)

/-- A path with this text leads nowhere, whatever is in the tree. -/
def isForeign (path : String) : Bool :=
  ['/'].isPrefixOf path.toList || decide (maxPathSize < path.utf8ByteSize)

/-- The names in a path, with the empty ones. -/
def namesOf (path : String) : List String :=
  (path.toList.splitOn '/').map String.ofList

/-- The names of the directories on the way to what a path leads to. -/
def wayOf (path : String) : List String :=
  ((namesOf path).filter fun name => !isSelf name).dropLast

/-- The place that one more name leads to, whatever stands there. -/
def advance? (place : List String) (name : String) : Option (List String) :=
  if isSelf name then some place
  else if name = ".." then place.tail?
  else some (name :: place)

/-- The place of the directory that names lead to from a directory. -/
def directoryFrom? (tree : FileTree) (place : List String) : List String → Option (List String)
  | [] => some place
  | name :: rest =>
    match advance? place name with
    | none => none
    | some next =>
      match tree.item? next with
      | some .directory => tree.directoryFrom? next rest
      | _ => none

/-- The place that names lead to from the top, whatever stands there. All names but the last lead
to directories. -/
def place? (tree : FileTree) (names : List String) : Option (List String) :=
  match names.getLast? with
  | none => none
  | some name =>
    if isName name then (tree.directoryFrom? [] names.dropLast).map (name :: ·) else none

/-! ### Changes -/

/-- Makes the directories that names lead through from a directory, as far as no file is in the
way. -/
def makeDirectories (tree : FileTree) (place : List String) : List String → FileTree
  | [] => tree
  | name :: rest =>
    match advance? place name with
    | none => tree
    | some next =>
      match tree.item? next with
      | some .directory => tree.makeDirectories next rest
      | some (.file _) => tree
      | none =>
        if isName name then makeDirectories ⟨tree.items.insert next .directory⟩ next rest
        else tree

/-- The tree with a directory at a path, and directories on the way there. -/
def makeDirectory (tree : FileTree) (path : String) : FileTree :=
  if isForeign path then tree else tree.makeDirectories [] (namesOf path)

/-- The tree with a file at a path, and directories on the way there. A directory is not replaced
by a file. -/
def write (tree : FileTree) (path : String) (content : ByteArray) : FileTree :=
  if isForeign path then tree
  else
    let tree := tree.makeDirectories [] (wayOf path)
    match tree.place? (namesOf path) with
    | none => tree
    | some place =>
      match tree.item? place with
      | some .directory => tree
      | _ => ⟨tree.items.insert place (.file content)⟩

/-- The tree without the file at a path. -/
def remove (tree : FileTree) (path : String) : FileTree :=
  if isForeign path then tree
  else
    match tree.place? (namesOf path) with
    | none => tree
    | some place =>
      match tree.item? place with
      | some (.file _) => ⟨tree.items.erase place⟩
      | _ => tree

/-! ### Files -/

/-- The content of the regular file that names lead to from the top. -/
def contentOf? (tree : FileTree) (names : List String) : Option ByteArray :=
  match tree.place? names with
  | none => none
  | some place =>
    match tree.item? place with
    | some (.file content) => some content
    | _ => none

/-- The content of the regular file at a path. -/
def content? (tree : FileTree) (path : SourcePath) : Option ByteArray :=
  if isForeign path.text then none
  else tree.contentOf? (namesOf path.root ++ path.segments)

/-! ### A tree has finitely many files -/

/-- The names that may stand in a path to a file of a tree. -/
def knownNames (tree : FileTree) : List String :=
  "" :: "." :: ".." :: tree.items.keys.flatten

/-- The contents of the files of a tree. -/
def contents (tree : FileTree) : List ByteArray :=
  tree.items.entries.filterMap fun
    | (_, .file content) => some content
    | _ => none

theorem mem_contents {tree : FileTree} {place : List String} {content : ByteArray}
    (h : tree.item? place = some (.file content)) : content ∈ tree.contents := by
  cases place with
  | nil => cases h
  | cons name place => exact List.mem_filterMap.mpr ⟨_, Table.mem_entries_of_get? h, rfl⟩

theorem mem_knownNames {tree : FileTree} {place : List String} {item : Item} {name : String}
    (h : tree.item? (name :: place) = some item) : name ∈ tree.knownNames := by
  have hk := Table.mem_keys_of_get? h
  simp only [knownNames, List.mem_cons]
  exact .inr (.inr (.inr (List.mem_flatten.mpr ⟨_, hk, List.mem_cons_self⟩)))

theorem mem_knownNames_of_advance? {tree : FileTree} {place next : List String} {item : Item}
    {name : String} (ha : advance? place name = some next) (h : tree.item? next = some item) :
    name ∈ tree.knownNames := by
  rw [advance?] at ha
  split at ha
  · rename_i hs
    rw [isSelf, Bool.or_eq_true, beq_iff_eq, beq_iff_eq] at hs
    rcases hs with rfl | rfl <;> simp [knownNames]
  · split at ha
    · rename_i hn
      simp [knownNames, hn]
    · cases ha
      exact mem_knownNames h

theorem mem_knownNames_of_directoryFrom? {tree : FileTree} {place names directory : List String}
    (h : tree.directoryFrom? place names = some directory) : ∀ s ∈ names, s ∈ tree.knownNames := by
  fun_induction directoryFrom? tree place names with
  | case1 => simp
  | case2 => cases h
  | case3 place name rest next ha hi ih =>
    exact List.forall_mem_cons.mpr ⟨mem_knownNames_of_advance? ha hi, ih h⟩
  | case4 => cases h

theorem of_contentOf? {tree : FileTree} {names : List String} {content : ByteArray}
    (h : tree.contentOf? names = some content) :
    content ∈ tree.contents ∧ ∀ s ∈ names, s ∈ tree.knownNames := by
  rw [contentOf?] at h
  split at h
  · cases h
  · rename_i place hp
    split at h
    · rename_i content' hi
      cases h
      refine ⟨mem_contents hi, ?_⟩
      rw [place?] at hp
      split at hp
      · cases hp
      · rename_i name hn
        split at hp
        · obtain ⟨way, rfl⟩ := List.getLast?_eq_some_iff.mp hn
          obtain ⟨directory, hd, rfl⟩ := Option.map_eq_some_iff.mp hp
          rw [List.dropLast_concat] at hd
          intro s hs
          rcases List.mem_append.mp hs with hs | hs
          · exact mem_knownNames_of_directoryFrom? hd s hs
          · exact List.mem_singleton.mp hs ▸ mem_knownNames hi
        · cases hp
    · cases h

/-- The regular files of a tree. All of them can be read. -/
def files (tree : FileTree) : Files where
  isFile path := (tree.content? path).isSome
  read path :=
    match tree.content? path with
    | some content => .ok content
    | none => .error Files.missingReason
  finite := by
    refine ⟨tree.knownNames, tree.contents, fun path content _ hread => ?_⟩
    split at hread
    · rename_i found h
      obtain rfl := Except.ok.inj hread
      rw [content?] at h
      split at h
      · cases h
      · exact ⟨(of_contentOf? h).1, fun s hs =>
          (of_contentOf? h).2 s (List.mem_append_right _ hs)⟩
    · cases hread

end FileTree

end RosInterface.Install
