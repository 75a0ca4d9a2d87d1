import RosInterface.Outcome

/-!
# Files below install prefixes

The files below an *install prefix*, a directory, are addressed by the prefix and the names on the
way from there. `Files` is what an index of interfaces needs to know about a file system. It answers
two questions, and each of them on its own: whether there is a regular file at a path, and what
comes of reading from the path. A file that is there may still be one that cannot be read.

## Main definitions

* `Install.SourcePath`: the address of a file, with its text.
* `Install.Files`: the files of a file system, of which finitely many can be read.
* `Install.Files.readText`: what comes of reading a file as a text.
* `Install.Files.ofList`: the files of a list.
-/

namespace RosInterface.Install

/-- The address of a file: an install prefix and the names on the way to the file. -/
structure SourcePath where
  /-- The install prefix. -/
  root : String
  /-- The names of the directories on the way and of the file. -/
  segments : List String
deriving DecidableEq

/-- The path in one text, with single slashes between its parts. A prefix that is empty or ends in
a slash is followed by the first name directly. -/
def SourcePath.text (path : SourcePath) : String :=
  let below := "/".intercalate path.segments
  if path.root.isEmpty || ['/'].isSuffixOf path.root.toList then path.root ++ below
  else path.root ++ "/" ++ below

/-- The files of a file system. -/
structure Files where
  /-- There is a regular file at the path. -/
  isFile : SourcePath → Bool
  /-- What comes of reading from a path: the content, or the reason for a failure. -/
  read : SourcePath → Except String ByteArray
  /-- There are finitely many contents of files, and finitely many names on the way to them. -/
  finite : ∃ (names : List String) (contents : List ByteArray), ∀ path content,
    isFile path = true → read path = .ok content →
      content ∈ contents ∧ ∀ s ∈ path.segments, s ∈ names

/-- The text that a content encodes, or the reason why there is none. -/
def decode (content : ByteArray) : Except String (List Char) :=
  match String.fromUTF8? content with
  | none => .error "stream did not contain valid UTF-8"
  | some text => .ok text.toList

namespace Files

/-- What comes of reading from a path as a text. -/
def readText (files : Files) (path : SourcePath) : Except String (List Char) :=
  files.read path >>= decode

/-- The reason why nothing can be read where there is no file. -/
def missingReason : String :=
  "No such file or directory (os error 2)"

/-- The files of a list of paths, with what comes of reading them. The first entry of a path
counts. -/
def ofList (entries : List (SourcePath × Except String ByteArray)) : Files where
  isFile path := (entries.lookup path).isSome
  read path := (entries.lookup path).getD (.error missingReason)
  finite := by
    refine ⟨entries.flatMap fun entry => entry.1.segments,
      entries.filterMap fun entry => entry.2.toOption, ?_⟩
    intro path content hfile hread
    obtain ⟨found, hfound⟩ := Option.isSome_iff_exists.mp hfile
    rw [hfound, Option.getD_some] at hread
    rw [List.lookup_eq_some_iff] at hfound
    obtain ⟨before, after, hsplit, -⟩ := hfound
    have hmem : (path, found) ∈ entries := hsplit ▸ List.mem_append_right _ List.mem_cons_self
    refine ⟨List.mem_filterMap.mpr ⟨_, hmem, ?_⟩, fun s hs => List.mem_flatMap.mpr ⟨_, hmem, hs⟩⟩
    rw [hread]
    rfl

end Files

end RosInterface.Install
