import SlotWatch.Failure

/-!
# SlotWatch.Files

What is found at a path, and trees of files in memory.

A path is a sequence of names between slashes.  Empty names and `.` stay where they
are and `..` goes up, but only a directory can be gone through, and a path that
ends in a slash is one of a directory.
-/

namespace SlotWatch

/-- What is found at a path: the bytes of a file, or what is wrong. -/
abbrev Content := Except FileFault ByteArray

namespace Content

/-- The content as a text. -/
def text (c : Content) : Except Failure String :=
  match c with
  | .error fault => .error (.unreadable fault)
  | .ok bytes =>
    match String.fromUTF8? bytes with
    | none => .error (.unreadable .notText)
    | some text => .ok text

end Content

/-- Files by the names that lead to them from the root, the directories gone through
to them, and the directory from which relative paths start.  Of two files in one place
the first counts. -/
structure FileTree where
  files : List (List String × ByteArray) := []
  directories : List (List String) := []
  home : List String := []

namespace FileTree

/-- A name has at most this many bytes. -/
def maxName : Nat := 255

/-- A path has at most this many bytes. -/
def maxPath : Nat := 4095

/-- The parts of a path between its slashes. -/
def parts (path : String) : List String := path.splitOn "/"

/-- The place where a path starts: the root or `home`. -/
def base (home : List String) (path : String) : List String :=
  if path.startsWith "/" then [] else home

/-- The place to which one part of a path leads from a directory. -/
def enter (place : List String) (part : String) : List String :=
  if part = "" ∨ part = "." then place
  else if part = ".." then place.dropLast
  else place ++ [part]

/-- Put a file where a path leads from a place, given the path's parts.  What the path
goes through becomes a directory, also what it leaves again by `..`. -/
def put (t : FileTree) (place : List String) (bytes : ByteArray) : List String → FileTree
  | [] => { t with files := (place, bytes) :: t.files }
  | part :: parts =>
    { t with directories := place :: t.directories }.put (enter place part) bytes parts

/-- The tree of the files put at these paths one after the other. -/
def ofPaths (home : List String) (files : List (String × ByteArray)) : FileTree :=
  files.foldl (fun t (path, bytes) => t.put (base home path) bytes (parts path)) { home }

/-- Whether names lead to a directory: one on the way to `home` or to a directory that
was gone through. -/
def isDirectory (t : FileTree) (place : List String) : Bool :=
  (t.home :: t.directories).any place.isPrefixOf

/-- Follow a path from a place, given its parts. -/
def find (t : FileTree) (place : List String) : List String → Content
  | [] =>
    match t.files.lookup place with
    | some bytes => .ok bytes
    | none => if t.isDirectory place then .error .isADirectory else .error .missing
  | part :: parts =>
    if t.isDirectory place then
      if maxName < part.utf8ByteSize then .error .tooLong
      else t.find (enter place part) parts
    else if (t.files.lookup place).isSome then .error .notADirectory
    else .error .missing

/-- What is found at a path.  Nothing has the empty path, and no path holds a null
character. -/
def read (t : FileTree) (path : String) : Content :=
  if path.contains '\x00' then .error .noPath
  else if path = "" then .error .missing
  else if maxPath < path.utf8ByteSize then .error .tooLong
  else t.find (base t.home path) (parts path)

end FileTree

end SlotWatch
