import SessionTickets.SortedMap

namespace SessionTickets

namespace FilePath

/-- A path with a name behind it. An absolute name replaces the path. -/
def join (path name : String) : String :=
  if path = "" ∨ name.startsWith "/" then name
  else if path.endsWith "/" then path ++ name
  else path ++ "/" ++ name

/-- Whether a part of a path leads to where the path already is. -/
def isIdle (part : String) : Bool :=
  part = "" || part = "."

/-- The parts of a path between its slashes, without those that lead to where the path already is. -/
def parts (path : String) : List String :=
  (path.splitOn "/").filter fun part => !isIdle part

/-- One more part behind others, of which the last comes first. Double points take the part before
them away. At the root they do nothing, and at the start of a relative path they stay. -/
def follow (absolute : Bool) (before : List String) (part : String) : List String :=
  if part = ".." then
    match before with
    | [] => if absolute then [] else [part]
    | last :: rest => if last = ".." then part :: before else rest
  else
    part :: before

/-- The parts of a path once double points have taken the part before them away. -/
def resolved (path : String) : List String :=
  ((parts path).foldl (follow (path.startsWith "/")) []).reverse

def ofParts (absolute : Bool) (parts : List String) : String :=
  (if absolute then "/" else "") ++ "/".intercalate parts

/-- The one text of all paths that lead to the same place: without empty parts and single points, and with
double points resolved. -/
def normal (path : String) : String :=
  ofParts (path.startsWith "/") (resolved path)

/-- The path without its last part, which leads to the directory that holds what the path leads to. -/
def parent? (path : String) : Option String :=
  let absolute := path.startsWith "/"
  match ((path.splitOn "/").drop absolute.toNat).reverse.dropWhile isIdle with
  | [] => none
  | _ :: before => some (ofParts absolute (before.dropWhile isIdle).reverse)

/-- The places that a path passes, with its end. -/
def passed (path : String) : List String :=
  (List.range (parts path).length).map fun n =>
    normal (ofParts (path.startsWith "/") ((parts path).take (n + 1)))

/-- Whether a path can only lead to a directory. -/
def namesDirectory (path : String) : Bool :=
  (path.splitOn "/").getLast?.all fun part => isIdle part || part = ".."

/-- The most bytes that one part of a path may have. -/
def longestName : Nat := 255

/-- The most bytes that a path may have. -/
def longestPath : Nat := 4095

/-- Whether a file system takes a path at all: it is not too long, none of its names is, and the
character zero, which would end it, is not in it. -/
def isUsable (path : String) : Bool :=
  path.utf8ByteSize ≤ longestPath && (parts path).all (·.utf8ByteSize ≤ longestName) &&
    !path.toList.contains '\x00'

end FilePath

/-- What a path leads to. -/
inductive FileNode where
  | file (bytes : List UInt8)
  /-- A file that may be neither read nor written. -/
  | sealedFile
  | directory
deriving DecidableEq

/-- What is known of a file system, by normal paths. -/
abbrev Files := SortedMap FileNode

namespace Files

open FilePath

def node? (files : Files) (path : String) : Option FileNode :=
  if isUsable path then files.find? (normal path) else none

def isFile (files : Files) (path : String) : Bool :=
  match files.node? path with
  | some (.file _) | some .sealedFile => true
  | some .directory | none => false

/-- The bytes of the file that a path leads to, if they may be read. -/
def bytes? (files : Files) (path : String) : Option (List UInt8) :=
  match files.node? path with
  | some (.file bytes) => some bytes
  | _ => none

/-- Makes a directory and those above it, unless the path is not usable or a file is in the way. -/
def createDirectories? (files : Files) (path : String) : Option Files :=
  if !isUsable path || (passed path).any files.isFile then none
  else some ((passed path).foldl (fun files place => files.insert place .directory) files)

/-- Some nodes at their paths, with the directories that hold them. -/
def ofList (nodes : List (String × FileNode)) : Files :=
  nodes.foldl (fun files (path, node) =>
    let held := ((parent? path).bind files.createDirectories?).getD files
    held.insert (normal path) node) .empty

/-- Writes a file, unless the path is not usable or asks for a directory, or what is there does not
allow it. -/
def write? (files : Files) (path : String) (bytes : List UInt8) : Option Files :=
  if !isUsable path || namesDirectory path then none
  else
    match files.node? path with
    | some .directory | some .sealedFile => none
    | some (.file _) | none => some (files.insert (normal path) (.file bytes))

end Files

end SessionTickets
