import ExtensionAudit.Path

/-!
A tree of files below a working directory, as a list of its entries. An entry is a directory, a file
with its bytes, a file whose bytes cannot be had, or a symbolic link that leads nowhere; the list
names every directory and may stand in any order. What lies above the working directory is not
known: it counts as a directory in which nothing can be found.
-/

namespace ExtensionAudit

/-- Why the file system refuses an operation. -/
inductive FileError where
  | notFound
  | inputOutput
  | noSuchDevice
  | permissionDenied
  | alreadyExists
  | notDirectory
  | isDirectory
  | nameTooLong
  deriving DecidableEq, Repr

def FileError.number : FileError → Nat
  | .notFound => 2
  | .inputOutput => 5
  | .noSuchDevice => 6
  | .permissionDenied => 13
  | .alreadyExists => 17
  | .notDirectory => 20
  | .isDirectory => 21
  | .nameTooLong => 36

def FileError.reason : FileError → String
  | .notFound => "No such file or directory"
  | .inputOutput => "Input/output error"
  | .noSuchDevice => "No such device or address"
  | .permissionDenied => "Permission denied"
  | .alreadyExists => "File exists"
  | .notDirectory => "Not a directory"
  | .isDirectory => "Is a directory"
  | .nameTooLong => "File name too long"

/-- What stands at a place of a file tree. A file may be there and refuse to be opened. -/
inductive Entry where
  | directory
  | file (content : List UInt8)
  | unreadable (error : FileError)
  | danglingLink
  deriving DecidableEq, Repr

/-- The entries of a file tree, each with its components below the working directory. -/
structure FileTree where
  entries : List (List String × Entry) := []
  deriving DecidableEq, Repr

/-- Why a path cannot be used: the file system refuses it, or it holds a null character. -/
inductive PathFault where
  | refused (error : FileError) (path : Path)
  | nullCharacter
  deriving DecidableEq, Repr

def PathFault.message : PathFault → String
  | .refused error path =>
    "[Errno " ++ toString error.number ++ "] " ++ error.reason ++ ": " ++ Text.quoted path.text
  | .nullCharacter => "embedded null byte"

/-- What a path leads to. A directory is known by its components, or not at all if it lies outside
the tree. -/
inductive Target where
  | directory (parts : Option (List String))
  | file (content : List UInt8)
  | unreadable (error : FileError)
  deriving DecidableEq, Repr

namespace FileTree

/-- The entry at a place. The working directory itself is a directory. -/
def entry? (tree : FileTree) (parts : List String) : Option Entry :=
  if parts.isEmpty then some .directory else tree.entries.lookup parts

def maxNameBytes : Nat := 255

def maxPathBytes : Nat := 4095

/-- One component further from a directory, and on from there. -/
def follow (tree : FileTree) : Option (List String) → List String → Except FileError Target
  | place, [] => .ok (.directory place)
  | none, part :: rest =>
    if part == ".." then follow tree none rest
    else if part.utf8ByteSize > maxNameBytes then .error .nameTooLong
    else .error .notFound
  | some place, part :: rest =>
    if part == ".." then
      follow tree (if place.isEmpty then none else some place.dropLast) rest
    else if part.utf8ByteSize > maxNameBytes then .error .nameTooLong
    else match tree.entry? (place ++ [part]) with
      | some .directory => follow tree (some (place ++ [part])) rest
      | some (.file content) => if rest.isEmpty then .ok (.file content) else .error .notDirectory
      | some (.unreadable error) =>
        if rest.isEmpty then .ok (.unreadable error) else .error .notDirectory
      | some .danglingLink => .error .notFound
      | none => .error .notFound

/-- The directory in which a path begins: none inside the tree for one with slashes in front. -/
def origin (path : Path) : Option (List String) := if path.slashes > 0 then none else some []

def admissible (path : Path) : Except PathFault Unit :=
  if path.parts.any (·.toList.contains '\x00') then .error .nullCharacter
  else if path.text.utf8ByteSize > maxPathBytes then .error (.refused .nameTooLong path)
  else .ok ()

def target (tree : FileTree) (path : Path) : Except PathFault Target :=
  match admissible path with
  | .error fault => .error fault
  | .ok () =>
    match tree.follow (origin path) path.parts with
    | .ok target => .ok target
    | .error error => .error (.refused error path)

/-- An answer about a path, where a path that leads nowhere answers no. -/
def answer (ask : Target → Bool) : Except PathFault Target → Except PathFault Bool
  | .ok target => .ok (ask target)
  | .error (.refused .nameTooLong path) => .error (.refused .nameTooLong path)
  | .error _ => .ok false

/-- Whether the path leads to a file or a directory. -/
def pathExists (tree : FileTree) (path : Path) : Except PathFault Bool :=
  answer (fun _ => true) (tree.target path)

def isDirectory (tree : FileTree) (path : Path) : Except PathFault Bool :=
  answer (fun | .directory _ => true | .file _ | .unreadable _ => false) (tree.target path)

def read (tree : FileTree) (path : Path) : Except PathFault (List UInt8) :=
  match tree.target path with
  | .error fault => .error fault
  | .ok (.directory _) => .error (.refused .isDirectory path)
  | .ok (.unreadable error) => .error (.refused error path)
  | .ok (.file content) => .ok content

def set (tree : FileTree) (parts : List String) (entry : Entry) : FileTree :=
  ⟨tree.entries.filter (·.1 != parts) ++ [(parts, entry)]⟩

/-- The proper prefixes of a list, the empty one left out, shortest first. -/
def properPrefixes (parts : List String) : List (List String) :=
  ((List.range parts.length).drop 1).map fun (n : Nat) => parts.take n

/-- The tree with an entry set at a place and every directory on the way made. -/
def insert (tree : FileTree) (parts : List String) (entry : Entry) : FileTree :=
  let withParents := (properPrefixes parts).foldl
    (fun (tree : FileTree) parts =>
      if (tree.entry? parts).isSome then tree else tree.set parts .directory) tree
  if parts.isEmpty || (entry == .directory && withParents.entry? parts == some .directory)
  then withParents
  else withParents.set parts entry

/-- The tree without a place and what lies below it. -/
def remove (tree : FileTree) (parts : List String) : FileTree :=
  ⟨tree.entries.filter fun entry => !parts.isPrefixOf entry.1⟩

/-- The place where a new entry of a path would stand: `none` outside the tree. An entry that is
already there is given too. -/
def slot (tree : FileTree) (path : Path) :
    Except PathFault (Option (List String) × Option Entry) :=
  match admissible path with
  | .error fault => .error fault
  | .ok () =>
    match path.parts.getLast? with
    | none => .ok (origin path, some .directory)
    | some last =>
      match tree.follow (origin path) path.parts.dropLast with
      | .error error => .error (.refused error path)
      | .ok (.file _) | .ok (.unreadable _) => .error (.refused .notDirectory path)
      | .ok (.directory place) =>
        if last == ".." then .ok (place.map (·.dropLast), some .directory)
        else if last.utf8ByteSize > maxNameBytes then .error (.refused .nameTooLong path)
        else .ok (place.map (· ++ [last]), place.bind fun place => tree.entry? (place ++ [last]))

def makeDirectory (tree : FileTree) (path : Path) : Except PathFault FileTree :=
  match tree.slot path with
  | .error fault => .error fault
  | .ok (_, some _) => .error (.refused .alreadyExists path)
  | .ok (some place, none) => .ok (tree.set place .directory)
  | .ok (none, none) => .ok tree

/-- The outcome of making a directory where one that is there already will do. -/
def settle (tree : FileTree) (path : Path) : Except PathFault FileTree → FileTree × Option PathFault
  | .ok tree => (tree, none)
  | .error .nullCharacter => (tree, some .nullCharacter)
  | .error (.refused error place) =>
    match tree.isDirectory path with
    | .ok true => (tree, none)
    | .ok false => (tree, some (.refused error place))
    | .error fault => (tree, some fault)

/-- Makes the directory of the given components, last one first, and before it those on the way
where one is missing. Those made before a fault stay. -/
def makeDirectories (tree : FileTree) (slashes : Nat) : List String → FileTree × Option PathFault
  | [] => settle tree ⟨slashes, []⟩ (tree.makeDirectory ⟨slashes, []⟩)
  | last :: rest =>
    let path : Path := ⟨slashes, (last :: rest).reverse⟩
    match tree.makeDirectory path with
    | .error (.refused .notFound _) =>
      match makeDirectories tree slashes rest with
      | (tree, some fault) => (tree, some fault)
      | (tree, none) => settle tree path (tree.makeDirectory path)
    | result => settle tree path result

def write (tree : FileTree) (path : Path) (content : List UInt8) : Except PathFault FileTree :=
  match tree.slot path with
  | .error fault => .error fault
  | .ok (_, some .directory) => .error (.refused .isDirectory path)
  | .ok (_, some (.unreadable error)) => .error (.refused error path)
  | .ok (some place, _) => .ok (tree.set place (.file content))
  | .ok (none, _) => .ok tree

end FileTree

end ExtensionAudit
