import ExtensionAudit.Text.Quoted

/-!
Paths in their normal form: the slashes in front, and the components without empty ones and without
single dots. Two dots stay, since what they mean is up to the file system.
-/

namespace ExtensionAudit

def splitAt (separator : Char) (s : String) : List String :=
  (s.toList.splitOn separator).map String.ofList

/-- A path: how many slashes stand in front, and its components. -/
structure Path where
  slashes : Nat := 0
  parts : List String
  deriving DecidableEq, Repr

namespace Path

/-- The number of slashes that a path keeps in front: two if there are exactly two, else at most
one. -/
def leadingSlashes (cs : List Char) : Nat :=
  let count := (cs.takeWhile (· == '/')).length
  if count == 2 then 2 else min count 1

def parse (s : String) : Path where
  slashes := leadingSlashes s.toList
  parts := (splitAt '/' s).filter fun part => part != "" && part != "."

/-- The path with no components, which stands for the working directory. -/
def here : Path := ⟨0, []⟩

def text (path : Path) : String :=
  if path.slashes == 0 && path.parts.isEmpty then "."
  else String.ofList (List.replicate path.slashes '/') ++ String.intercalate "/" path.parts

def name (path : Path) : String := path.parts.getLast?.getD ""

def parent (path : Path) : Path := { path with parts := path.parts.dropLast }

def child (path : Path) (part : String) : Path := { path with parts := path.parts ++ [part] }

/-- The second path seen from the first one; a path with slashes in front stands alone. -/
def join (path other : Path) : Path :=
  if other.slashes > 0 then other else { path with parts := path.parts ++ other.parts }

/-- The part of a name from its last dot on, unless the dot begins or ends the name. -/
def suffixOfName (name : String) : String :=
  let cs := name.toList
  let ending := (cs.reverse.takeWhile (· != '.')).length
  if ending == 0 || ending + 1 ≥ cs.length then ""
  else String.ofList (cs.drop (cs.length - ending - 1))

def suffix (path : Path) : String := suffixOfName path.name

/-- Components with every pair of a name and two dots cancelled. Two dots at the top stay at the
top. -/
def cancelDots : List String → List String → List String
  | stack, [] => stack.reverse
  | stack, part :: rest =>
    if part == ".." then cancelDots (stack.drop 1) rest else cancelDots (part :: stack) rest

/-- What remains of two lists behind the components that they share in front. -/
def withoutCommonFront : List String → List String → List String × List String
  | a :: as, b :: bs => if a == b then withoutCommonFront as bs else (a :: as, b :: bs)
  | as, bs => (as, bs)

/-- The path as seen from a base directory: one step up for each component of the base that it does
not share, then down to the path. -/
def relativeTo (path base : Path) : Path :=
  let (up, down) := withoutCommonFront (cancelDots [] base.parts) (cancelDots [] path.parts)
  ⟨0, up.map (fun _ => "..") ++ down⟩

/-- The components of a path below a root in front of it. -/
def below (path root : Path) : List String := path.parts.drop root.parts.length

end Path

end ExtensionAudit
