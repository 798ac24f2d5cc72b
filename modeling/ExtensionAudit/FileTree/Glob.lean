import ExtensionAudit.FileTree.Basic

/-!
Name patterns and the paths they select. In a component a star stands for any text, a question mark
for any character, and brackets for one character of a set; two stars alone stand for any number of
directories. A component without such signs is looked up as it is.
-/

namespace ExtensionAudit

/-- A set of characters between brackets. -/
structure CharacterSet where
  negated : Bool
  ranges : List (Char × Char)
  deriving DecidableEq, Repr

def CharacterSet.holds (set : CharacterSet) (c : Char) : Bool :=
  set.ranges.any (fun range => range.1 ≤ c && c ≤ range.2) != set.negated

/-- A piece of a name pattern. -/
inductive PatternPiece where
  | anyText
  | anyCharacter
  | oneOf (set : CharacterSet)
  | exactly (c : Char)
  deriving DecidableEq, Repr

/-- Divides the inside of brackets at the hyphens that stand for ranges: a hyphen counts if at least
two characters separate it from the one before, and if it does not begin the set. -/
def rangeChunks : Nat → List Char → List Char → List (List Char)
  | _, chunk, [] => [chunk.reverse]
  | 0, chunk, '-' :: rest => chunk.reverse :: rangeChunks 2 [] rest
  | wait, chunk, c :: rest => rangeChunks (wait - 1) (c :: chunk) rest

/-- The chunks with the last one, if it is empty, made the hyphen that it stands for. -/
def settleLastChunk : List (List Char) → List (List Char)
  | [chunk, []] => [chunk ++ ['-']]
  | chunk :: rest => chunk :: settleLastChunk rest
  | [] => []

/-- Whether a range would run backwards from one chunk to the next. -/
def runsBackwards (left right : List Char) : Bool :=
  match left.getLast?, right.head? with
  | some a, some b => b < a
  | _, _ => false

/-- The chunks with every backward range removed together with its ends, the last range first. -/
def dropBackwardRanges : List (List Char) → List (List Char)
  | [] => []
  | left :: rest =>
    match dropBackwardRanges rest with
    | right :: others =>
      if runsBackwards left right then (left.dropLast ++ right.drop 1) :: others
      else left :: right :: others
    | [] => [left]

/-- The characters of the chunks and the ranges between neighbours. A hyphen with nothing before it
is a character of the set. -/
def chunkRanges : List (List Char) → List (Char × Char)
  | [] => []
  | [chunk] => chunk.map fun c => (c, c)
  | left :: right :: rest =>
    let between := match left.getLast?, right.head? with
      | some a, some b => [(a, b)]
      | _, _ => [('-', '-')]
    left.map (fun c => (c, c)) ++ between ++ chunkRanges (right :: rest)

def CharacterSet.parse (inside : List Char) : CharacterSet :=
  let wait := if inside.head? == some '!' then 2 else 1
  let chunks := dropBackwardRanges (settleLastChunk (rangeChunks wait [] inside))
  match chunks with
  | ('!' :: chunk) :: rest => ⟨true, chunkRanges (chunk :: rest)⟩
  | chunks => ⟨false, chunkRanges chunks⟩

/-- The inside of brackets and what follows them. A closing bracket right behind the opening one, or
behind its exclamation mark, belongs to the inside. -/
def bracketInside (cs : List Char) : Option (List Char × List Char) :=
  let sign := match cs with
    | '!' :: _ => ['!']
    | _ => []
  let first := match cs.drop sign.length with
    | ']' :: _ => [']']
    | _ => []
  let start := sign ++ first
  let rest := cs.drop start.length
  match rest.dropWhile (· != ']') with
  | [] => none
  | _ :: after => some (start ++ rest.takeWhile (· != ']'), after)

/-- The pieces of a name pattern. Each step spends one unit of fuel and consumes a character. -/
def patternPieces : Nat → List Char → List PatternPiece
  | 0, _ => []
  | _, [] => []
  | fuel + 1, c :: rest =>
    if c == '*' then .anyText :: patternPieces fuel rest
    else if c == '?' then .anyCharacter :: patternPieces fuel rest
    else if c == '[' then
      match bracketInside rest with
      | some (inside, after) => .oneOf (.parse inside) :: patternPieces fuel after
      | none => .exactly '[' :: patternPieces fuel rest
    else .exactly c :: patternPieces fuel rest

def namePattern (s : String) : List PatternPiece := patternPieces s.toList.length s.toList

def anySuffix (holds : List Char → Bool) : List Char → Bool
  | [] => holds []
  | c :: rest => holds (c :: rest) || anySuffix holds rest

def matchesPieces : List PatternPiece → List Char → Bool
  | [], cs => cs.isEmpty
  | .anyText :: rest, cs => anySuffix (matchesPieces rest) cs
  | _ :: _, [] => false
  | .anyCharacter :: rest, _ :: cs => matchesPieces rest cs
  | .oneOf set :: rest, c :: cs => set.holds c && matchesPieces rest cs
  | .exactly d :: rest, c :: cs => c == d && matchesPieces rest cs

/-- A component of a path pattern. -/
inductive PatternComponent where
  | anyDirectories
  | named (name : String)
  | matching (pieces : List PatternPiece)
  /-- Nothing more, behind a final slash. -/
  | directory
  deriving DecidableEq, Repr

/-- Why a path pattern is refused. -/
inductive PatternFault where
  | fromTop
  | starsInsideComponent
  deriving DecidableEq, Repr

def PatternFault.message : PatternFault → String
  | .fromTop => "Non-relative patterns are unsupported"
  | .starsInsideComponent => "Invalid pattern: '**' can only be an entire path component"

def holdsTwoStars : List Char → Bool
  | '*' :: '*' :: _ => true
  | _ :: rest => holdsTwoStars rest
  | [] => false

def PatternComponent.parse (s : String) : Except PatternFault PatternComponent :=
  let cs := s.toList
  if s == "**" then .ok .anyDirectories
  else if holdsTwoStars cs then .error .starsInsideComponent
  else if cs.any fun c => c == '*' || c == '?' || c == '[' then .ok (.matching (namePattern s))
  else .ok (.named s)

def parsePattern (s : String) : Except PatternFault (List PatternComponent) :=
  let path := Path.parse s
  if path.slashes > 0 then .error .fromTop
  else
    match path.parts.mapM PatternComponent.parse with
    | .error fault => .error fault
    | .ok components =>
      .ok (components ++ (if s.toList.getLast? == some '/' then [.directory] else []))

/-- What a search for a pattern can stumble over. -/
inductive SearchFault where
  | pattern (fault : PatternFault)
  | path (fault : PathFault)
  deriving DecidableEq, Repr

namespace FileTree

/-- The names in a directory, each with whether it is a directory. -/
def children (tree : FileTree) (parts : List String) : List (String × Bool) :=
  tree.entries.filterMap fun (place, entry) =>
    match place.getLast? with
    | some last => if place.dropLast == parts then some (last, entry == .directory) else none
    | none => none

/-- The directories in and below a directory, as components below it. -/
def directoriesBelow (tree : FileTree) (parts : List String) : List (List String) :=
  [] :: tree.entries.filterMap fun (place, entry) =>
    if entry == .directory && parts.isPrefixOf place && place.length > parts.length
    then some (place.drop parts.length) else none

/-- The directory of the tree to which a path leads, if it leads to one. A name or a path that is
too long cannot be looked up. -/
def directoryAt (tree : FileTree) (path : Path) : Except PathFault (Option (List String)) :=
  match tree.target path with
  | .ok (.directory place) => .ok place
  | .error (.refused .nameTooLong path) => .error (.refused .nameTooLong path)
  | _ => .ok none

/-- The paths that a pattern selects from a directory on. -/
def select (tree : FileTree) : List PatternComponent → Path → Except PathFault (List Path)
  | [], path => .ok [path]
  | .directory :: _, path => .ok [path]
  | .named name :: rest, path =>
    let next := path.child name
    match (if rest.isEmpty then tree.pathExists next else tree.isDirectory next) with
    | .error fault => .error fault
    | .ok true => select tree rest next
    | .ok false => .ok []
  | .matching pieces :: rest, path =>
    match tree.directoryAt path with
    | .error fault => .error fault
    | .ok none => .ok []
    | .ok (some parts) =>
      let names := (tree.children parts).filter fun found =>
        (rest.isEmpty || found.2) && matchesPieces pieces found.1.toList
      (names.mapM fun found => select tree rest (path.child found.1)).map List.flatten
  | .anyDirectories :: rest, path =>
    match tree.directoryAt path with
    | .error fault => .error fault
    | .ok none => .ok []
    | .ok (some parts) =>
      let starts := (tree.directoriesBelow parts).map fun below =>
        { path with parts := path.parts ++ below }
      (starts.mapM (select tree rest)).map fun found => found.flatten.eraseDups

/-- The paths at any depth below a directory that a pattern selects; none if the root is no
directory. -/
def search (tree : FileTree) (root : Path) (pattern : String) : Except SearchFault (List Path) :=
  match parsePattern pattern with
  | .error fault => .error (.pattern fault)
  | .ok components =>
    match tree.isDirectory root with
    | .error fault => .error (.path fault)
    | .ok false => .ok []
    | .ok true =>
      match tree.select (.anyDirectories :: components) root with
      | .error fault => .error (.path fault)
      | .ok found => .ok found

end FileTree

end ExtensionAudit
