import ExtensionAudit.Yaml.Tag
import ExtensionAudit.Yaml.Token

/-!
The nodes of a YAML document. A node may be named by an anchor and be referred to again, even from
inside itself, so the nodes form a graph: each has a number, and collections list the numbers of
what they hold. A token sequence that is no document gives no graph.
-/

namespace ExtensionAudit.Yaml

/-- What a node is made of. -/
inductive NodeContent where
  | scalar (text : String)
  | sequence (items : List Nat)
  | mapping (entries : List (Nat × Nat))
  deriving DecidableEq, Repr

/-- A node with its tag. -/
structure Node where
  tag : Tag
  content : NodeContent
  deriving DecidableEq, Repr

/-- The nodes of a document by their numbers, and the outermost one. -/
structure NodeGraph where
  nodes : Array Node
  root : Nat

/-- The state of building: the tokens ahead, the nodes so far, the anchors, and the handles of
tags. -/
structure BuildState where
  ahead : List Token
  nodes : Array Node := #[]
  anchors : List (String × Nat) := []
  handles : List (String × String) := []

/-- A step of building, which may find that the tokens are no document. -/
abbrev Building := StateT BuildState Option

namespace Building

def peek : Building (Option Token) := return (← get).ahead.head?

def next : Building Unit := modify fun state => { state with ahead := state.ahead.drop 1 }

def isAhead (tokens : List Token) : Building Bool := return (← peek).any tokens.contains

def fail {α : Type} : Building α := failure

def addNode (node : Node) : Building Nat := do
  let state ← get
  set { state with nodes := state.nodes.push node }
  return state.nodes.size

def fill (number : Nat) (node : Node) : Building Nat := do
  modify fun state => { state with nodes := state.nodes.setIfInBounds number node }
  return number

/-- Names a node by an anchor. An anchor must not be used twice. -/
def nameNode (anchor : Option String) (number : Nat) : Building Unit := do
  match anchor with
  | none => return
  | some name =>
    let state ← get
    if (state.anchors.lookup name).isSome then fail
    set { state with anchors := (name, number) :: state.anchors }

def emptyNode : Building Nat := addNode ⟨.null, .scalar ""⟩

def tagName (handle : Option String) (suffix : String) : Building String := do
  match handle with
  | none => return suffix
  | some handle =>
    match (← get).handles.lookup handle with
    | some start => return start ++ suffix
    | none => fail

def anchorAhead : Building (Option String) := do
  match ← peek with
  | some (.anchor name) =>
    next
    return some name
  | _ => return none

def tagAhead : Building (Option String) := do
  match ← peek with
  | some (.tag handle suffix) =>
    next
    return some (← tagName handle suffix)
  | _ => return none

def properties : Building (Option String × Option String) := do
  match ← anchorAhead with
  | some anchor => return (some anchor, ← tagAhead)
  | none =>
    let tag ← tagAhead
    let anchor ← if tag.isSome then anchorAhead else pure none
    return (anchor, tag)

/-- The tag of a scalar. Without a tag, a plain scalar is recognised by its form and a quoted one is
a text; the sign for no particular tag has any scalar recognised. -/
def scalarTag (tag : Option String) (text : String) (plain : Bool) : Tag :=
  match tag with
  | none => if plain then .ofPlain text else .text
  | some "!" => .ofPlain text
  | some name => .ofName name

def collectionTag (tag : Option String) (default : Tag) : Tag :=
  match tag with
  | none => default
  | some "!" => default
  | some name => .ofName name

/-- Adds a collection, named by its anchor before its content is built. -/
def collection (anchor : Option String) (node : Building Node) : Building Nat := do
  let number ← addNode ⟨.null, .scalar ""⟩
  nameNode anchor number
  fill number (← node)

mutual

/-- A node ahead. Blocks and lists without an indentation of their own are allowed where they say
so. Each step spends one unit of fuel. -/
def node (block indentless : Bool) : Nat → Building Nat
  | 0 => fail
  | fuel + 1 => do
    match ← peek with
    | some (.alias name) =>
      next
      match (← get).anchors.lookup name with
      | some number => return number
      | none => fail
    | _ =>
      let (anchor, tag) ← properties
      match ← peek with
      | some (.scalar text plain) =>
        next
        let number ← addNode ⟨scalarTag tag text plain, .scalar text⟩
        nameNode anchor number
        return number
      | some .blockEntry =>
        if indentless then
          collection anchor do
            return ⟨collectionTag tag .sequence, .sequence (← indentlessItems fuel)⟩
        else emptyOrFail anchor tag
      | some .flowSequenceStart =>
        next
        collection anchor do
          return ⟨collectionTag tag .sequence, .sequence (← flowItems true fuel)⟩
      | some .flowMappingStart =>
        next
        collection anchor do
          return ⟨collectionTag tag .mapping, .mapping (← flowEntries true fuel)⟩
      | some .blockSequenceStart =>
        if block then
          next
          collection anchor do
            return ⟨collectionTag tag .sequence, .sequence (← blockItems fuel)⟩
        else emptyOrFail anchor tag
      | some .blockMappingStart =>
        if block then
          next
          collection anchor do
            return ⟨collectionTag tag .mapping, .mapping (← blockEntries fuel)⟩
        else emptyOrFail anchor tag
      | _ => emptyOrFail anchor tag

/-- An empty scalar, which needs an anchor or a tag to be a node. -/
def emptyOrFail (anchor tag : Option String) : Building Nat := do
  if anchor.isNone && tag.isNone then fail
  let number ← addNode ⟨scalarTag tag "" true, .scalar ""⟩
  nameNode anchor number
  return number

/-- A node, or nothing before one of the given tokens. -/
def nodeUnless (ends : List Token) (block indentless : Bool) : Nat → Building Nat
  | 0 => fail
  | fuel + 1 => do
    if ← isAhead ends then emptyNode else node block indentless fuel

def valueUnless (ends : List Token) (block indentless : Bool) : Nat → Building Nat
  | 0 => fail
  | fuel + 1 => do
    if (← peek) == some .value then
      next
      nodeUnless ends block indentless fuel
    else emptyNode

def blockItems : Nat → Building (List Nat)
  | 0 => fail
  | fuel + 1 => do
    match ← peek with
    | some .blockEntry =>
      next
      let item ← nodeUnless [.blockEntry, .blockEnd] true false fuel
      return item :: (← blockItems fuel)
    | some .blockEnd =>
      next
      return []
    | _ => fail

/-- The items of a list that has no indentation of its own. -/
def indentlessItems : Nat → Building (List Nat)
  | 0 => fail
  | fuel + 1 => do
    if (← peek) == some .blockEntry then
      next
      let item ← nodeUnless [.blockEntry, .key, .value, .blockEnd] true false fuel
      return item :: (← indentlessItems fuel)
    else return []

def blockEntries : Nat → Building (List (Nat × Nat))
  | 0 => fail
  | fuel + 1 => do
    match ← peek with
    | some .key =>
      next
      let ends : List Token := [.key, .value, .blockEnd]
      let key ← nodeUnless ends true true fuel
      let value ← valueUnless ends true true fuel
      return (key, value) :: (← blockEntries fuel)
    | some .blockEnd =>
      next
      return []
    | _ => fail

/-- The items of a list between brackets. An item may be a mapping of one entry. -/
def flowItems (first : Bool) : Nat → Building (List Nat)
  | 0 => fail
  | fuel + 1 => do
    if (← peek) == some .flowSequenceEnd then
      next
      return []
    if !first then
      if (← peek) == some .flowEntry then next else fail
    match ← peek with
    | some .key =>
      next
      let ends : List Token := [.flowEntry, .flowSequenceEnd]
      let item ← collection none do
        let key ← nodeUnless (.value :: ends) false false fuel
        let value ← valueUnless ends false false fuel
        return ⟨.mapping, .mapping [(key, value)]⟩
      return item :: (← flowItems false fuel)
    | some .flowSequenceEnd =>
      next
      return []
    | _ =>
      let item ← node false false fuel
      return item :: (← flowItems false fuel)

def flowEntries (first : Bool) : Nat → Building (List (Nat × Nat))
  | 0 => fail
  | fuel + 1 => do
    if (← peek) == some .flowMappingEnd then
      next
      return []
    if !first then
      if (← peek) == some .flowEntry then next else fail
    match ← peek with
    | some .key =>
      next
      let ends : List Token := [.flowEntry, .flowMappingEnd]
      let key ← nodeUnless (.value :: ends) false false fuel
      let value ← valueUnless ends false false fuel
      return (key, value) :: (← flowEntries false fuel)
    | some .flowMappingEnd =>
      next
      return []
    | _ =>
      let key ← node false false fuel
      let value ← emptyNode
      return (key, value) :: (← flowEntries false fuel)

end

def usualHandles : List (String × String) := [("!", "!"), ("!!", standardStart)]

/-- The directives ahead. The version is stated at most once and has to be 1, and a handle is
declared at most once. -/
def directives : Nat → Bool → List (String × String) → Building (List (String × String))
  | 0, _, _ => fail
  | fuel + 1, versioned, handles => do
    match ← peek with
    | some (.directive d) =>
      next
      match d with
      | .version major => if versioned || major != 1 then fail else directives fuel true handles
      | .tagHandle handle start =>
        if (handles.lookup handle).isSome then fail
        else directives fuel versioned ((handle, start) :: handles)
      | .other => directives fuel versioned handles
    | _ => return handles ++ usualHandles

def skipDocumentEnds : Building Unit :=
  modify fun state => { state with ahead := state.ahead.dropWhile (· == .documentEnd) }

def atDirective : Building Bool := do
  match ← peek with
  | some (.directive _) => return true
  | _ => return false

def document : Building (Option Nat) := do
  if (← peek).isNone then return none
  let fuel := 4 * (← get).ahead.length + 4
  let explicit := (← atDirective) || (← peek) == some .documentStart
  let handles ← if explicit then directives fuel false [] else pure usualHandles
  modify fun state => { state with handles }
  if explicit then
    if (← peek) == some .documentStart then next else fail
  let bare ← pure (explicit &&
    ((← peek).isNone || (← atDirective) || (← isAhead [.documentStart, .documentEnd])))
  let root ← if bare then emptyNode else node true false fuel
  skipDocumentEnds
  if (← peek).isSome then fail
  return some root

end Building

/-- The graph of a document, or none if it is empty; fails if the tokens are no document. -/
def NodeGraph.ofTokens? (tokens : List Token) : Option (Option NodeGraph) :=
  match Building.document.run { ahead := tokens } with
  | none => none
  | some (root, state) => some (root.map fun root => ⟨state.nodes, root⟩)

end ExtensionAudit.Yaml
