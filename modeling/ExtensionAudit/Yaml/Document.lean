import ExtensionAudit.Yaml.Lexer
import ExtensionAudit.Yaml.Node
import ExtensionAudit.Yaml.Scalar

/-!
The value of a document. The graph of nodes is walked level by level, so of several faults the
outermost one counts, and on the way every mapping takes in the mappings that it merges. Then the
graph is unfolded into a value. A collection that is found inside itself is not unfolded again; the
two levels below which settings stand do not count as being inside.
-/

namespace ExtensionAudit.Yaml

/-- The state of a walk through a graph: the nodes, the values of the scalars so far, and the
collections that were found, first one first, with how many of them have been opened. -/
structure WalkState where
  nodes : Array Node
  scalars : List (Nat × Value) := []
  found : Array Nat := #[]

/-- A step of a walk, which may come upon a fault. -/
abbrev Walk := StateT WalkState (Except Fault)

namespace Walk

def fail {α : Type} : Walk α := throw .malformed

def node (number : Nat) : Walk Node := do
  match (← get).nodes[number]? with
  | some node => return node
  | none => fail

def entries (number : Nat) : Walk (List (Nat × Nat)) := do
  match (← node number).content with
  | .mapping entries => return entries
  | _ => fail

def items (number : Nat) : Walk (List Nat) := do
  match (← node number).content with
  | .sequence items => return items
  | _ => fail

def setEntries (number : Nat) (entries : List (Nat × Nat)) : Walk Unit := do
  let node ← node number
  modify fun state =>
    { state with nodes := state.nodes.setIfInBounds number ⟨node.tag, .mapping entries⟩ }

/-- Makes the sign for the default value, where it is a key, a text. -/
def settleKey (number : Nat) : Walk Unit := do
  let node ← node number
  if node.tag == .defaultValue then
    modify fun state =>
      { state with nodes := state.nodes.setIfInBounds number ⟨.text, node.content⟩ }

/-- Whether the key of an entry is the sign of merging. -/
def isMerge (entry : Nat × Nat) : Walk Bool := return (← node entry.1).tag == .merge

/-- The first entry that satisfies a condition, and the others. -/
def extract (holds : Nat × Nat → Walk Bool) :
    List (Nat × Nat) → Walk (Option ((Nat × Nat) × List (Nat × Nat)))
  | [] => return none
  | entry :: rest => do
    if ← holds entry then return some (entry, rest)
    else return (← extract holds rest).map fun (found, others) => (found, entry :: others)

mutual

/-- Puts the entries that a mapping merges in front of its own. Each step spends one unit of fuel.
-/
def flatten (number : Nat) : Nat → Walk Unit
  | 0 => fail
  | fuel + 1 => do
    let merged ← mergedEntries number fuel
    let own ← entries number
    setEntries number (merged ++ own)
    own.forM fun entry => settleKey entry.1

/-- The entries that a mapping merges. The signs of merging are taken out of it. -/
def mergedEntries (number : Nat) : Nat → Walk (List (Nat × Nat))
  | 0 => fail
  | fuel + 1 => do
    match ← extract isMerge (← entries number) with
    | none => return []
    | some (sign, others) =>
      setEntries number others
      let merged ← contribution sign.2 fuel
      let later ← mergedEntries number fuel
      return merged ++ later

/-- What the value of a sign of merging contributes: a mapping its entries, and a list of mappings
theirs, the last mapping first. -/
def contribution (number : Nat) : Nat → Walk (List (Nat × Nat))
  | 0 => fail
  | fuel + 1 => do
    match (← node number).content with
    | .scalar _ => fail
    | .mapping _ =>
      flatten number fuel
      entries number
    | .sequence items =>
      let parts ← items.mapM fun item => do
        discard (entries item)
        flatten item fuel
        entries item
      return parts.reverse.flatten

end

def entryCount (node : Node) : Nat :=
  match node.content with
  | .mapping entries => entries.length
  | _ => 0

/-- Fuel for putting merged entries into a mapping. -/
def mergeFuel : Walk Nat :=
  return 4 * (← get).nodes.foldl (fun n node => n + entryCount node) 0 + 4

/-- The text of a node that denotes a scalar: its own, or that of the default value of a mapping. -/
def scalarText (number : Nat) : Nat → Walk String
  | 0 => fail
  | fuel + 1 => do
    match (← node number).content with
    | .scalar text => return text
    | .sequence _ => fail
    | .mapping entries =>
      let isDefault (entry : Nat × Nat) : Walk Bool :=
        return (← node entry.1).tag == .defaultValue
      match ← extract isDefault entries with
      | some (entry, _) => scalarText entry.2 fuel
      | none => fail

def readScalar (number : Nat) : Walk Unit := do
  let node ← node number
  let text ← scalarText number ((← get).nodes.size + 1)
  match node.tag, node.content with
  | .moment, .mapping _ => throw (.scalar .momentOfCollection)
  | tag, _ =>
    let value ← (scalarValue tag text : Except Fault Value)
    modify fun state => { state with scalars := (number, value) :: state.scalars }

/-- Comes to a node: a scalar is read at once, a collection is left for later. -/
def visit (number : Nat) : Walk Unit := do
  let state ← get
  if (← node number).tag.isCollection then
    if !state.found.contains number then
      modify fun state => { state with found := state.found.push number }
  else if (state.scalars.lookup number).isNone then readScalar number

/-- Comes to an entry of a mapping, whose key must not be a collection. -/
def visitEntry (entry : Nat × Nat) : Walk Unit := do
  visit entry.1
  if (← node entry.1).tag.isCollection then fail
  visit entry.2

/-- Comes to an item of a list of pairs: a mapping of one entry, whose key may be anything. -/
def visitPair (number : Nat) : Walk Unit := do
  match ← entries number with
  | [(key, value)] =>
    visit key
    visit value
  | _ => fail

def openCollection (number : Nat) : Walk Unit := do
  match (← node number).tag with
  | .sequence => (← items number).forM visit
  | .orderedMapping | .pairs => (← items number).forM visitPair
  | _ =>
    discard (entries number)
    flatten number (← mergeFuel)
    (← entries number).forM visitEntry

/-- Opens the collections that were found, in order, beginning with the given one. -/
def openAll (next : Nat) : Nat → Walk Unit
  | 0 => pure ()
  | fuel + 1 => do
    match (← get).found[next]? with
    | none => return
    | some number =>
      openCollection number
      openAll (next + 1) fuel

def all (root : Nat) : Walk Unit := do
  visit root
  openAll 0 ((← get).nodes.size + 1)

end Walk

/-- The value of a node after a walk. The path holds the collections in which the node stands, but
for the two outer levels, which `outer` counts down. -/
def unfold (walked : WalkState) (outer : Nat) (path : List Nat) (number : Nat) : Nat → Value
  | 0 => .null
  | fuel + 1 =>
    let inner (child : Nat) : Value :=
      unfold walked (outer - 1) (if outer > 0 then [] else number :: path) child fuel
    let pair (entry : Nat × Nat) : Value × Value := (inner entry.1, inner entry.2)
    let putAll (entries : List (Nat × Nat)) : List (Value × Value) :=
      entries.foldl (fun values entry => Value.put values (inner entry.1) (inner entry.2)) []
    let pairOf (item : Nat) : Value × Value :=
      match walked.nodes[item]? with
      | some ⟨_, .mapping (entry :: _)⟩ => pair entry
      | _ => (.null, .null)
    match walked.nodes[number]? with
    | some ⟨.sequence, .sequence items⟩ =>
      if path.contains number then .enclosing true else .list (items.map inner)
    | some ⟨.mapping, .mapping entries⟩ =>
      if path.contains number then .enclosing false else .mapping (putAll entries)
    | some ⟨.set, .mapping entries⟩ => .set ((putAll entries).map (·.1))
    | some ⟨.orderedMapping, .sequence items⟩ =>
      if path.contains number then .enclosing true else .pairs (items.map pairOf)
    | some ⟨.pairs, .sequence items⟩ =>
      if path.contains number then .enclosing true else .pairs (items.map pairOf)
    | _ => (walked.scalars.lookup number).getD .null

def NodeGraph.value (graph : NodeGraph) : Except Fault Value :=
  match (Walk.all graph.root).run { nodes := graph.nodes } with
  | .error fault => .error fault
  | .ok (_, walked) => .ok (unfold walked 2 [] graph.root (graph.nodes.size + 4))

/-- The value of a document. An empty document denotes nothing. There is no limit to how deep a
document nests: an interpreter's limit on recursion, which ends the reading of a document of a
thousand levels or so, is no part of this. -/
def read (text : List Char) : Except Fault Value :=
  match tokens (Text.unifyNewlines text) with
  | .error fault => .error fault
  | .ok tokens =>
    match NodeGraph.ofTokens? tokens with
    | none => .error .malformed
    | some none => .ok .null
    | some (some graph) => graph.value

end ExtensionAudit.Yaml
