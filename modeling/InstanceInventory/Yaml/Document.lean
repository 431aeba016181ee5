import InstanceInventory.Yaml.Node
import InstanceInventory.Yaml.Value

/-! # YAML documents

* `flatten`: replaces the merges of a mapping by what they merge into it.
* `Construction.part`: what a node says. A collection gets its place at once and its parts later, so
  that its parts can refer to it.
* `Graph.value`: what a document says.
* `load`: what a text with at most one document says.

Collections are filled in the order in which they were met, which decides what is found wrong first.
-/

namespace InstanceInventory.Yaml
set_option autoImplicit false

/-! ## Merges -/

/-- Merging may fail, and changes the nodes. -/
abbrev MergeM := StateT Nodes (Except Fault)

def nodeAt (nodes : Nodes) (n : Nat) : Node :=
  nodes[n]?.getD ⟨.null, .scalar ""⟩

def pairsAt (nodes : Nodes) (n : Nat) : List (Nat × Nat) :=
  match (nodeAt nodes n).content with
  | .mapping pairs => pairs
  | _ => []

def setPairs (n : Nat) (pairs : List (Nat × Nat)) : MergeM Unit :=
  modify fun nodes => nodes.modify n fun node => { node with content := .mapping pairs }

/-- The first merge of a mapping: the pairs before it, what it merges, and the pairs after it. -/
def splitMerge? (nodes : Nodes) :
    List (Nat × Nat) → Option (List (Nat × Nat) × Nat × List (Nat × Nat))
  | [] => none
  | p :: ps =>
    if (nodeAt nodes p.1).tag == .merge then some ([], p.2, ps)
    else (splitMerge? nodes ps).map fun r => (p :: r.1, r.2)

/-- Makes the keys of default values in a mapping into texts. -/
def nameDefaults (n : Nat) : MergeM Unit :=
  modify fun nodes => (pairsAt nodes n).foldl (fun nodes p =>
    nodes.modify p.1 fun k => if k.tag == .defaultValue then { k with tag := .text } else k) nodes

/-- Replaces the merges of a mapping by what they merge, which comes before its own pairs; `merged`
holds what has been merged so far. Each round takes a merge out of the document. -/
def flattenFrom (n : Nat) : Nat → List (Nat × Nat) → MergeM Unit
  | 0, merged => do
    setPairs n (merged ++ pairsAt (← get) n)
  | rounds + 1, merged => do
    let nodes ← get
    match splitMerge? nodes (pairsAt nodes n) with
    | none =>
      setPairs n (merged ++ pairsAt nodes n)
      nameDefaults n
    | some (before, source, after) =>
      setPairs n (before ++ after)
      let more ← match (nodeAt nodes source).content with
        | .mapping _ =>
          flattenFrom source rounds []
          pure (pairsAt (← get) source)
        | .sequence items =>
          let parts ← items.mapM fun i => do
            match (nodeAt nodes i).content with
            | .mapping _ =>
              flattenFrom i rounds []
              return pairsAt (← get) i
            | _ => throw Fault.malformed
          pure parts.reverse.flatten
        | .scalar _ => throw .malformed
      flattenFrom n rounds (merged ++ more)

def mergeCount (nodes : Nodes) : Nat :=
  ((nodes.toList.flatMap fun n => match n.content with
    | .mapping pairs => pairs
    | _ => []).filter fun p => (nodeAt nodes p.1).tag == .merge).length

/-- Replaces the merges of a mapping by what they merge into it. -/
def flatten (n : Nat) : MergeM Unit := do
  flattenFrom n (mergeCount (← get) + 1) []

/-! ## Construction -/

/-- The state of construction: the nodes, what has been made of each, the collections, and the nodes
whose collections have not been filled. -/
structure Construction where
  nodes : Nodes
  made : List (Nat × Part)
  store : Collections
  pending : List Nat

abbrev MakeM := StateT Construction (Except Fault)

/-- The text of a node that should be a scalar: its own, or that of a default value in a mapping. -/
def scalarText (nodes : Nodes) : Nat → Nat → Except Fault String
  | 0, _ => .error (.scalar .endless)
  | rounds + 1, n =>
    match (nodeAt nodes n).content with
    | .scalar text => .ok text
    | .sequence _ => .error .malformed
    | .mapping pairs =>
      match pairs.find? fun p => (nodeAt nodes p.1).tag == .defaultValue with
      | some p => scalarText nodes rounds p.2
      | none => .error .malformed

/-- The scalar of a tag that a node says. A date or time must be a scalar itself. -/
def readScalar (nodes : Nodes) (n : Nat) (node : Node) : Except Fault Scalar :=
  if node.tag.isScalar then do
    let text ← scalarText nodes (nodes.size + 1) n
    if node.tag == .moment && node.content matches .mapping _ then throw (.scalar .notScalar)
    Scalar.read node.tag text
  else .error .malformed

namespace Construction

/-- The collection of a tag before it is filled. -/
def emptyOf? : Tag → Option Collection
  | .sequence | .orderedPairs => some (.list [])
  | .set => some (.set [])
  | .mapping => some (.mapping [])
  | _ => none

def part (n : Nat) : MakeM Part := do
  let c ← get
  match c.made.lookup n with
  | some p => return p
  | none =>
    let node := nodeAt c.nodes n
    match emptyOf? node.tag with
    | some empty =>
      let p := Part.place c.store.size
      set { c with
        made := (n, p) :: c.made, store := c.store.push empty, pending := n :: c.pending }
      return p
    | none =>
      let s ← readScalar c.nodes n node
      modify fun c => { c with made := (n, .scalar s) :: c.made }
      return .scalar s

/-- The entries of a mapping, whose keys must be scalars. -/
def entries : List (Nat × Nat) → MakeM (List (Scalar × Part))
  | [] => return []
  | (k, v) :: rest => do
    match ← part k with
    | .place _ => throw .malformed
    | .scalar key =>
      let value ← part v
      return (key, value) :: (← entries rest)

/-- The entries of the mapping of a node, each key once. -/
def mappingEntries (n : Nat) : MakeM (List (Scalar × Part)) := do
  let c ← get
  match (nodeAt c.nodes n).content with
  | .mapping _ =>
    let (_, nodes) ← (flatten n).run c.nodes
    set { c with nodes }
    let es ← entries (pairsAt nodes n)
    return es.foldl (fun es e => Value.put e.1 e.2 es) []
  | _ => throw .malformed

/-- The pair in a mapping of one, which is put into the store. -/
def orderedPair (n : Nat) : MakeM Part := do
  match (nodeAt (← get).nodes n).content with
  | .mapping [(k, v)] =>
    let first ← part k
    let second ← part v
    let c ← get
    set { c with store := c.store.push (.pair first second) }
    return .place c.store.size
  | _ => throw .malformed

def contents (n : Nat) : MakeM Collection := do
  let node := nodeAt (← get).nodes n
  match node.tag with
  | .set => return .set ((← mappingEntries n).map Prod.fst)
  | .mapping => return .mapping (← mappingEntries n)
  | tag =>
    match node.content with
    | .sequence items =>
      return .list (← items.mapM (if tag == .sequence then part else orderedPair))
    | _ => throw .malformed

/-- Fills the collections of nodes, in order. -/
def fillAll : List Nat → MakeM Unit
  | [] => return
  | n :: ns => do
    let filled ← contents n
    match (← get).made.lookup n with
    | some (.place i) => modify fun c => { c with store := c.store.set! i filled }
    | _ => return
    fillAll ns

/-- Fills all collections, those that are met on the way after the others. Each node is filled
once. -/
def finish : Nat → MakeM Unit
  | 0 => return
  | rounds + 1 => do
    match (← get).pending.reverse with
    | [] => return
    | ns =>
      modify fun c => { c with pending := [] }
      fillAll ns
      finish rounds

end Construction

def Graph.value (g : Graph) : Except Fault Value := do
  let make : MakeM Part := do
    let p ← Construction.part g.top
    Construction.finish (g.nodes.size + 1)
    return p
  let (part, c) ← make.run ⟨g.nodes, [], #[], []⟩
  return { part, store := c.store }

/-- What a text says; a text without a document says nothing. -/
def load (text : String) : Except Fault Value := do
  match ← Graph.ofText? text with
  | some g => g.value
  | none => return .null

end InstanceInventory.Yaml
