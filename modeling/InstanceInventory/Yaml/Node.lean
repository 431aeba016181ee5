import InstanceInventory.Yaml.Tag
import InstanceInventory.Yaml.Token

/-! # YAML nodes

* `Node`: a scalar, a sequence or a mapping, with its tag. Nodes stand for each other by their
  numbers, so that an alias is the node that it names, and a node can hold itself.
* `node`: reads a node from a scan.
* `Graph.ofText?`: the nodes of a text of at most one document.

A node is named before its parts are read, so the parts can refer to it.
-/

namespace InstanceInventory.Yaml
set_option autoImplicit false

/-- What a node holds: a text, or other nodes by their numbers. -/
inductive Content where
  | scalar (text : String)
  | sequence (items : List Nat)
  | mapping (pairs : List (Nat × Nat))
  deriving Repr, Inhabited

/-- A part of a document. -/
structure Node where
  tag : Tag
  content : Content
  deriving Repr, Inhabited

abbrev Nodes := Array Node

/-- A document: its nodes, and the one that holds the others. -/
structure Graph where
  nodes : Nodes
  top : Nat

/-! ## Reading -/

/-- The state of reading: the scan, the nodes read, those that have names, and the tag handles. -/
structure Reader where
  scan : Scan
  nodes : Nodes
  anchors : List (String × Nat)
  handles : List (String × String)

abbrev ReadM := StateT Reader (Except Fault)

namespace ReadM

def peek? : ReadM (Option Token) := do
  let r ← get
  let scan ← r.scan.fill
  set { r with scan }
  return scan.queue.head?

def skip : ReadM Unit :=
  modify fun r => { r with scan := r.scan.next }

/-- Whether the next token satisfies a predicate; the end of the text does not. -/
def isNext (p : Token → Bool) : ReadM Bool := do
  return (← peek?).any p

def tryTake (t : Token) : ReadM Bool := do
  if ← isNext (· == t) then
    skip
    return true
  else return false

def expect (t : Token) : ReadM Unit := do
  if !(← tryTake t) then throw Fault.malformed

/-- The name that the next token gives to a node. -/
def anchor? : ReadM (Option String) := do
  match ← peek? with
  | some (.anchor name) =>
    skip
    return some name
  | _ => return none

/-- The tag that the next token gives to a node, as its handle and the rest. -/
def tag? : ReadM (Option (Option String × String)) := do
  match ← peek? with
  | some (.tag handle suffix) =>
    skip
    return some (handle, suffix)
  | _ => return none

def fullTag : Option (Option String × String) → ReadM (Option String)
  | none => return none
  | some (none, suffix) => return some suffix
  | some (some handle, suffix) => do
    match (← get).handles.lookup handle with
    | some lead => return some (lead ++ suffix)
    | none => throw .malformed

/-- The name and the tag of a node, in either order. -/
def properties : ReadM (Option String × Option String) := do
  match ← anchor? with
  | some name =>
    let tag ← tag?
    return (some name, ← fullTag tag)
  | none =>
    match ← tag? with
    | some tag =>
      let name ← anchor?
      return (name, ← fullTag (some tag))
    | none => return (none, none)

/-- A new node, which gets a name if one is given; a name is given once. -/
def add (anchor : Option String) (tag : Tag) (content : Content) : ReadM Nat := do
  let r ← get
  let n := r.nodes.size
  match anchor with
  | none => set { r with nodes := r.nodes.push ⟨tag, content⟩ }
  | some a =>
    if (r.anchors.lookup a).isSome then throw Fault.malformed
    set { r with nodes := r.nodes.push ⟨tag, content⟩, anchors := (a, n) :: r.anchors }
  return n

/-- Puts the content into a node whose parts have been read. -/
def fillNode (n : Nat) (content : Content) : ReadM Unit :=
  modify fun r => { r with nodes := r.nodes.modify n fun node => { node with content } }

/-- A scalar. One with quotes and no tag is a text. -/
def addScalar (anchor tag : Option String) (text : String) (plain : Bool) : ReadM Nat :=
  let tag := match tag with
    | none => if plain then Tag.ofPlain text else .text
    | some t => if t == "!" then Tag.ofPlain text else Tag.ofName t
  add anchor tag (.scalar text)

def addEmpty : ReadM Nat :=
  addScalar none none "" true

def collectionTag (tag : Option String) (standard : Tag) : Tag :=
  match tag with
  | none => standard
  | some t => if t == "!" then standard else Tag.ofName t

/-- A sequence, before its items are read. -/
def addSequence (anchor tag : Option String) : ReadM Nat :=
  add anchor (collectionTag tag .sequence) (.sequence [])

/-- A mapping, before its pairs are read. -/
def addMapping (anchor tag : Option String) : ReadM Nat :=
  add anchor (collectionTag tag .mapping) (.mapping [])

end ReadM

open ReadM

/-! ## The ends of parts -/

/-- Whether a token ends an item of a block sequence that has no node. -/
def endsBlockItem (t : Token) : Bool :=
  t == .blockEntry || t == .blockEnd

/-- Whether a token ends a key or a value of a block mapping that has no node. -/
def endsBlockPart (t : Token) : Bool :=
  t == .key || t == .value || t == .blockEnd

/-- Whether a token ends an item, without a node, of a sequence at the indentation of its key. -/
def endsPlainItem (t : Token) : Bool :=
  t == .blockEntry || endsBlockPart t

/-- Whether a token ends a value, without a node, of a pair in a flow collection that a token
closes. -/
def endsFlowValue (close : Token) (t : Token) : Bool :=
  t == .flowEntry || t == close

/-- Whether a token ends a key, without a node, of a pair in a flow collection that a token
closes. -/
def endsFlowKey (close : Token) (t : Token) : Bool :=
  t == .value || endsFlowValue close t

mutual

/-- The node at the head of the scan. In a block context block collections may begin, and under a
key a sequence that is not indented. -/
def node (block indentless : Bool) : Nat → ReadM Nat
  | 0 => throw .malformed
  | rounds + 1 => do
    match ← peek? with
    | some (.alias a) =>
      skip
      match (← get).anchors.lookup a with
      | some n => return n
      | none => throw .malformed
    | _ =>
      let (anchor, tag) ← properties
      match ← peek? with
      | some (.scalar text plain) =>
        skip
        addScalar anchor tag text plain
      | some .flowSequenceStart =>
        let n ← addSequence anchor tag
        skip
        fillNode n (.sequence (← flowItems true rounds))
        return n
      | some .flowMappingStart =>
        let n ← addMapping anchor tag
        skip
        fillNode n (.mapping (← flowPairs true rounds))
        return n
      | t =>
        if indentless && t == some .blockEntry then
          let n ← addSequence anchor tag
          fillNode n (.sequence (← plainItems rounds))
          return n
        else if block && t == some .blockSequenceStart then
          let n ← addSequence anchor tag
          skip
          fillNode n (.sequence (← blockItems rounds))
          return n
        else if block && t == some .blockMappingStart then
          let n ← addMapping anchor tag
          skip
          fillNode n (.mapping (← blockPairs rounds))
          return n
        else if (anchor.or tag).isSome then addScalar anchor tag "" true
        else throw .malformed

/-- A node, or one without characters before a token that ends its place. -/
def nodeUnless (ends : Token → Bool) (block indentless : Bool) : Nat → ReadM Nat
  | 0 => throw .malformed
  | rounds + 1 => do
    if ← isNext ends then addEmpty else node block indentless rounds

def blockItems : Nat → ReadM (List Nat)
  | 0 => throw .malformed
  | rounds + 1 => do
    if ← tryTake .blockEntry then
      let n ← nodeUnless endsBlockItem true false rounds
      return n :: (← blockItems rounds)
    else
      expect .blockEnd
      return []

/-- The items of a sequence that stands at the indentation of its key. -/
def plainItems : Nat → ReadM (List Nat)
  | 0 => throw .malformed
  | rounds + 1 => do
    if ← tryTake .blockEntry then
      let n ← nodeUnless endsPlainItem true false rounds
      return n :: (← plainItems rounds)
    else return []

def blockPairs : Nat → ReadM (List (Nat × Nat))
  | 0 => throw .malformed
  | rounds + 1 => do
    if ← tryTake .key then
      let k ← nodeUnless endsBlockPart true true rounds
      let v ← if ← tryTake .value then nodeUnless endsBlockPart true true rounds else addEmpty
      return (k, v) :: (← blockPairs rounds)
    else
      expect .blockEnd
      return []

/-- The rest of a pair in a flow collection that a token closes, after the mark of the key. -/
def flowPair (close : Token) : Nat → ReadM (Nat × Nat)
  | 0 => throw .malformed
  | rounds + 1 => do
    let k ← nodeUnless (endsFlowKey close) false false rounds
    let v ← if ← tryTake .value then nodeUnless (endsFlowValue close) false false rounds
      else addEmpty
    return (k, v)

/-- The items of a flow sequence; a pair without braces is a mapping of its own. -/
def flowItems (first : Bool) : Nat → ReadM (List Nat)
  | 0 => throw .malformed
  | rounds + 1 => do
    if ← tryTake .flowSequenceEnd then return []
    else
      if !first then expect .flowEntry
      if ← tryTake .flowSequenceEnd then return []
      else
        let n ← if ← tryTake .key then do
            let n ← addMapping none none
            fillNode n (.mapping [← flowPair .flowSequenceEnd rounds])
            pure n
          else node false false rounds
        return n :: (← flowItems false rounds)

def flowPairs (first : Bool) : Nat → ReadM (List (Nat × Nat))
  | 0 => throw .malformed
  | rounds + 1 => do
    if ← tryTake .flowMappingEnd then return []
    else
      if !first then expect .flowEntry
      if ← tryTake .flowMappingEnd then return []
      else
        let pair ← if ← tryTake .key then flowPair .flowMappingEnd rounds
          else do
            let k ← node false false rounds
            pure (k, ← addEmpty)
        return pair :: (← flowPairs false rounds)

end

/-! ## Documents -/

def defaultHandles : List (String × String) :=
  [("!", "!"), ("!!", "tag:yaml.org,2002:")]

/-- Reads the directives before a document; `version` tells whether one has named the version. -/
def directives (version : Bool) (handles : List (String × String)) :
    Nat → ReadM (List (String × String))
  | 0 => throw .malformed
  | rounds + 1 => do
    match ← peek? with
    | some (.versionDirective major) =>
      skip
      if version || major != 1 then throw .malformed
      directives true handles rounds
    | some (.tagDirective handle lead) =>
      skip
      if (handles.lookup handle).isSome then throw .malformed
      directives version ((handle, lead) :: handles) rounds
    | some .otherDirective =>
      skip
      directives version handles rounds
    | _ => return handles

def skipDocumentEnds : Nat → ReadM Unit
  | 0 => throw .malformed
  | rounds + 1 => do
    if ← tryTake .documentEnd then skipDocumentEnds rounds

/-- Reads the beginning of a document that is marked; `false` if the text is at its end. -/
def documentBegins (rounds : Nat) : ReadM Bool := do
  skipDocumentEnds rounds
  match ← peek? with
  | none => return false
  | some _ =>
    let handles ← directives false [] rounds
    expect .documentStart
    let defaults := defaultHandles.filter fun d => (handles.lookup d.1).isNone
    modify fun r => { r with handles := handles ++ defaults }
    return true

/-- Whether a token can only stand before a document that is marked. -/
def isBeforeDocument (t : Token) : Bool :=
  match t with
  | .versionDirective _ | .tagDirective .. | .otherDirective | .documentStart => true
  | _ => false

def isBetweenDocuments (t : Token) : Bool :=
  isBeforeDocument t || t == .documentEnd

/-- The node of the first document, whose beginning may be left unmarked; none if the text holds no
document. -/
def firstDocument? (rounds : Nat) : ReadM (Option Nat) := do
  match ← peek? with
  | none => return none
  | some t =>
    if isBeforeDocument t then
      if ← documentBegins rounds then
        match ← peek? with
        | none => return some (← addEmpty)
        | some _ => return some (← nodeUnless isBetweenDocuments true false rounds)
      else return none
    else return some (← node true false rounds)

/-- The node of the only document, which nothing but the end of the text may follow. -/
def onlyDocument? (rounds : Nat) : ReadM (Option Nat) := do
  match ← firstDocument? rounds with
  | none => return none
  | some n =>
    if ← documentBegins rounds then throw Fault.malformed
    return some n

/-- The document in a text that holds at most one. Each round of reading takes a token, and a
character makes no more than five. -/
def Graph.ofText? (text : String) : Except Fault (Option Graph) := do
  let scan ← Scan.begin text
  let (top?, r) ← (onlyDocument? (24 * (text.length + 2))).run ⟨scan, #[], [], defaultHandles⟩
  return top?.map fun top => ⟨r.nodes, top⟩

end InstanceInventory.Yaml
