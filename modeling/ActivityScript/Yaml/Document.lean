import ActivityScript.Yaml.Graph
import ActivityScript.Yaml.TokenStream

/-!
# From tokens to nodes

A file holds at most one document. Its nodes are read from the tokens in one go, with the references
between them, so that the first fault is found, whether of a token, of the order of tokens or of a
reference. `fuel` bounds the depth of calls, and there is enough of it for every list of tokens.
-/

namespace ActivityScript.Yaml

/-- The state of a reader of nodes: the tokens left, the fault after the last of them, and the nodes
and anchors so far. -/
structure NodeState where
  tokens : List Token
  fault? : Option Fault
  nodes : Nodes
  anchors : List (String × NodeId)

/-- A reader of nodes. -/
abbrev NodeReader (α : Type) := StateT NodeState (Except Fault) α

/-- The next token; none at the end of the document. -/
def nextToken? : NodeReader (Option Token) := do
  let state ← get
  match state.tokens, state.fault? with
  | [], some fault => throw fault
  | tokens, _ => return tokens.head?

/-- Takes the next token. -/
def skipToken : NodeReader Unit :=
  modify fun state => { state with tokens := state.tokens.tail }

/-- Whether the next token is one of `choices`. -/
def nextIs (choices : List Token) : NodeReader Bool := do
  return (← nextToken?).any choices.contains

/-- Takes the next token if it is `token`; tells whether it was. -/
def skipIf (token : Token) : NodeReader Bool := do
  let found ← nextIs [token]
  if found then skipToken
  return found

/-- Short forms for the beginning of tags. -/
abbrev Handles := List (String × String)

/-- The handles that need no directive. -/
def defaultHandles : Handles := [("!", "!"), ("!!", tagLead)]

/-- The tag that a handle and a rest stand for. -/
def fullTag (handles : Handles) (handle : Option String) (suffix : String) :
    Except Fault String :=
  match handle with
  | none => .ok suffix
  | some handle =>
    match handles.lookup handle with
    | some lead => .ok (lead ++ suffix)
    | none => .error .malformed

/-- What stands before a node. -/
structure Properties where
  anchor : Option String
  tag : Option String
  deriving DecidableEq, Repr

/-- The anchor and the tag before a node, in either order. -/
def readProperties (handles : Handles) : NodeReader Properties := do
  match ← nextToken? with
  | some (.anchor name) =>
    skipToken
    match ← nextToken? with
    | some (.tag handle suffix) =>
      skipToken
      return ⟨some name, some (← fullTag handles handle suffix)⟩
    | _ => return ⟨some name, none⟩
  | some (.tag handle suffix) =>
    skipToken
    match ← nextToken? with
    | some (.anchor name) =>
      skipToken
      return ⟨some name, some (← fullTag handles handle suffix)⟩
    | _ => return ⟨none, some (← fullTag handles handle suffix)⟩
  | _ => return ⟨none, none⟩

/-- The node that a reference stands for. -/
def referred (name : String) : NodeReader NodeId := do
  match (← get).anchors.lookup name with
  | some id => return id
  | none => throw .malformed

/-- Adds a node. -/
def addNode (node : Node) : NodeReader NodeId :=
  modifyGet fun state => (state.nodes.size, { state with nodes := state.nodes.push node })

/-- Adds a node with an anchor, which must be new. -/
def addAnchored (anchor : Option String) (node : Node) : NodeReader NodeId := do
  match anchor with
  | none => addNode node
  | some name =>
    if ((← get).anchors.lookup name).isSome then throw .malformed
    let id ← addNode node
    modify fun state => { state with anchors := (name, id) :: state.anchors }
    return id

/-- Adds a scalar. -/
def addScalar (properties : Properties) (text : String) (plain : Bool) : NodeReader NodeId :=
  addAnchored properties.anchor ⟨scalarKind properties.tag text plain, .scalar text⟩

/-- Adds a node that is missing: an empty plain scalar. -/
def addMissing : NodeReader NodeId := addScalar ⟨none, none⟩ "" true

/-- Puts the content of a node in its place once it is known. -/
def complete (id : NodeId) (content : Content) : NodeReader Unit :=
  modify fun state => { state with nodes := state.nodes.setContent id content }

/-- Where a node stands: blocks are read everywhere but in brackets, and the items of a sequence
need no indentation of their own in a mapping. -/
inductive Setting where
  | flow
  | block
  | inMapping
  deriving DecidableEq, Repr

/-- How the items of a sequence, or the pairs of a mapping, are set apart. -/
inductive Layout where
  | brackets
  | block
  /-- A sequence without indentation of its own. -/
  | loose
  deriving DecidableEq, Repr

mutual

/-- A node. -/
def readNode (handles : Handles) (setting : Setting) : (fuel : Nat) → NodeReader NodeId
  | 0 => throw .malformed
  | fuel + 1 => do
    match ← nextToken? with
    | some (.reference name) => skipToken; referred name
    | _ =>
      let properties ← readProperties handles
      match ← nextToken? with
      | some (.scalar text plain) => skipToken; addScalar properties text plain
      | some .sequenceOpen => readSequence handles properties .brackets fuel
      | some .mappingOpen => readMapping handles properties .brackets fuel
      | next =>
        if setting = .inMapping ∧ next = some .entry then
          readSequence handles properties .loose fuel
        else if setting ≠ .flow ∧ next = some .blockSequence then
          readSequence handles properties .block fuel
        else if setting ≠ .flow ∧ next = some .blockMapping then
          readMapping handles properties .block fuel
        else if properties = ⟨none, none⟩ then throw .malformed
        else addScalar properties "" true

/-- A sequence, which begins at the next token. -/
def readSequence (handles : Handles) (properties : Properties) (layout : Layout) :
    (fuel : Nat) → NodeReader NodeId
  | 0 => throw .malformed
  | fuel + 1 => do
    let id ← addAnchored properties.anchor ⟨taggedKind properties.tag .sequence, .sequence []⟩
    let items ←
      match layout with
      | .brackets => skipToken; flowItems handles true fuel
      | .block => skipToken; blockItems handles fuel
      | .loose => looseItems handles fuel
    complete id (.sequence items)
    return id

/-- A mapping, which begins at the next token. -/
def readMapping (handles : Handles) (properties : Properties) (layout : Layout) :
    (fuel : Nat) → NodeReader NodeId
  | 0 => throw .malformed
  | fuel + 1 => do
    let id ← addAnchored properties.anchor ⟨taggedKind properties.tag .mapping, .mapping []⟩
    skipToken
    let pairs ←
      if layout = .brackets then flowPairs handles true fuel else blockPairs handles fuel
    complete id (.mapping pairs)
    return id

/-- A node, or a missing node before one of `ends`. -/
def readNodeUnless (handles : Handles) (setting : Setting) (ends : List Token) :
    (fuel : Nat) → NodeReader NodeId
  | 0 => throw .malformed
  | fuel + 1 => do
    if ← nextIs ends then addMissing else readNode handles setting fuel

/-- The items of a block to its end. -/
def blockItems (handles : Handles) : (fuel : Nat) → NodeReader (List NodeId)
  | 0 => throw .malformed
  | fuel + 1 => do
    if ← skipIf .entry then
      let item ← readNodeUnless handles .block [.entry, .blockEnd] fuel
      let items ← blockItems handles fuel
      return item :: items
    else if ← skipIf .blockEnd then return []
    else throw .malformed

/-- The items of a sequence without indentation of its own. -/
def looseItems (handles : Handles) : (fuel : Nat) → NodeReader (List NodeId)
  | 0 => throw .malformed
  | fuel + 1 => do
    if ← skipIf .entry then
      let item ← readNodeUnless handles .block [.entry, .key, .value, .blockEnd] fuel
      let items ← looseItems handles fuel
      return item :: items
    else return []

/-- The keys and values of a block to its end. -/
def blockPairs (handles : Handles) : (fuel : Nat) → NodeReader NodePairs
  | 0 => throw .malformed
  | fuel + 1 => do
    if ← skipIf .key then
      let ends := [.key, .value, .blockEnd]
      let key ← readNodeUnless handles .inMapping ends fuel
      let value ← readValue handles .inMapping ends fuel
      let pairs ← blockPairs handles fuel
      return (key, value) :: pairs
    else if ← skipIf .blockEnd then return []
    else throw .malformed

/-- A value after its colon; without a colon it is missing. -/
def readValue (handles : Handles) (setting : Setting) (ends : List Token) :
    (fuel : Nat) → NodeReader NodeId
  | 0 => throw .malformed
  | fuel + 1 => do
    if ← skipIf .value then readNodeUnless handles setting ends fuel else addMissing

/-- The items of a sequence in brackets to its end. An item may be a single key with its value. -/
def flowItems (handles : Handles) (first : Bool) : (fuel : Nat) → NodeReader (List NodeId)
  | 0 => throw .malformed
  | fuel + 1 => do
    if ← skipIf .sequenceClose then return []
    if !first then
      if !(← skipIf .comma) then throw .malformed
    if ← skipIf .key then
      let key ← readNodeUnless handles .flow [.value, .comma, .sequenceClose] fuel
      let value ← readValue handles .flow [.comma, .sequenceClose] fuel
      let item ← addNode ⟨.mapping, .mapping [(key, value)]⟩
      let items ← flowItems handles false fuel
      return item :: items
    else if ← skipIf .sequenceClose then return []
    else
      let item ← readNode handles .flow fuel
      let items ← flowItems handles false fuel
      return item :: items

/-- The keys and values of a mapping in brackets to its end. -/
def flowPairs (handles : Handles) (first : Bool) : (fuel : Nat) → NodeReader NodePairs
  | 0 => throw .malformed
  | fuel + 1 => do
    if ← skipIf .mappingClose then return []
    if !first then
      if !(← skipIf .comma) then throw .malformed
    if ← skipIf .key then
      let key ← readNodeUnless handles .flow [.value, .comma, .mappingClose] fuel
      let value ← readValue handles .flow [.comma, .mappingClose] fuel
      let pairs ← flowPairs handles false fuel
      return (key, value) :: pairs
    else if ← skipIf .mappingClose then return []
    else
      let key ← readNode handles .flow fuel
      let value ← addMissing
      let pairs ← flowPairs handles false fuel
      return (key, value) :: pairs

end

/-- The handles that the next directives declare; `fuel` bounds the number of directives. -/
def readDirectives (versioned : Bool) (declared : Handles) : (fuel : Nat) → NodeReader Handles
  | 0 => throw .malformed
  | fuel + 1 => do
    match ← nextToken? with
    | some (.directive directive) =>
      skipToken
      match directive with
      | .version major =>
        if versioned ∨ major ≠ 1 then throw .malformed
        readDirectives true declared fuel
      | .handle handle lead =>
        if (declared.lookup handle).isSome then throw .malformed
        readDirectives versioned (declared ++ [(handle, lead)]) fuel
      | .other => readDirectives versioned declared fuel
    | _ => return declared ++ defaultHandles

/-- Whether a document that begins here has no node. -/
def isBare : Option Token → Bool
  | none | some (.directive _) | some .documentStart | some .documentEnd => true
  | some _ => false

/-- The root of the first document, if there is one. -/
def readDocument (fuel : Nat) : NodeReader (Option NodeId) := do
  match ← nextToken? with
  | none => return none
  | some (.directive _) | some .documentStart =>
    let handles ← readDirectives false [] fuel
    if !(← skipIf .documentStart) then throw .malformed
    if isBare (← nextToken?) then return some (← addMissing)
    else return some (← readNode handles .block fuel)
  | some _ => return some (← readNode defaultHandles .block fuel)

/-- Nothing may follow the first document but marks of its end. -/
def endDocuments (fuel : Nat) : NodeReader Unit := do
  modify fun state => { state with tokens := state.tokens.dropWhile (· = .documentEnd) }
  if (← nextToken?).isSome then
    let _ ← readDirectives false [] fuel
    throw .malformed

/-- The nodes of a document and its root. -/
structure Document where
  nodes : Nodes
  root : NodeId

/-- The only document of a text, if there is one. -/
def document (text : List Char) : Except Fault (Option Document) := do
  let stream := tokens text
  let fuel := 6 * stream.tokens.length + 6
  let reader : NodeReader (Option NodeId) := do
    let root? ← readDocument fuel
    endDocuments fuel
    return root?
  let (root?, state) ← reader.run ⟨stream.tokens, stream.fault?, #[], []⟩
  return root?.map fun root => ⟨state.nodes, root⟩

end ActivityScript.Yaml
