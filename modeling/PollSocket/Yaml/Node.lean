import PollSocket.Yaml.Scalar
import PollSocket.Yaml.Token

set_option autoImplicit false

/-!
# Nodes of a YAML document

A document is a tree of scalars, sequences and mappings. An alias refers to an anchored node by its
number, so that a node may refer to itself. Only the first document of a text is read; what follows
it matters only in that its first tokens have to be tokens.
-/

namespace PollSocket.Yaml

/-- A node; its line is counted from one. -/
inductive Node where
  | scalar (tag text : String) (line : Nat)
  | sequence (tag : String) (items : List Node) (line : Nat)
  | mapping (tag : String) (entries : List (Node × Node)) (line : Nat)
  /-- A reference to the node with the number `target`; `serial` tells references apart. -/
  | alias (name : String) (target serial : Nat) (line : Nat)
  deriving Inhabited

/-- Line on which a node starts. -/
def Node.line : Node → Nat
  | .scalar _ _ line => line
  | .sequence _ _ line => line
  | .mapping _ _ line => line
  | .alias _ _ _ line => line

/-- Text of a scalar or name of an alias; other nodes have none. -/
def Node.text : Node → String
  | .scalar _ text _ => text
  | .alias name _ _ _ => name
  | _ => ""

/-- Both nodes are of the same kind. -/
def Node.sameKind : Node → Node → Bool
  | .scalar .., .scalar .. => true
  | .sequence .., .sequence .. => true
  | .mapping .., .mapping .. => true
  | .alias .., .alias .. => true
  | _, _ => false

/-- A document: its tree and the nodes that aliases refer to. -/
structure Document where
  root : Node
  anchored : List (Nat × Node)
  deriving Inhabited

/-- The node with a number. -/
def Document.node? (d : Document) (n : Nat) : Option Node := d.anchored.lookup n

/-! ## Reading -/

/-- What stands in front of the tags of the standard set. -/
def standardTags : String := "tag:yaml.org,2002:"

/-- Short form of a tag. -/
def shortTag (tag : String) : String :=
  if tag.startsWith standardTags then "!!" ++ (tag.drop standardTags.length).toString else tag

/-- The state of a reader of tokens. -/
structure Reader where
  tokens : List Token
  complete : Bool
  handles : List (String × String)
  /-- Numbers of the anchors, the latest first. -/
  anchors : List (String × Nat)
  anchored : List (Nat × Node)
  /-- The next number to give away. -/
  next : Nat
  deriving Inhabited

/-- A reading, which may fail. -/
abbrev Read (α : Type) := StateT Reader Option α

/-- The next token. The two behind it have to be tokens as well. -/
def peek : Read Token := do
  let r ← get
  match r.tokens with
  | [] => failure
  | [t] => if r.complete then pure t else failure
  | [t, _] => if r.complete then pure t else failure
  | t :: _ :: _ :: _ => pure t

/-- Past one token. -/
def drop : Read Unit := modify fun r => { r with tokens := r.tokens.drop 1 }

/-- A number not given away before. -/
def fresh : Read Nat := modifyGet fun r => (r.next, { r with next := r.next + 1 })

/-- Properties in front of the content of a node. -/
structure Properties where
  anchor : Option String
  tag : Option String
  /-- Line of the first property, or of the content if there is none. -/
  line : Nat
  deriving Inhabited

/-- The full form of a tag. -/
def fullTag? (handles : List (String × String)) (handle suffix : String) : Option String :=
  if handle.isEmpty then some suffix
  else do
    let start ← handles.lookup handle
    let tag := start ++ suffix
    if tag.isEmpty then none else some tag

/-- An anchor and a tag, in either order, or one of them, or none. -/
def properties : Read Properties := do
  let first ← peek
  match first.kind with
  | .anchor name =>
    drop
    let second ← peek
    match second.kind with
    | .tag handle suffix =>
      drop
      let tag ← fullTag? (← get).handles handle suffix
      pure ⟨some name, some tag, first.line⟩
    | _ => pure ⟨some name, none, first.line⟩
  | .tag handle suffix =>
    drop
    let second ← peek
    let anchor ← match second.kind with
      | .anchor name => do
        drop
        pure (some name)
      | _ => pure none
    let tag ← fullTag? (← get).handles handle suffix
    pure ⟨anchor, some tag, first.line⟩
  | _ => pure ⟨none, none, first.line⟩

/-- Tag of a node: the one given, in its short form, unless it says nothing. -/
def tagOr (given : Option String) (otherwise : String) : String :=
  match given with
  | none => otherwise
  | some "!" => otherwise
  | some tag => shortTag tag

/-- A scalar with its tag. A plain one without a tag gets the tag of what it stands for. -/
def scalarNode (tag : Option String) (text : String) (style : Style) (line : Nat) : Node :=
  let otherwise :=
    if style != .plain then "!!str"
    else if text == "<<" then "!!merge"
    else (Scalar.ofSpelling text true).tag
  .scalar (tagOr tag otherwise) text (line + 1)

/-- A scalar with nothing in it. -/
def emptyNode (line : Nat) : Node := .scalar "!!null" "" (line + 1)

/-- Give a number to an anchor. -/
def declare (anchor : Option String) : Read (Option Nat) :=
  match anchor with
  | none => pure none
  | some name => do
    let n ← fresh
    modify fun r => { r with anchors := (name, n) :: r.anchors }
    pure (some n)

/-- Keep an anchored node. -/
def keep (number : Option Nat) (node : Node) : Read Node := do
  match number with
  | none => pure ()
  | some n => modify fun r => { r with anchored := (n, node) :: r.anchored }
  pure node

/-- Tokens that end an entry without content. -/
def endsEntry (indentless : Bool) : Token.Kind → Bool
  | .blockEntry => true
  | .blockEnd => true
  | .key => indentless
  | .value => indentless
  | _ => false

/-- Tokens that end a key or value of a block mapping without content. -/
def endsPair : Token.Kind → Bool
  | .key => true
  | .value => true
  | .blockEnd => true
  | _ => false

/-- What a reader is at. -/
inductive Expect where
  /-- A node; inside a block, and with a sequence that is not indented allowed. -/
  | node (block indentless : Bool)
  /-- Entries of a block sequence. -/
  | blockEntries
  /-- Entries of a sequence that is not indented. -/
  | indentlessEntries
  /-- Pairs of a block mapping. -/
  | blockPairs
  /-- Entries of a flow sequence. -/
  | flowEntries (first : Bool)
  /-- Pairs of a flow mapping. -/
  | flowPairs (first : Bool)
  deriving DecidableEq, Inhabited

/-- The one node that was expected. -/
def single : List Node → Read Node
  | [n] => pure n
  | _ => failure

/-- Nodes two by two. -/
def pairUp : List Node → List (Node × Node)
  | k :: v :: rest => (k, v) :: pairUp rest
  | _ => []

/-- Read what is expected. Entries are a list of nodes and pairs a list in which keys and values
alternate; `fuel` bounds the depth of the reading and the number of entries. -/
def expect : Nat → Expect → Read (List Node)
  | 0, _ => failure
  | fuel + 1, .node block indentless => do
    let t ← peek
    if let .alias name := t.kind then
      let r ← get
      let some target := r.anchors.lookup name | failure
      let serial ← fresh
      drop
      return [.alias name target serial (t.line + 1)]
    let p ← properties
    let t ← peek
    match t.kind with
    | .scalar text style =>
      let number ← declare p.anchor
      drop
      return [← keep number (scalarNode p.tag text style p.line)]
    | .flowSequenceStart =>
      let number ← declare p.anchor
      drop
      let items ← expect fuel (.flowEntries true)
      return [← keep number (.sequence (tagOr p.tag "!!seq") items (p.line + 1))]
    | .flowMappingStart =>
      let number ← declare p.anchor
      drop
      let items ← expect fuel (.flowPairs true)
      return [← keep number (.mapping (tagOr p.tag "!!map") (pairUp items) (p.line + 1))]
    | kind =>
      if kind = .blockEntry && indentless then
        let number ← declare p.anchor
        let items ← expect fuel .indentlessEntries
        return [← keep number (.sequence (tagOr p.tag "!!seq") items (p.line + 1))]
      else if kind = .blockSequenceStart && block then
        let number ← declare p.anchor
        drop
        let items ← expect fuel .blockEntries
        return [← keep number (.sequence (tagOr p.tag "!!seq") items (p.line + 1))]
      else if kind = .blockMappingStart && block then
        let number ← declare p.anchor
        drop
        let items ← expect fuel .blockPairs
        return [← keep number (.mapping (tagOr p.tag "!!map") (pairUp items) (p.line + 1))]
      else if p.anchor.isSome || p.tag.isSome then
        let number ← declare p.anchor
        return [← keep number (scalarNode p.tag "" .plain p.line)]
      else failure
  | fuel + 1, .blockEntries => do
    let t ← peek
    match t.kind with
    | .blockEntry =>
      drop
      let item ← content fuel t.line (endsEntry false) (.node true false)
      return item :: (← expect fuel .blockEntries)
    | .blockEnd =>
      drop
      return []
    | _ => failure
  | fuel + 1, .indentlessEntries => do
    let t ← peek
    match t.kind with
    | .blockEntry =>
      drop
      let item ← content fuel t.line (endsEntry true) (.node true false)
      return item :: (← expect fuel .indentlessEntries)
    | _ => return []
  | fuel + 1, .blockPairs => do
    let t ← peek
    match t.kind with
    | .key =>
      drop
      let k ← content fuel t.line endsPair (.node true true)
      let v ← value fuel endsPair (.node true true)
      return k :: v :: (← expect fuel .blockPairs)
    | .blockEnd =>
      drop
      return []
    | _ => failure
  | fuel + 1, .flowEntries first => do
    let t ← peek
    if t.kind != .flowSequenceEnd && !first then
      if t.kind = .flowEntry then drop else failure
    let t ← peek
    match t.kind with
    | .flowSequenceEnd =>
      drop
      return []
    | .key =>
      drop
      let isEnd := fun k => k = Token.Kind.flowEntry || k = .flowSequenceEnd
      let k ← do
        let next ← peek
        if next.kind = .value || isEnd next.kind then
          drop
          pure (emptyNode next.line)
        else single (← expect fuel (.node false false))
      let v ← value fuel isEnd (.node false false)
      return .mapping "!!map" [(k, v)] (t.line + 1) :: (← expect fuel (.flowEntries false))
    | _ =>
      let item ← single (← expect fuel (.node false false))
      return item :: (← expect fuel (.flowEntries false))
  | fuel + 1, .flowPairs first => do
    let t ← peek
    if t.kind != .flowMappingEnd && !first then
      if t.kind = .flowEntry then drop else failure
    let t ← peek
    let isEnd := fun k => k = Token.Kind.flowEntry || k = .flowMappingEnd
    match t.kind with
    | .flowMappingEnd =>
      drop
      return []
    | .key =>
      drop
      let k ← content fuel t.line (fun k => k = .value || isEnd k) (.node false false)
      let v ← value fuel isEnd (.node false false)
      return k :: v :: (← expect fuel (.flowPairs false))
    | _ =>
      let k ← single (← expect fuel (.node false false))
      let next ← peek
      return k :: emptyNode next.line :: (← expect fuel (.flowPairs false))
where
  /-- A node, or an empty one if a token follows that ends it. -/
  content (fuel : Nat) (line : Nat) (ends : Token.Kind → Bool) (e : Expect) : Read Node := do
    let next ← peek
    if ends next.kind then pure (emptyNode line) else single (← expect fuel e)
  /-- The value behind a colon, or an empty one if there is no colon or nothing behind it. -/
  value (fuel : Nat) (ends : Token.Kind → Bool) (e : Expect) : Read Node := do
    let next ← peek
    if next.kind = .value then
      drop
      content fuel next.line ends e
    else pure (emptyNode next.line)

/-! ## Documents -/

/-- The handles that need no directive. -/
def defaultHandles : List (String × String) := [("!", "!"), ("!!", standardTags)]

/-- Directives in front of a document; `seen` holds after one with a version. -/
def directives : Nat → Bool → List (String × String) → Read (List (String × String))
  | 0, _, _ => failure
  | fuel + 1, seen, handles => do
    let t ← peek
    match t.kind with
    | .version major minor =>
      if seen || major != 1 || minor != 1 then failure
      drop
      directives fuel true handles
    | .tagHandle handle start =>
      if (handles.lookup handle).isSome then failure
      drop
      directives fuel seen (handles ++ [(handle, start)])
    | _ => return handles

/-- A token that ends a document. -/
def endsDocument : Token.Kind → Bool
  | .version .. => true
  | .tagHandle .. => true
  | .documentStart => true
  | .documentEnd => true
  | .streamEnd => true
  | _ => false

/-- The first document of a stream, if there is one. -/
def document (fuel : Nat) : Read (Option Node) := do
  let t ← peek
  match t.kind with
  | .streamEnd => return none
  | .version .. | .tagHandle .. | .documentStart =>
    let handles ← directives fuel false []
    modify fun r => { r with handles := handles ++ defaultHandles }
    let t ← peek
    if t.kind != .documentStart then failure
    drop
    let next ← peek
    if endsDocument next.kind then return some (emptyNode next.line)
    let root ← single (← expect fuel (.node true false))
    let _ ← peek
    return some root
  | _ =>
    let root ← single (← expect fuel (.node true false))
    let _ ← peek
    return some root

/-- The first document of a text: `none` if the text is no YAML, `some none` if it holds nothing. -/
def parse? (s : String) : Option (Option Document) := do
  let ts := tokens s
  let fuel := 4 * ts.list.length + 8
  let (root, r) ← (document fuel).run ⟨ts.list, ts.complete, defaultHandles, [], [], 0⟩
  some (root.map fun node => ⟨node, r.anchored⟩)

end PollSocket.Yaml
