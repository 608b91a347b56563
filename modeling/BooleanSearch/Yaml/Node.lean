import BooleanSearch.Yaml.Lexer

/-!
# YAML documents

A document is a tree of nodes: scalars, sequences and mappings. A node may be anchored, and an
alias stands for the node that was last anchored under its number. `document?` reads the one
document that a text may hold.
-/

namespace BooleanSearch.Yaml

/-- A node of a document. -/
inductive Node where
  | scalar (tag : Option Text) (style : Style) (text : Text)
  | sequence (items : List Node)
  | mapping (entries : List (Node × Node))
  /-- A node to which aliases of this number refer. -/
  | anchored (number : Nat) (node : Node)
  | alias (number : Nat)

namespace Node

/-- The node that is left out. -/
def empty : Node := .scalar none .plain []

/-- What tag handles mean, unless a directive says otherwise. -/
def defaultHandles : List (Text × Text) :=
  [(['!'], ['!']), (['!', '!'], "tag:yaml.org,2002:".toList)]

/-- The tag of a handle and a name. -/
def resolveTag? (handles : List (Text × Text)) (handle name : Text) : Option Text :=
  if handle.isEmpty then some name
  else (handles.lookup handle).map (· ++ name)

/-- The words that are left, and the names of the anchors so far with their numbers. -/
structure Source where
  tokens : List Token
  names : List (Text × Nat)

namespace Source

/-- The source without its first word. -/
def next (source : Source) : Source := { source with tokens := source.tokens.drop 1 }

/-- Whether one of these words comes next. -/
def startsWith (source : Source) (tokens : List Token) : Bool :=
  match source.tokens with
  | token :: _ => tokens.contains token
  | [] => false

/-- The name of an anchor gets the number of names that are known. -/
def anchor (source : Source) (name : Text) : Nat × Source :=
  let number := (source.names.map Prod.fst).eraseDups.length
  (number, { source with names := (name, number) :: source.names })

end Source

/-- What stands before the content of a node. -/
structure Properties where
  /-- The name of its anchor. -/
  anchor : Option Text
  /-- Its tag, as handle and name. -/
  tag : Option (Text × Text)

/-- The properties in front, in either order. -/
def properties : List Token → Properties × List Token
  | .anchor a :: .tag handle name :: tokens => (⟨some a, some (handle, name)⟩, tokens)
  | .tag handle name :: .anchor a :: tokens => (⟨some a, some (handle, name)⟩, tokens)
  | .anchor a :: tokens => (⟨some a, none⟩, tokens)
  | .tag handle name :: tokens => (⟨none, some (handle, name)⟩, tokens)
  | tokens => (⟨none, none⟩, tokens)

/-- Whether a node stands in the lines of a block collection, and whether it may be a sequence
that is set in as deep as the mapping it belongs to. -/
inductive Place where
  | flow
  | block
  | blockEntry
  deriving DecidableEq, Repr

/-- The words that end a node of a block mapping. -/
def entryEnds : List Token := [.key, .value, .blockEnd]

/-- The words that end a node of a flow mapping. -/
def flowEntryEnds : List Token := [.comma, .flowMappingEnd]

/-- The words that end a node of a flow sequence. -/
def flowItemEnds : List Token := [.comma, .flowSequenceEnd]

mutual

/-- The node in front, in at most so many steps. -/
def read? (handles : List (Text × Text)) :
    Nat → Place → Source → Option (Node × Source)
  | 0, _, _ => none
  | steps + 1, place, source =>
    match source.tokens with
    | .alias name :: _ => do
      let number ← source.names.lookup name
      return (.alias number, source.next)
    | tokens => do
      let (properties, tokens) := properties tokens
      let source := { source with tokens := tokens }
      let tag ← match properties.tag with
        | some (handle, name) => (resolveTag? handles handle name).map some
        | none => some none
      let (number, source) := match properties.anchor with
        | some name =>
          let (number, source) := source.anchor name
          (some number, source)
        | none => (none, source)
      let isBare := properties.anchor.isNone && properties.tag.isNone
      let (node, source) ← content? handles steps place isBare tag source
      match number with
      | some number => return (.anchored number node, source)
      | none => return (node, source)

/-- The content of a node after its properties, which may be all there is. -/
def content? (handles : List (Text × Text)) :
    Nat → Place → (isBare : Bool) → Option Text → Source → Option (Node × Source)
  | 0, _, _, _, _ => none
  | steps + 1, place, isBare, tag, source =>
    match source.tokens, place with
    | .item :: _, .blockEntry =>
      (looseItems? handles steps source).map fun (items, source) => (.sequence items, source)
    | .scalar style text :: _, _ =>
      some (.scalar (if tag = some ['!'] then none else tag) style text, source.next)
    | .flowSequence :: _, _ =>
      (flowItems? handles steps true source.next).map fun (items, source) =>
        (.sequence items, source)
    | .flowMapping :: _, _ =>
      (flowEntries? handles steps true source.next).map fun (entries, source) =>
        (.mapping entries, source)
    | .blockSequence :: _, .block | .blockSequence :: _, .blockEntry =>
      (items? handles steps source.next).map fun (items, source) => (.sequence items, source)
    | .blockMapping :: _, .block | .blockMapping :: _, .blockEntry =>
      (entries? handles steps source.next).map fun (entries, source) => (.mapping entries, source)
    | _, _ => if isBare then none else some (.scalar tag .plain [], source)

/-- A node that may be left out before these words. -/
def optional? (handles : List (Text × Text)) :
    Nat → Place → (ends : List Token) → Source → Option (Node × Source)
  | 0, _, _, _ => none
  | steps + 1, place, ends, source =>
    if source.startsWith ends then some (.empty, source)
    else read? handles steps place source

/-- The items of a block sequence. -/
def items? (handles : List (Text × Text)) : Nat → Source → Option (List Node × Source)
  | 0, _ => none
  | steps + 1, source =>
    match source.tokens with
    | .item :: _ => do
      let (node, source) ← optional? handles steps .block [.item, .blockEnd] source.next
      let (nodes, source) ← items? handles steps source
      return (node :: nodes, source)
    | .blockEnd :: _ => some ([], source.next)
    | _ => none

/-- The items of a sequence that is set in as deep as the mapping it belongs to. -/
def looseItems? (handles : List (Text × Text)) : Nat → Source → Option (List Node × Source)
  | 0, _ => none
  | steps + 1, source =>
    match source.tokens with
    | .item :: _ => do
      let (node, source) ← optional? handles steps .block (.item :: entryEnds) source.next
      let (nodes, source) ← looseItems? handles steps source
      return (node :: nodes, source)
    | _ => some ([], source)

/-- The entries of a block mapping. -/
def entries? (handles : List (Text × Text)) : Nat → Source → Option (List (Node × Node) × Source)
  | 0, _ => none
  | steps + 1, source =>
    match source.tokens with
    | .key :: _ => do
      let (key, source) ← optional? handles steps .blockEntry entryEnds source.next
      let (value, source) ← value? handles steps .blockEntry entryEnds source
      let (entries, source) ← entries? handles steps source
      return ((key, value) :: entries, source)
    | .blockEnd :: _ => some ([], source.next)
    | _ => none

/-- The value of a key, which may be left out. -/
def value? (handles : List (Text × Text)) :
    Nat → Place → (ends : List Token) → Source → Option (Node × Source)
  | 0, _, _, _ => none
  | steps + 1, place, ends, source =>
    if source.startsWith [.value] then optional? handles steps place ends source.next
    else some (.empty, source)

/-- The items of a flow sequence. -/
def flowItems? (handles : List (Text × Text)) :
    Nat → (isFirst : Bool) → Source → Option (List Node × Source)
  | 0, _, _ => none
  | steps + 1, isFirst, source =>
    if source.startsWith [.flowSequenceEnd] then some ([], source.next)
    else if !isFirst && !source.startsWith [.comma] then none
    else
      let source := if isFirst then source else source.next
      if source.startsWith [.flowSequenceEnd] then some ([], source.next)
      else do
        let (node, source) ←
          if source.startsWith [.key] then pair? handles steps source.next
          else read? handles steps .flow source
        let (nodes, source) ← flowItems? handles steps false source
        return (node :: nodes, source)

/-- A single entry as an item of a flow sequence. The word that stands in place of its key is
passed over. -/
def pair? (handles : List (Text × Text)) : Nat → Source → Option (Node × Source)
  | 0, _ => none
  | steps + 1, source => do
    let (key, source) ←
      if source.startsWith (.value :: flowItemEnds) then some (.empty, source.next)
      else read? handles steps .flow source
    let (value, source) ← value? handles steps .flow flowItemEnds source
    return (.mapping [(key, value)], source)

/-- The entries of a flow mapping. -/
def flowEntries? (handles : List (Text × Text)) :
    Nat → (isFirst : Bool) → Source → Option (List (Node × Node) × Source)
  | 0, _, _ => none
  | steps + 1, isFirst, source =>
    if source.startsWith [.flowMappingEnd] then some ([], source.next)
    else if !isFirst && !source.startsWith [.comma] then none
    else
      let source := if isFirst then source else source.next
      if source.startsWith [.flowMappingEnd] then some ([], source.next)
      else do
        let (entry, source) ←
          if source.startsWith [.key] then do
            let (key, source) ←
              optional? handles steps .flow (.value :: flowEntryEnds) source.next
            let (value, source) ← value? handles steps .flow flowEntryEnds source
            some ((key, value), source)
          else (read? handles steps .flow source).map fun (key, source) => ((key, .empty), source)
        let (entries, source) ← flowEntries? handles steps false source
        return (entry :: entries, source)

end

mutual

/-- The anchored nodes within a node, in the order in which they start. -/
def anchors : Node → List (Nat × Node)
  | .scalar _ _ _ => []
  | .alias _ => []
  | .anchored number node => (number, node) :: node.anchors
  | .sequence items => anchorsOfItems items
  | .mapping entries => anchorsOfEntries entries

/-- The anchored nodes within the items of a sequence. -/
def anchorsOfItems : List Node → List (Nat × Node)
  | [] => []
  | node :: nodes => node.anchors ++ anchorsOfItems nodes

/-- The anchored nodes within the entries of a mapping. -/
def anchorsOfEntries : List (Node × Node) → List (Nat × Node)
  | [] => []
  | (key, value) :: entries => key.anchors ++ (value.anchors ++ anchorsOfEntries entries)

end

/-- What a node of a document stands for, where `root` is the whole document. -/
def resolve? (root : Node) : Node → Option Node
  | .anchored _ node => some node
  | .alias number => root.anchors.reverse.lookup number
  | node => some node

end Node

/-- What the directives in front of a document say. -/
structure Directives where
  hasVersion : Bool
  handles : List (Text × Text)

/-- The directives in front, and what follows them. Versions 1.1 and 1.2 are known; nothing may be
said twice. -/
def directives? (found : Directives) : List Token → Option (Directives × List Token)
  | .version major minor :: tokens =>
    if found.hasVersion || major ≠ 1 || (minor ≠ 1 && minor ≠ 2) then none
    else directives? { found with hasVersion := true } tokens
  | .tagPrefix handle meaning :: tokens =>
    if (found.handles.lookup handle).isSome then none
    else directives? { found with handles := (handle, meaning) :: found.handles } tokens
  | tokens => some (found, tokens)

/-- Whether a document that was started has no content. -/
def atBareDocument : List Token → Bool
  | [] => true
  | .version _ _ :: _ => true
  | .tagPrefix _ _ :: _ => true
  | .documentStart :: _ => true
  | .documentEnd :: _ => true
  | _ => false

/-- The number of steps in which the nodes of so many words are read. -/
def nodeSteps (tokens : List Token) : Nat := 4 * tokens.length + 4

/-- The document in front, and what follows it. -/
def documentNode? (tokens : List Token) : Option (Node × List Token) := do
  let (found, rest) ← directives? ⟨false, []⟩ tokens
  let handles := found.handles ++ Node.defaultHandles
  let isBare := found.handles.isEmpty && !found.hasVersion
  match rest with
  | .documentStart :: rest =>
    if atBareDocument rest then return (.empty, rest)
    else
      let (node, source) ← Node.read? handles (nodeSteps rest) .block ⟨rest, []⟩
      return (node, source.tokens)
  | rest =>
    if !isBare then none
    else
      let (node, source) ← Node.read? handles (nodeSteps rest) .block ⟨rest, []⟩
      return (node, source.tokens)

/-- The document of a text, which may hold none; a second one is refused. -/
def document? (t : Text) : Option (Option Node) := do
  match ← tokens? t with
  | [] => return none
  | tokens =>
    let (node, rest) ← documentNode? tokens
    if (rest.dropWhile (· == .documentEnd)).isEmpty then return some node else none

end BooleanSearch.Yaml
