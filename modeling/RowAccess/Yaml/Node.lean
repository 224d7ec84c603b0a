import RowAccess.Yaml.Layout

/-!
# YAML documents

The tokens of a text are the leaves of a tree of scalars, sequences and mappings. Reading a node
consumes its tokens from the front of the list; anchors met on the way are numbered, and an alias
refers to a number. The number of an anchor is how many names are known, so a name that is given
again may share its number with a later one; of the nodes that share a number, an alias stands for
the one that begins last, wherever the alias itself stands. A place where a node is expected but
none stands holds an empty plain scalar.

A document is its root with the anchored nodes. A text holds at most one document.
-/

namespace RowAccess.Yaml

/-- A node of a document. Tags are given in full. -/
inductive Node where
  | scalar (text : String) (style : Style) (tag : Option Tag)
  | sequence (items : List Node) (tag : Option Tag)
  | mapping (entries : List (Node × Node)) (tag : Option Tag)
  | alias (anchor : Nat)

/-- A missing node. -/
def Node.empty : Node := .scalar "" .plain none

/-- What is left to read, and what the document has named so far. -/
structure Reading where
  tokens : List Token
  /-- The tag prefixes of handles. -/
  handles : List (String × Tag) := []
  /-- The names of anchors, each with its latest number. -/
  names : List (String × Nat) := []
  /-- The number and the place of each anchored node that has begun, the latest first. -/
  begun : List (Nat × Nat) := []
  /-- The anchored nodes that are complete, by place. -/
  complete : List (Nat × Node) := []

namespace Reading

/-- The state after the first token. -/
def drop (r : Reading) : Reading := { r with tokens := r.tokens.drop 1 }

/-- Whether the first token is one of the given ones. -/
def atAny (r : Reading) (stops : List Token) : Bool :=
  match r.tokens with
  | t :: _ => stops.contains t
  | [] => false

/-- The properties in front of a node: an anchor and a tag, in either order. -/
def takeProperties (r : Reading) : Option String × Option (String × Tag) × Reading :=
  match r.tokens with
  | .anchor name :: .tag handle suffix :: rest =>
    (some name, some (handle, suffix), { r with tokens := rest })
  | .tag handle suffix :: .anchor name :: rest =>
    (some name, some (handle, suffix), { r with tokens := rest })
  | .anchor name :: rest => (some name, none, { r with tokens := rest })
  | .tag handle suffix :: rest => (none, some (handle, suffix), { r with tokens := rest })
  | _ => (none, none, r)

/-- The full text of a tag. -/
def resolveTag (r : Reading) : Option (String × Tag) → Except Fault (Option Tag)
  | none => .ok none
  | some (handle, suffix) =>
    if handle.isEmpty then .ok (some suffix)
    else
      match r.handles.lookup handle with
      | some start => .ok (some (start ++ suffix))
      | none => .error (.unknownHandle handle)

/-- The number of the next anchor: how many names are known. -/
def nextAnchor (r : Reading) : Nat := r.names.length

/-- The place of the next anchored node: how many have begun. -/
def nextPlace (r : Reading) : Nat := r.begun.length

/-- Give the next number and the next place to an anchor. A name that was in use before changes its
number. -/
def name (r : Reading) : Option String → Reading
  | some name =>
    { r with
      names := (name, r.nextAnchor) :: r.names.filter fun entry ↦ entry.1 != name
      begun := (r.nextAnchor, r.nextPlace) :: r.begun }
  | none => r

/-- Keep a complete node under the place its anchor was given. -/
def keep (r : Reading) (anchor : Option String) (place : Nat) (node : Node) : Node × Reading :=
  match anchor with
  | some _ => (node, { r with complete := (place, node) :: r.complete })
  | none => (node, r)

/-- The anchored nodes by number, the one that began last in front. -/
def anchored (r : Reading) : List (Nat × Node) :=
  r.begun.filterMap fun (number, place) ↦
    (r.complete.lookup place).map fun node ↦ (number, node)

mutual

/-- A node. `block` allows block collections, `indentless` a sequence whose items are not indented
further than the key before it. -/
def takeNode : (fuel : Nat) → (block indentless : Bool) → Reading → Except Fault (Node × Reading)
  | 0, _, _, _ => .error .tooDeep
  | fuel + 1, block, indentless, r =>
    match r.tokens with
    | .alias name :: rest =>
      match r.names.lookup name with
      | some number => .ok (.alias number, { r with tokens := rest })
      | none => .error (.unknownAnchor name)
    | _ => do
      let (anchor, tag, r) := r.takeProperties
      let tag ← r.resolveTag tag
      let place := r.nextPlace
      match r.tokens with
      | .scalar text style :: rest =>
        return ({ r with tokens := rest }.name anchor).keep anchor place (.scalar text style tag)
      | .flowSequenceStart :: rest =>
        let (items, r) ← takeFlowItems fuel true [] ({ r with tokens := rest }.name anchor)
        return r.keep anchor place (.sequence items tag)
      | .flowMappingStart :: rest =>
        let (entries, r) ← takeFlowEntries fuel true [] ({ r with tokens := rest }.name anchor)
        return r.keep anchor place (.mapping entries tag)
      | .blockEntry :: _ =>
        if indentless then
          let (items, r) ← takeIndentless fuel [] (r.name anchor)
          return r.keep anchor place (.sequence items tag)
        else if anchor.isSome || tag.isSome then
          return (r.name anchor).keep anchor place (.scalar "" .plain tag)
        else throw .unexpectedToken
      | .blockSequenceStart :: rest =>
        if block then
          let (items, r) ← takeBlockItems fuel [] ({ r with tokens := rest }.name anchor)
          return r.keep anchor place (.sequence items tag)
        else if anchor.isSome || tag.isSome then
          return (r.name anchor).keep anchor place (.scalar "" .plain tag)
        else throw .unexpectedToken
      | .blockMappingStart :: rest =>
        if block then
          let (entries, r) ← takeBlockEntries fuel [] ({ r with tokens := rest }.name anchor)
          return r.keep anchor place (.mapping entries tag)
        else if anchor.isSome || tag.isSome then
          return (r.name anchor).keep anchor place (.scalar "" .plain tag)
        else throw .unexpectedToken
      | _ =>
        if anchor.isSome || tag.isSome then
          return (r.name anchor).keep anchor place (.scalar "" .plain tag)
        else throw .unexpectedToken

/-- A node, or a missing one before any of the given tokens. -/
def takeNodeUnless : (fuel : Nat) → (block indentless : Bool) → (stops : List Token) → Reading →
    Except Fault (Node × Reading)
  | 0, _, _, _, _ => .error .tooDeep
  | fuel + 1, block, indentless, stops, r =>
    if r.atAny stops then .ok (.empty, r) else takeNode fuel block indentless r

/-- The items of a block sequence up to its end. -/
def takeBlockItems : (fuel : Nat) → (done : List Node) → Reading →
    Except Fault (List Node × Reading)
  | 0, _, _ => .error .tooDeep
  | fuel + 1, done, r =>
    match r.tokens with
    | .blockEntry :: rest => do
      let (item, r) ← takeNodeUnless fuel true false [.blockEntry, .blockEnd]
        { r with tokens := rest }
      takeBlockItems fuel (item :: done) r
    | .blockEnd :: rest => .ok (done.reverse, { r with tokens := rest })
    | _ => .error .unexpectedToken

/-- The items of a block sequence that is not indented. -/
def takeIndentless : (fuel : Nat) → (done : List Node) → Reading →
    Except Fault (List Node × Reading)
  | 0, _, _ => .error .tooDeep
  | fuel + 1, done, r =>
    match r.tokens with
    | .blockEntry :: rest => do
      let (item, r) ← takeNodeUnless fuel true false [.blockEntry, .key, .value, .blockEnd]
        { r with tokens := rest }
      takeIndentless fuel (item :: done) r
    | _ => .ok (done.reverse, r)

/-- The entries of a block mapping up to its end. -/
def takeBlockEntries : (fuel : Nat) → (done : List (Node × Node)) → Reading →
    Except Fault (List (Node × Node) × Reading)
  | 0, _, _ => .error .tooDeep
  | fuel + 1, done, r =>
    match r.tokens with
    | .blockEnd :: rest => .ok (done.reverse, { r with tokens := rest })
    | .key :: rest => do
      let (key, r) ← takeNodeUnless fuel true true [.key, .value, .blockEnd]
        { r with tokens := rest }
      let (value, r) ←
        if r.atAny [.value] then
          takeNodeUnless fuel true true [.key, .value, .blockEnd] r.drop
        else pure (Node.empty, r)
      takeBlockEntries fuel ((key, value) :: done) r
    | _ => .error .unexpectedToken

/-- The items of a flow sequence up to its end. An item with a key is a mapping of one entry. -/
def takeFlowItems : (fuel : Nat) → (first : Bool) → (done : List Node) → Reading →
    Except Fault (List Node × Reading)
  | 0, _, _, _ => .error .tooDeep
  | fuel + 1, first, done, r =>
    match r.tokens with
    | .flowSequenceEnd :: rest => .ok (done.reverse, { r with tokens := rest })
    | _ => do
      let r ← if first then pure r
        else if r.atAny [.flowEntry] then pure r.drop else throw .unexpectedToken
      match r.tokens with
      | .flowSequenceEnd :: rest => return (done.reverse, { r with tokens := rest })
      | .key :: rest =>
        let r := { r with tokens := rest }
        let (key, r) ←
          if r.atAny [.value, .flowEntry, .flowSequenceEnd] then pure (Node.empty, r.drop)
          else takeNode fuel false false r
        let (value, r) ←
          if r.atAny [.value] then
            takeNodeUnless fuel false false [.flowEntry, .flowSequenceEnd] r.drop
          else pure (Node.empty, r)
        takeFlowItems fuel false (.mapping [(key, value)] none :: done) r
      | _ =>
        let (item, r) ← takeNode fuel false false r
        takeFlowItems fuel false (item :: done) r

/-- The entries of a flow mapping up to its end. A node without a key indicator has no value. -/
def takeFlowEntries : (fuel : Nat) → (first : Bool) → (done : List (Node × Node)) → Reading →
    Except Fault (List (Node × Node) × Reading)
  | 0, _, _, _ => .error .tooDeep
  | fuel + 1, first, done, r =>
    match r.tokens with
    | .flowMappingEnd :: rest => .ok (done.reverse, { r with tokens := rest })
    | _ => do
      let r ← if first then pure r
        else if r.atAny [.flowEntry] then pure r.drop else throw .unexpectedToken
      match r.tokens with
      | .flowMappingEnd :: rest => return (done.reverse, { r with tokens := rest })
      | .key :: rest =>
        let (key, r) ← takeNodeUnless fuel false false [.value, .flowEntry, .flowMappingEnd]
          { r with tokens := rest }
        let (value, r) ←
          if r.atAny [.value] then
            takeNodeUnless fuel false false [.flowEntry, .flowMappingEnd] r.drop
          else pure (Node.empty, r)
        takeFlowEntries fuel false ((key, value) :: done) r
      | _ =>
        let (key, r) ← takeNode fuel false false r
        takeFlowEntries fuel false ((key, .empty) :: done) r

end

/-- The directives in front of a document. A version is given at most once, and is 1.1 or 1.2;
a handle is defined at most once. -/
def takeDirectives (r : Reading) : (fuel : Nat) → (versioned : Bool) → (own : List String) →
    Except Fault Reading
  | 0, _, _ => .ok r
  | fuel + 1, versioned, own =>
    match r.tokens with
    | .versionDirective major minor :: rest =>
      if versioned || major ≠ 1 || (minor ≠ 1 && minor ≠ 2) then .error .badDirective
      else takeDirectives { r with tokens := rest } fuel true own
    | .tagDirective handle start :: rest =>
      if own.contains handle then .error .badDirective
      else
        takeDirectives { r with tokens := rest, handles := (handle, start) :: r.handles }
          fuel versioned (handle :: own)
    | _ => .ok r

end Reading

mutual

/-- How many steps it takes to walk a node: one for a leaf, and one at either end of a
collection. -/
def Node.steps : Node → Nat
  | .scalar .. => 1
  | .alias _ => 1
  | .sequence items _ => 2 + Node.itemSteps items
  | .mapping entries _ => 2 + Node.entrySteps entries

/-- The steps of the items of a sequence. -/
def Node.itemSteps : List Node → Nat
  | [] => 0
  | item :: rest => item.steps + Node.itemSteps rest

/-- The steps of the entries of a mapping. -/
def Node.entrySteps : List (Node × Node) → Nat
  | [] => 0
  | (key, value) :: rest => key.steps + value.steps + Node.entrySteps rest

end

/-- A document: its root, and the nodes that aliases refer to by number. -/
structure Document where
  root : Node
  anchored : List (Nat × Node)

/-- How often an alias may be followed when a document is read: a hundred times for every step of
the document. -/
def Document.aliasLimit (d : Document) : Nat := 100 * d.root.steps

/-- Tokens at which the content of a document has ended. -/
def isBoundary : Token → Bool
  | .versionDirective .. | .tagDirective .. | .documentStart | .documentEnd => true
  | _ => false

/-- The handles that every document knows. -/
def defaultHandles : List (String × Tag) := [("!", .bare), ("!!", .coreStart)]

/-- The only document of a text; none if the text is empty. -/
def Document.parse (text : String) : Except Fault (Option Document) := do
  let tokens ← tokens text
  let fuel := 4 * tokens.length + 8
  let start : Reading := { tokens, handles := defaultHandles }
  match tokens with
  | [] => return none
  | first :: _ =>
    let (root, r) ←
      if isBoundary first && first ≠ .documentEnd then do
        let r ← start.takeDirectives fuel false []
        match r.tokens with
        | .documentStart :: rest =>
          let r := { r with tokens := rest }
          match rest with
          | [] => pure (Node.empty, r)
          | next :: _ =>
            if isBoundary next then pure (Node.empty, r) else r.takeNode fuel true false
        | _ => throw .badDirective
      else start.takeNode fuel true false
    let rest := r.tokens.dropWhile fun t ↦ t == .documentEnd
    if rest.isEmpty then return some ⟨root, r.anchored⟩ else throw .severalDocuments

end RowAccess.Yaml
