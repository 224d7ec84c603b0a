import RowAccess.Yaml.Token

/-!
# The layout of YAML tokens

Indentation opens and closes block collections, and a colon makes a key of what stands before it
on the same line. So a scan keeps the columns of the open block collections, how many flow
collections are open, and for each of these the place of a token that may still turn out to be a
key. When it does, a key token, and possibly the start of a mapping, is put in front of it.

Tokens are collected in reverse, and a place is the number of tokens before it.
-/

namespace RowAccess.Yaml

/-- A token that may turn out to be a key: its place, where its text begins, and whether it must
be a key because it begins a line of a block mapping. -/
structure PendingKey where
  place : Nat
  offset : Nat
  line : Nat
  column : Nat
  required : Bool

/-- The state of a scan. -/
structure Layout where
  cursor : Cursor
  /-- The tokens so far, the last one first. -/
  tokens : List Token := []
  count : Nat := 0
  /-- The column of the innermost block collection, `-1` outside of any. -/
  indent : Int := -1
  /-- The columns of the block collections around it. -/
  outer : List Int := []
  /-- The possible key of the innermost flow collection, or of the block context. -/
  pending : Option PendingKey := none
  /-- The possible keys around it, one for each open flow collection. -/
  suspended : List (Option PendingKey) := []
  /-- Whether the next token may be a key. -/
  keyAllowed : Bool := true

namespace Layout

def inFlow (l : Layout) : Bool := !l.suspended.isEmpty

def emit (l : Layout) (token : Token) : Layout :=
  { l with tokens := token :: l.tokens, count := l.count + 1 }

/-- Add a token in front of the one at a place. -/
def emitAt (l : Layout) (place : Nat) (token : Token) : Layout :=
  { l with tokens := l.tokens.insertIdx (l.count - place) token, count := l.count + 1 }

/-- Whether a possible key is too far back to be one: on an earlier line, or more than 1024 octets
away. -/
def isStale (l : Layout) (key : PendingKey) : Bool :=
  key.line < l.cursor.line || key.offset + 1024 < l.cursor.offset

/-- Give up a possible key that is stale, unless it had to be one. -/
def refresh (l : Layout) : Option PendingKey → Except Fault (Option PendingKey)
  | some key =>
    if l.isStale key then (if key.required then .error .missingColon else .ok none)
    else .ok (some key)
  | none => .ok none

/-- Give up all possible keys that are stale. -/
def dropStale (l : Layout) : Except Fault Layout := do
  let suspended ← l.suspended.mapM l.refresh
  let pending ← l.refresh l.pending
  return { l with pending, suspended }

/-- Give up the innermost possible key. -/
def dropPending (l : Layout) : Except Fault Layout :=
  if l.pending.any fun key ↦ key.required then .error .missingColon
  else .ok { l with pending := none }

/-- Remember that the token at the cursor may be a key. -/
def savePending (l : Layout) : Except Fault Layout := do
  if l.keyAllowed then
    let key : PendingKey := ⟨l.count, l.cursor.offset, l.cursor.line, l.cursor.column,
      !l.inFlow && l.indent == l.cursor.column⟩
    let l ← l.dropPending
    return { l with pending := some key }
  else return l

/-- Open a block collection if a column is to the right of the innermost one. Its start goes in
front of the token at `place`, or to the end. -/
def openBlock (l : Layout) (column : Nat) (place : Option Nat) (start : Token) : Layout :=
  if !l.inFlow && l.indent < column then
    let l := { l with outer := l.indent :: l.outer, indent := column }
    match place with
    | some place => l.emitAt place start
    | none => l.emit start
  else l

/-- Close the block collections to the right of a column. -/
def closeBlocks (l : Layout) (column : Int) : Layout :=
  if l.inFlow then l else go l l.outer
where
  /-- One closing for each surrounding column. -/
  go (l : Layout) : List Int → Layout
    | [] => l
    | outer :: rest =>
      if column < l.indent then go { l.emit .blockEnd with indent := outer, outer := rest } rest
      else l

/-- Move over white space, comments and line breaks to the next token. Tabs count as white space
where no key may begin, and so does one byte order mark at the start of a line. The mark takes up
a column. -/
def skipToToken : (fuel : Nat) → Layout → Layout
  | 0, l => l
  | fuel + 1, l =>
    let s := l.cursor
    let s := if s.column == 0 && (s.peek 0).any isByteOrderMark then s.advance 1 else s
    let s := (s.skipRun fun c ↦ c == ' ' || ((l.inFlow || !l.keyAllowed) && c == '\t')).skipComment
    if s.atBreak then
      skipToToken fuel { l with cursor := s.skipBreak, keyAllowed := l.keyAllowed || !l.inFlow }
    else { l with cursor := s }

/-- Consume characters and add the token they make. -/
def take (l : Layout) (width : Nat) (token : Token) : Layout :=
  { l with cursor := l.cursor.advance width }.emit token

/-- A token that a reader found, with the cursor after it. -/
def accept (l : Layout) (found : Token × Cursor) : Layout :=
  { l with cursor := found.2 }.emit found.1

/-- The end of the text closes everything. -/
def finish (l : Layout) : Except Fault (List Token) := do
  let l ← (l.closeBlocks (-1)).dropPending
  return l.tokens.reverse

/-- A directive or a document marker stands outside of all collections. -/
def outermost (l : Layout) : Except Fault Layout := do
  let l ← (l.closeBlocks (-1)).dropPending
  return { l with keyAllowed := false }

/-- The start of a flow collection, which may itself be a key. -/
def openFlow (l : Layout) (start : Token) : Except Fault Layout := do
  let l ← l.savePending
  return { l with pending := none, suspended := l.pending :: l.suspended, keyAllowed := true }.take
    1 start

/-- The end of a flow collection. -/
def closeFlow (l : Layout) (stop : Token) : Except Fault Layout := do
  let l ← l.dropPending
  let l := match l.suspended with
    | pending :: suspended => { l with pending, suspended }
    | [] => l
  return { l with keyAllowed := false }.take 1 stop

/-- A comma. -/
def flowEntry (l : Layout) : Except Fault Layout := do
  let l ← l.dropPending
  return { l with keyAllowed := true }.take 1 .flowEntry

/-- A hyphen that begins an item of a block sequence. -/
def blockEntry (l : Layout) : Except Fault Layout := do
  if !l.inFlow && !l.keyAllowed then throw .misplacedEntry
  let l ← (l.openBlock l.cursor.column none .blockSequenceStart).dropPending
  return { l with keyAllowed := true }.take 1 .blockEntry

/-- A question mark that begins a key. -/
def explicitKey (l : Layout) : Except Fault Layout := do
  if !l.inFlow && !l.keyAllowed then throw .misplacedEntry
  let l ← (l.openBlock l.cursor.column none .blockMappingStart).dropPending
  return { l with keyAllowed := !l.inFlow }.take 1 .key

/-- A colon that begins a value. What stands before it becomes a key, if it can. -/
def valueIndicator (l : Layout) : Except Fault Layout :=
  match l.pending with
  | some key =>
    let l := l.emitAt key.place .key
    let l := l.openBlock key.column (some key.place) .blockMappingStart
    .ok ({ l with pending := none, keyAllowed := false }.take 1 .value)
  | none =>
    if !l.inFlow && !l.keyAllowed then .error .misplacedEntry
    else
      let l := l.openBlock l.cursor.column none .blockMappingStart
      .ok ({ l with keyAllowed := !l.inFlow }.take 1 .value)

/-- A token that may be a key, found by a reader. -/
def keyLike (l : Layout) (read : Cursor → Except Fault (Token × Cursor)) :
    Except Fault Layout := do
  let l ← l.savePending
  let found ← read l.cursor
  return { l with keyAllowed := false }.accept found

/-- A block scalar is never a key. -/
def blockScalar (l : Layout) (folded : Bool) : Except Fault Layout := do
  let l ← l.dropPending
  let found ← takeBlockScalar l.cursor folded l.indent
  return { l with keyAllowed := true }.accept found

/-- A plain scalar. A key may follow it if it ends on a later line. -/
def plainScalar (l : Layout) : Except Fault Layout := do
  let l ← l.savePending
  let (token, broken, cursor) ← takePlainScalar l.cursor l.inFlow l.indent
  return { l with keyAllowed := broken }.accept (token, cursor)

/-- Whether a plain scalar may begin at a cursor. -/
def startsPlain (s : Cursor) (c : Char) (inFlow : Bool) : Bool :=
  !(c == '-' || c == '?' || c == ':' || c == ',' || c == '[' || c == ']' || c == '\x7b' ||
      c == '\x7d' || c == '#' || c == '&' || c == '*' || c == '!' || c == '|' || c == '>' ||
      c == '\'' || c == '"' || c == '%' || c == '@' || c.toNat == 0x60 || isSpace c) ||
    (c == '-' && !(s.peek 1).any isSpace) ||
    (!inFlow && (c == '?' || c == ':') && !s.blankAt 1)

/-- The next token, which begins with a given character. -/
def step (l : Layout) (c : Char) : Except Fault Layout :=
  let s := l.cursor
  if s.column == 0 && c == '%' then do
    let l ← l.outermost
    let found ← takeDirective s
    return l.accept found
  else if s.atMarker '-' then do return (← l.outermost).take 3 .documentStart
  else if s.atMarker '.' then do return (← l.outermost).take 3 .documentEnd
  else if c == '[' then l.openFlow .flowSequenceStart
  else if c == '\x7b' then l.openFlow .flowMappingStart
  else if c == ']' then l.closeFlow .flowSequenceEnd
  else if c == '\x7d' then l.closeFlow .flowMappingEnd
  else if c == ',' then l.flowEntry
  else if c == '-' && s.blankAt 1 then l.blockEntry
  else if c == '?' && (l.inFlow || s.blankAt 1) then l.explicitKey
  else if c == ':' && (l.inFlow || s.blankAt 1) then l.valueIndicator
  else if c == '*' then l.keyLike fun s ↦ do
    let (name, s) ← takeAnchorName s
    return (.alias name, s)
  else if c == '&' then l.keyLike fun s ↦ do
    let (name, s) ← takeAnchorName s
    return (.anchor name, s)
  else if c == '!' then l.keyLike fun s ↦ takeTag s l.inFlow
  else if c == '|' && !l.inFlow then l.blockScalar false
  else if c == '>' && !l.inFlow then l.blockScalar true
  else if c == '\'' then l.keyLike fun s ↦ takeFlowScalar s false
  else if c == '"' then l.keyLike fun s ↦ takeFlowScalar s true
  else if startsPlain s c l.inFlow then l.plainScalar
  else .error (.strayIndicator c)

/-- All tokens of a text. -/
def run : (fuel : Nat) → Layout → Except Fault (List Token)
  | 0, l => l.finish
  | fuel + 1, l => do
    let l ← (skipToToken (l.cursor.rest.length + 1) l).dropStale
    let l := l.closeBlocks l.cursor.column
    match l.cursor.peek 0 with
    | none =>
      let cursor := l.cursor
      { l with cursor := if cursor.column = 0 then cursor
                else { cursor with column := 0, line := cursor.line + 1 } }.finish
    | some c =>
      let l ← l.step c
      run fuel l

end Layout

/-- A character that may stand in a YAML text. -/
def isAllowed (c : Char) : Bool :=
  let n := c.toNat
  n == 9 || n == 10 || n == 13 || (0x20 ≤ n && n ≤ 0x7E) || n == 0x85 ||
    (0xA0 ≤ n && n ≤ 0xD7FF) || (0xE000 ≤ n && n ≤ 0xFFFD) || 0x10000 ≤ n

/-- The tokens of a text. -/
def tokens (text : String) : Except Fault (List Token) :=
  let cs := text.toList
  if cs.all isAllowed then Layout.run (cs.length + 1) { cursor := { rest := cs } }
  else .error .controlCharacter

end RowAccess.Yaml
