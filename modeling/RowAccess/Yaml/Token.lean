import RowAccess.Text.Integer
import RowAccess.Yaml.Cursor
import RowAccess.Yaml.Tag

/-!
# YAML tokens

A YAML text is a sequence of tokens: markers of documents and collections, indicators, anchors,
tags and scalars. This module has the token type and the readers of those tokens that have an
inner structure; where tokens begin, and how indentation makes collections, is a matter of the
layout.

Scalars fold their lines: inside a flow or plain scalar a single line break is a space, and a
longer gap keeps all breaks but the first. Every reader is bounded by the length of the text.
-/

namespace RowAccess.Yaml

/-- How a scalar is written. -/
inductive Style where
  | plain
  | quoted
  | literal
  | folded
  deriving DecidableEq, Repr

/-- A unit of YAML text. -/
inductive Token where
  | versionDirective (major minor : Nat)
  | tagDirective (handle : String) (start : Tag)
  | documentStart
  | documentEnd
  | blockSequenceStart
  | blockMappingStart
  | blockEnd
  | flowSequenceStart
  | flowSequenceEnd
  | flowMappingStart
  | flowMappingEnd
  | blockEntry
  | flowEntry
  | key
  | value
  | alias (name : String)
  | anchor (name : String)
  | tag (handle : String) (suffix : Tag)
  | scalar (text : String) (style : Style)
  deriving DecidableEq, Repr

/-- A name after the indicator of an anchor or an alias. -/
def takeAnchorName (s : Cursor) : Except Fault (String × Cursor) :=
  let (name, s) := (s.advance 1).takeRun isWord
  let ends := s.blankAt 0 || (s.peek 0).any fun c ↦
    c == '?' || c == ':' || c == ',' || c == ']' || c == '\x7d' || c == '%' || c == '@' ||
      c.toNat == 0x60
  if name.isEmpty || !ends then .error .badAnchor else .ok (String.ofList name, s)

/-- A character that may stand in a tag. -/
def isUriChar (verbatim : Bool) (c : Char) : Bool :=
  isWord c || ";/?:@&=+$.%!~*()".toList.contains c || c.toNat == 0x27 ||
    (verbatim && (c == ',' || c == '[' || c == ']'))

/-- The text of a tag, with what was read of it already, whose exclamation mark does not count. At
least one character is needed in all. -/
def takeUri (s : Cursor) (verbatim : Bool) (head : List Char) : Except Fault (Tag × Cursor) :=
  let (text, s) := s.takeRun (isUriChar verbatim)
  if head.isEmpty && text.isEmpty then .error .badTag
  else
    match Tag.ofEscaped? (head.drop 1 ++ text) with
    | some tag => .ok (tag, s)
    | none => .error .badTag

/-- A handle: an exclamation mark, and possibly a name and another exclamation mark. -/
def takeHandle (s : Cursor) (directive : Bool) : Except Fault (List Char × Cursor) :=
  if !s.at? '!' 0 then .error .badTag
  else
    let (name, s) := (s.advance 1).takeRun isWord
    if s.at? '!' 0 then .ok ('!' :: name ++ ['!'], s.advance 1)
    else if directive && !name.isEmpty then .error .badTag
    else .ok ('!' :: name, s)

/-- A tag: verbatim between angle brackets, a handle with a suffix, or a suffix alone, whose
handle is the exclamation mark. The exclamation mark alone is a tag without a handle. -/
def takeTag (s : Cursor) (inFlow : Bool) : Except Fault (Token × Cursor) := do
  let (token, s) ←
    if s.at? '<' 1 then do
      let (suffix, s) ← takeUri (s.advance 2) true []
      if s.at? '>' 0 then pure (Token.tag "" suffix, s.advance 1) else throw .badTag
    else do
      let (handle, s) ← takeHandle s false
      if 1 < handle.length && handle.getLast? == some '!' then
        let (suffix, s) ← takeUri s false []
        pure (Token.tag (String.ofList handle) suffix, s)
      else
        let (suffix, s) ← takeUri s false handle
        if suffix.isEmpty then pure (Token.tag "" .bare, s) else pure (Token.tag "!" suffix, s)
  if s.blankAt 0 || (inFlow && s.at? ',' 0) then return (token, s) else throw .badTag

/-- A number of at most nine digits. -/
def takeVersionPart (s : Cursor) : Except Fault (Nat × Cursor) :=
  let (digits, s) := s.takeRun Text.isDigit
  if digits.isEmpty || 9 < digits.length then .error .badDirective
  else .ok (Text.digitsValue digits, s)

/-- A directive of either kind, to the end of its line. -/
def takeDirective (s : Cursor) : Except Fault (Token × Cursor) := do
  let (name, s) := (s.advance 1).takeRun isWord
  if name.isEmpty || !s.blankAt 0 then throw .badDirective
  let s := s.skipRun isSpace
  let (token, s) ←
    if String.ofList name == "YAML" then do
      let (major, s) ← takeVersionPart s
      if !s.at? '.' 0 then throw .badDirective
      let (minor, s) ← takeVersionPart (s.advance 1)
      pure (Token.versionDirective major minor, s)
    else if String.ofList name == "TAG" then do
      let (handle, s) ← takeHandle s true
      if !(s.peek 0).any isSpace then throw .badDirective
      let (start, s) ← takeUri (s.skipRun isSpace) true []
      if !s.blankAt 0 then throw .badDirective
      pure (Token.tagDirective (String.ofList handle) start, s)
    else throw .badDirective
  let s := (s.skipRun isSpace).skipComment
  if s.atBreakOrEnd then return (token, s.skipBreak) else throw .badDirective

/-! ## Block scalars -/

/-- The header of a block scalar after its indicator: whether trailing breaks are dropped
(`some false`), kept (`some true`) or clipped to one, and the explicit indentation. -/
def takeBlockHeader (s : Cursor) : Except Fault (Option Bool × Nat × Cursor) := do
  let chomping (s : Cursor) : Option Bool × Cursor :=
    if s.at? '+' 0 then (some true, s.advance 1)
    else if s.at? '-' 0 then (some false, s.advance 1)
    else (none, s)
  let indentation (s : Cursor) : Except Fault (Nat × Cursor) :=
    match s.peek 0 with
    | some c =>
      if c == '0' then .error .badBlockHeader
      else if Text.isDigit c then .ok (Text.digitValue c, s.advance 1)
      else .ok (0, s)
    | none => .ok (0, s)
  let (chomp, s) := chomping s
  let (indent, s) ← indentation s
  let (chomp, s) := if chomp.isNone && indent ≠ 0 then chomping s else (chomp, s)
  let s := (s.skipRun isSpace).skipComment
  if s.atBreakOrEnd then return (chomp, indent, s.skipBreak) else throw .badBlockHeader

/-- Indentation and empty lines before a line of a block scalar: the breaks, the greatest column
reached, and the cursor. An indentation of zero is not yet known. -/
def takeBlockBreaks (indent : Nat) : (fuel : Nat) → (breaks : List Char) → (deepest : Nat) →
    Cursor → Except Fault (List Char × Nat × Cursor)
  | 0, breaks, deepest, s => .ok (breaks, deepest, s)
  | fuel + 1, breaks, deepest, s =>
    let spaces := (s.rest.takeWhile (· == ' ')).length
    let s := s.advance (if indent = 0 then spaces else min spaces (indent - s.column))
    let deepest := max deepest s.column
    if (indent = 0 || s.column < indent) && s.at? '\t' 0 then .error .tabAsIndentation
    else if s.atBreak then
      let (b, s) := s.takeBreak
      takeBlockBreaks indent fuel (breaks ++ b) deepest s
    else .ok (breaks, deepest, s)

/-- The lines of a block scalar. `leading` is the break before the next line, `trailing` are the
empty lines after it, and `blankBefore` says that the last line began with white space, around
which breaks are not folded. -/
def takeBlockLines (folded : Bool) (indent : Nat) : (fuel : Nat) → (text leading trailing :
    List Char) → (blankBefore : Bool) → Cursor →
    Except Fault (List Char × List Char × List Char × Cursor)
  | 0, text, leading, trailing, _, s => .ok (text, leading, trailing, s)
  | fuel + 1, text, leading, trailing, blankBefore, s =>
    if s.column == indent && !s.atEnd then
      let blank := (s.peek 0).any isSpace
      let joint :=
        if folded && leading == ['\n'] && !blankBefore && !blank then
          if trailing.isEmpty then [' '] else []
        else leading
      let (line, s) := s.takeRun fun c ↦ !isBreak c
      let (leading, s) := s.takeBreak
      match takeBlockBreaks indent (s.rest.length + 1) [] 0 s with
      | .error fault => .error fault
      | .ok (breaks, _, s) =>
        takeBlockLines folded indent fuel (text ++ joint ++ trailing ++ line) leading breaks blank s
    else .ok (text, leading, trailing, s)

/-- A block scalar from its indicator on, inside a collection of the given indentation. -/
def takeBlockScalar (s : Cursor) (folded : Bool) (parentIndent : Int) :
    Except Fault (Token × Cursor) := do
  let (chomp, increment, s) ← takeBlockHeader (s.advance 1)
  let indent := if increment = 0 then 0 else (max parentIndent 0).toNat + increment
  let (breaks, deepest, s) ← takeBlockBreaks indent (s.rest.length + 1) [] 0 s
  let indent := if indent = 0 then max (max deepest (parentIndent + 1).toNat) 1 else indent
  let (text, leading, trailing, s) ←
    takeBlockLines folded indent (s.rest.length + 1) [] [] breaks false s
  let tail := match chomp with
    | some false => []
    | none => leading
    | some true => leading ++ trailing
  return (.scalar (String.ofList (text ++ tail)) (if folded then .folded else .literal), s)

/-! ## Flow scalars -/

/-- The white space between two words of a scalar: blanks on one line, or the first break and the
further breaks. -/
structure Gap where
  blanks : List Char := []
  leading : List Char := []
  trailing : List Char := []
  broken : Bool := false

/-- What a gap contributes to the text: blanks as they are, one break as a space, several breaks
without the first one. -/
def Gap.fold (g : Gap) : List Char :=
  if g.broken then
    if g.leading == ['\n'] then (if g.trailing.isEmpty then [' '] else g.trailing)
    else g.leading ++ g.trailing
  else g.blanks

/-- The white space at a cursor. Plain scalars in blocks pass their least indentation, below which
no tab may stand at the start of a line. -/
def takeGap (tabLimit : Int) : (fuel : Nat) → Gap → Cursor → Except Fault (Gap × Cursor)
  | 0, g, s => .ok (g, s)
  | fuel + 1, g, s =>
    match s.peek 0 with
    | none => .ok (g, s)
    | some c =>
      if isSpace c then
        if g.broken then
          if c == '\t' && (s.column : Int) < tabLimit then .error .tabAsIndentation
          else takeGap tabLimit fuel g (s.advance 1)
        else takeGap tabLimit fuel { g with blanks := g.blanks ++ [c] } (s.advance 1)
      else if isBreak c then
        let (b, s) := s.takeBreak
        if g.broken then takeGap tabLimit fuel { g with trailing := g.trailing ++ b } s
        else takeGap tabLimit fuel { g with blanks := [], leading := b, broken := true } s
      else .ok (g, s)

/-- The character of an escape by one letter inside double quotes. -/
def simpleEscape? (c : Char) : Option Char :=
  match c with
  | '0' => some (Char.ofNat 0)
  | 'a' => some (Char.ofNat 7)
  | 'b' => some (Char.ofNat 8)
  | 't' => some '\t'
  | '\t' => some '\t'
  | 'n' => some '\n'
  | 'v' => some (Char.ofNat 11)
  | 'f' => some (Char.ofNat 12)
  | 'r' => some '\r'
  | 'e' => some (Char.ofNat 27)
  | ' ' => some ' '
  | '"' => some '"'
  | '/' => some '/'
  | '\\' => some '\\'
  | 'N' => some (Char.ofNat 0x85)
  | '_' => some (Char.ofNat 0xA0)
  | 'L' => some (Char.ofNat 0x2028)
  | 'P' => some (Char.ofNat 0x2029)
  | _ => none

/-- How many hexadecimal digits follow the letter of an escape by code point. -/
def escapeWidth? (c : Char) : Option Nat :=
  if c == 'x' then some 2 else if c == 'u' then some 4 else if c == 'U' then some 8 else none

/-- An escape inside double quotes, the backslash included. -/
def takeEscape (s : Cursor) : Except Fault (Char × Cursor) :=
  match s.peek 1 with
  | none => .error .badEscape
  | some letter =>
    match simpleEscape? letter, escapeWidth? letter with
    | some c, _ => .ok (c, s.advance 2)
    | none, some width =>
      let digits := (s.rest.drop 2).take width
      let values := digits.filterMap Text.hexValue?
      let code := values.foldl (fun n d ↦ n * 16 + d) 0
      if values.length ≠ width || (0xD800 ≤ code && code ≤ 0xDFFF) || 0x10FFFF < code then
        .error .badEscape
      else .ok (Char.ofNat code, s.advance (2 + width))
    | none, none => .error .badEscape

/-- The characters up to white space or the closing quote. A backslash at the end of a line joins
it to the next one, which the result says by a broken gap. -/
def takeQuotedWord (double : Bool) : (fuel : Nat) → (text : List Char) → Cursor →
    Except Fault (List Char × Bool × Cursor)
  | 0, text, s => .ok (text, false, s)
  | fuel + 1, text, s =>
    match s.peek 0 with
    | none => .ok (text, false, s)
    | some c =>
      if isSpace c || isBreak c then .ok (text, false, s)
      else if double then
        if c == '"' then .ok (text, false, s)
        else if c == '\\' then
          if (s.peek 1).any isBreak then .ok (text, true, (s.advance 1).skipBreak)
          else
            match takeEscape s with
            | .error fault => .error fault
            | .ok (c, s) => takeQuotedWord double fuel (text ++ [c]) s
        else takeQuotedWord double fuel (text ++ [c]) (s.advance 1)
      else if c == '\'' then
        if s.at? '\'' 1 then takeQuotedWord double fuel (text ++ [c]) (s.advance 2)
        else .ok (text, false, s)
      else takeQuotedWord double fuel (text ++ [c]) (s.advance 1)

/-- A quoted scalar after its opening quote. -/
def takeQuoted (double : Bool) : (fuel : Nat) → (text : List Char) → Cursor →
    Except Fault (List Char × Cursor)
  | 0, _, _ => .error .unexpectedEnd
  | fuel + 1, text, s =>
    if s.atDocumentMarker || s.atEnd then .error .unexpectedEnd
    else
      match takeQuotedWord double (s.rest.length + 1) text s with
      | .error fault => .error fault
      | .ok (text, joined, s) =>
        if s.at? (if double then '"' else '\'') 0 then .ok (text, s.advance 1)
        else
          match takeGap 0 (s.rest.length + 1) { broken := joined } s with
          | .error fault => .error fault
          | .ok (gap, s) => takeQuoted double fuel (text ++ gap.fold) s

/-- A scalar in quotes of either kind. -/
def takeFlowScalar (s : Cursor) (double : Bool) : Except Fault (Token × Cursor) := do
  let (text, s) ← takeQuoted double (s.rest.length + 1) [] (s.advance 1)
  return (.scalar (String.ofList text) .quoted, s)

/-! ## Plain scalars -/

/-- Whether a plain scalar ends before the character at a cursor: at a colon before white space,
and inside flow collections at their indicators. -/
def endsPlain (inFlow : Bool) (s : Cursor) : Bool :=
  (s.at? ':' 0 && s.blankAt 1) ||
    (inFlow && (s.peek 0).any fun c ↦
      c == ',' || c == '[' || c == ']' || c == '\x7b' || c == '\x7d')

/-- Whether a colon inside a flow collection stands before an indicator, where it is neither part
of a plain scalar nor a value indicator. -/
def strayColon (inFlow : Bool) (s : Cursor) : Bool :=
  inFlow && s.at? ':' 0 && (s.peek 1).any fun c ↦
    c == ',' || c == '?' || c == '[' || c == ']' || c == '\x7b' || c == '\x7d'

/-- The characters of a plain scalar up to white space or its end. -/
def takePlainWord (inFlow : Bool) : (fuel : Nat) → (word : List Char) → Cursor →
    Except Fault (List Char × Cursor)
  | 0, word, s => .ok (word, s)
  | fuel + 1, word, s =>
    if s.blankAt 0 then .ok (word, s)
    else if strayColon inFlow s then .error (.strayIndicator ':')
    else if endsPlain inFlow s then .ok (word, s)
    else takePlainWord inFlow fuel (word ++ (s.peek 0).toList) (s.advance 1)

/-- The words of a plain scalar. The result says whether a line break was crossed after the last
word. -/
def takePlainWords (inFlow : Bool) (indent : Int) : (fuel : Nat) → (text : List Char) → Gap →
    Cursor → Except Fault (List Char × Bool × Cursor)
  | 0, text, gap, s => .ok (text, gap.broken, s)
  | fuel + 1, text, gap, s =>
    if s.atDocumentMarker || s.at? '#' 0 then .ok (text, gap.broken, s)
    else
      match takePlainWord inFlow (s.rest.length + 1) [] s with
      | .error fault => .error fault
      | .ok (word, s) =>
        let text := if word.isEmpty then text else text ++ gap.fold ++ word
        let gap := if word.isEmpty then gap else {}
        if s.atEnd || !s.blankAt 0 then .ok (text, gap.broken, s)
        else
          match takeGap indent (s.rest.length + 1) gap s with
          | .error fault => .error fault
          | .ok (gap, s) =>
            if !inFlow && (s.column : Int) < indent then .ok (text, gap.broken, s)
            else takePlainWords inFlow indent fuel text gap s

/-- A plain scalar inside a collection of the given indentation, and whether its end lies on a
later line than its last word. -/
def takePlainScalar (s : Cursor) (inFlow : Bool) (parentIndent : Int) :
    Except Fault (Token × Bool × Cursor) := do
  let (text, broken, s) ←
    takePlainWords inFlow (parentIndent + 1) (s.rest.length + 1) [] {} s
  return (.scalar (String.ofList text) .plain, broken, s)

end RowAccess.Yaml
