/-!
# Positions in a YAML text

A cursor is the rest of a text with the place where it stands. Line breaks are the ASCII ones, the
next-line character and the two Unicode separators; a carriage return and a line feed together are
one break. Every way to move forward goes through `advance` or `skipBreak`, so the column is always
the number of characters since the last break, and the offset the number of octets that the text
so far takes in UTF-8.
-/

namespace RowAccess.Yaml

/-- What makes a text no YAML document. -/
inductive Fault where
  | controlCharacter
  | unexpectedEnd
  | badDirective
  | badAnchor
  | badTag
  | badEscape
  | badBlockHeader
  | tabAsIndentation
  | strayIndicator (found : Char)
  | missingColon
  | misplacedEntry
  | unexpectedToken
  | unknownAnchor (name : String)
  | unknownHandle (handle : String)
  | severalDocuments
  | tooDeep
  deriving DecidableEq, Repr

/-- The wording of a fault. -/
def Fault.message : Fault → String
  | controlCharacter => "control characters are not allowed"
  | unexpectedEnd => "found unexpected end of stream"
  | badDirective => "did not find expected directive"
  | badAnchor => "did not find expected alphabetic or numeric character"
  | badTag => "did not find expected tag URI"
  | badEscape => "found unknown escape character"
  | badBlockHeader => "did not find expected comment or line break"
  | tabAsIndentation => "found a tab character where indentation is expected"
  | strayIndicator found => "found character that cannot start any token: " ++ found.toString
  | missingColon => "could not find expected ':'"
  | misplacedEntry => "entries are not allowed in this context"
  | unexpectedToken => "did not find expected node content"
  | unknownAnchor name => "unknown anchor " ++ name
  | unknownHandle handle => "found undefined tag handle " ++ handle
  | severalDocuments => "more than one document"
  | tooDeep => "recursion limit exceeded"

/-- The rest of a text and its place: octets from the start, line, and column. -/
structure Cursor where
  rest : List Char
  offset : Nat := 0
  line : Nat := 0
  column : Nat := 0

def isBreak (c : Char) : Bool :=
  c == '\r' || c == '\n' || c.toNat == 0x85 || c.toNat == 0x2028 || c.toNat == 0x2029

def isSpace (c : Char) : Bool := c == ' ' || c == '\t'

def isByteOrderMark (c : Char) : Bool := c.toNat == 0xFEFF

/-- How many octets characters take in UTF-8. -/
def octetCount : List Char → Nat
  | [] => 0
  | c :: rest => c.utf8Size + octetCount rest

/-- A character of names: ASCII letters, digits, hyphen and underscore. -/
def isWord (c : Char) : Bool := c.isAlphanum || c == '-' || c == '_'

namespace Cursor

/-- The character at a distance, none at the end of the text. -/
def peek (s : Cursor) (distance : Nat) : Option Char := s.rest[distance]?

def at? (s : Cursor) (c : Char) (distance : Nat) : Bool := s.peek distance == some c

/-- Whether a space, a tab, a line break or the end of the text stands at a distance. -/
def blankAt (s : Cursor) (distance : Nat) : Bool :=
  (s.peek distance).all fun c ↦ isSpace c || isBreak c

def atEnd (s : Cursor) : Bool := s.rest.isEmpty

def atBreak (s : Cursor) : Bool := (s.peek 0).any isBreak

def atBreakOrEnd (s : Cursor) : Bool := (s.peek 0).all isBreak

/-- Whether a document marker made of three characters stands at the start of a line. -/
def atMarker (s : Cursor) (c : Char) : Bool :=
  s.column == 0 && s.at? c 0 && s.at? c 1 && s.at? c 2 && s.blankAt 3

def atDocumentMarker (s : Cursor) : Bool := s.atMarker '-' || s.atMarker '.'

/-- The cursor after some characters of the same line. -/
def advance (s : Cursor) (count : Nat) : Cursor :=
  { s with
    rest := s.rest.drop count
    offset := s.offset + octetCount (s.rest.take count)
    column := s.column + count }

/-- The longest run of characters of a class, and the cursor after it. -/
def takeRun (s : Cursor) (p : Char → Bool) : List Char × Cursor :=
  let run := s.rest.takeWhile p
  (run, s.advance run.length)

/-- The cursor after the longest run of characters of a class. -/
def skipRun (s : Cursor) (p : Char → Bool) : Cursor := (s.takeRun p).2

/-- The cursor after a line break, if one stands here. -/
def skipBreak (s : Cursor) : Cursor :=
  if s.atBreak then
    let width := if s.at? '\r' 0 && s.at? '\n' 1 then 2 else 1
    { rest := s.rest.drop width
      offset := s.offset + octetCount (s.rest.take width)
      line := s.line + 1
      column := 0 }
  else s

/-- The line break that stands here, as it is kept in a scalar: the Unicode separators as
themselves, every other break as a line feed. -/
def takeBreak (s : Cursor) : List Char × Cursor :=
  match s.peek 0 with
  | some c =>
    if isBreak c then
      ([if c.toNat == 0x2028 || c.toNat == 0x2029 then c else '\n'], s.skipBreak)
    else ([], s)
  | none => ([], s)

/-- The cursor after a comment, if one starts here. -/
def skipComment (s : Cursor) : Cursor :=
  if s.at? '#' 0 then s.skipRun fun c ↦ !isBreak c else s

end Cursor

end RowAccess.Yaml
