import RowAccess.Json.Basic
import RowAccess.Number.Literal

/-!
# Reading JSON text

The reader accepts exactly the JSON grammar, with these limits: arrays and objects nest at most
127 deep, a number must be finite, and a string may hold no control characters and no unpaired
surrogates. A repeated key keeps its first place and its last value. The recursion is bounded by
the length of the text, since every step consumes a character.
-/

namespace RowAccess.Json

def skipBlanks (cs : List Char) : List Char :=
  cs.dropWhile fun c ↦ c == ' ' || c == '\n' || c == '\t' || c == '\r'

/-- Digits taken into a word of 64 bits for as long as it holds them: the word, how many digits
went in, and the digits left over. -/
def absorb (word : Nat) : List Char → Nat × Nat × List Char
  | [] => (word, 0, [])
  | c :: cs =>
    let next := word * 10 + Text.digitValue c
    if next ≤ Text.nat64Max then
      let (word, taken, rest) := absorb next cs
      (word, taken + 1, rest)
    else (word, 0, c :: cs)

/-- The parts of a number literal. -/
structure Literal where
  negative : Bool
  whole : List Char
  fraction : Option (List Char)
  exponent : Option Int

/-- An exponent mark with its digits, if the text starts with a mark; a mark without digits is an
error. -/
def takeExponent? (cs : List Char) : Option (Option Int × List Char) :=
  match cs with
  | [] => some (none, [])
  | mark :: rest =>
    if mark == 'e' || mark == 'E' then
      let (negative, rest) := match rest with
        | '-' :: more => (true, more)
        | '+' :: more => (false, more)
        | more => (false, more)
      let digits := rest.takeWhile Text.isDigit
      if digits.isEmpty then none
      else
        let magnitude : Int := Text.digitsValue digits
        some (some (if negative then -magnitude else magnitude), rest.dropWhile Text.isDigit)
    else some (none, cs)

/-- The number literal at the start of a text. A whole part has no leading zeros. -/
def takeLiteral? (cs : List Char) : Option (Literal × List Char) :=
  let (negative, cs) := match cs with
    | '-' :: rest => (true, rest)
    | cs => (false, cs)
  let whole := cs.takeWhile Text.isDigit
  let rest := cs.dropWhile Text.isDigit
  if whole.isEmpty || (1 < whole.length && whole.head? == some '0') then none
  else
    match rest with
    | '.' :: more =>
      let fraction := more.takeWhile Text.isDigit
      if fraction.isEmpty then none
      else (takeExponent? (more.dropWhile Text.isDigit)).map fun (exponent, rest) ↦
        (⟨negative, whole, some fraction, exponent⟩, rest)
    | rest => (takeExponent? rest).map fun (exponent, rest) ↦
        (⟨negative, whole, none, exponent⟩, rest)

/-- The value of a literal: an integer if it is written as one and fits, else a float. Zero with a
minus sign is a float. -/
def Literal.value? (l : Literal) : Option Number :=
  let (word, _, overflow) := absorb 0 l.whole
  let isWhole := l.fraction.isNone && l.exponent.isNone && overflow.isEmpty
  if isWhole && !l.negative then some (.int word)
  else if isWhole && 0 < word && word ≤ twoTo 63 then some (.int (-(word : Int)))
  else
    let (word, taken, _) := absorb word (l.fraction.getD [])
    let places : Int := (overflow.length : Int) - taken
    let exponent := l.exponent.getD 0
    let tooLarge := (2147483648 : Int) ≤ exponent.natAbs
    if tooLarge then
      if word ≠ 0 && 0 < exponent then none else some (.float (Binary64.zero l.negative))
    else (Binary64.ofScaled? l.negative word (places + exponent)).map .float

/-- Four hexadecimal digits. -/
def takeHex4? : List Char → Option (Nat × List Char)
  | a :: b :: c :: d :: rest => do
    let a ← Text.hexValue? a
    let b ← Text.hexValue? b
    let c ← Text.hexValue? c
    let d ← Text.hexValue? d
    some (((a * 16 + b) * 16 + c) * 16 + d, rest)
  | _ => none

/-- The character of an escape by code units: one unit, or a pair of surrogates. -/
def takeUnicode? (cs : List Char) : Option (Char × List Char) :=
  match takeHex4? cs with
  | none => none
  | some (unit, rest) =>
    if 0xD800 ≤ unit && unit < 0xDC00 then
      match rest with
      | '\\' :: 'u' :: rest =>
        match takeHex4? rest with
        | some (low, rest) =>
          if 0xDC00 ≤ low && low < 0xE000 then
            some (Char.ofNat (0x10000 + (unit - 0xD800) * 0x400 + (low - 0xDC00)), rest)
          else none
        | none => none
      | _ => none
    else if 0xDC00 ≤ unit && unit < 0xE000 then none
    else some (Char.ofNat unit, rest)

/-- The character of an escape by one letter. -/
def simpleEscape? : Char → Option Char
  | '"' => some '"'
  | '\\' => some '\\'
  | '/' => some '/'
  | 'b' => some (Char.ofNat 8)
  | 'f' => some (Char.ofNat 12)
  | 'n' => some '\n'
  | 'r' => some '\r'
  | 't' => some '\t'
  | _ => none

/-- The rest of a string after its opening quote. The characters read so far are kept in reverse. -/
def takeString? : (fuel : Nat) → (done : List Char) → List Char → Option (String × List Char)
  | 0, _, _ => none
  | _ + 1, _, [] => none
  | fuel + 1, done, c :: rest =>
    if c == '"' then some (String.ofList done.reverse, rest)
    else if c == '\\' then
      match rest with
      | 'u' :: rest =>
        match takeUnicode? rest with
        | some (c, rest) => takeString? fuel (c :: done) rest
        | none => none
      | e :: rest =>
        match simpleEscape? e with
        | some c => takeString? fuel (c :: done) rest
        | none => none
      | [] => none
    else if c.toNat < 32 then none
    else takeString? fuel (c :: done) rest

def takeWord? (word : String) (value : Json) (cs : List Char) : Option (Json × List Char) :=
  if word.toList.isPrefixOf cs then some (value, cs.drop word.length) else none

mutual

/-- The value at the start of a text, after white space. `depth` counts the arrays and objects
that may still be opened. -/
def takeValue? : (fuel depth : Nat) → List Char → Option (Json × List Char)
  | 0, _, _ => none
  | fuel + 1, depth, cs =>
    match skipBlanks cs with
    | [] => none
    | '"' :: rest => (takeString? (rest.length + 1) [] rest).map fun (s, rest) ↦ (.text s, rest)
    | '[' :: rest =>
      match depth with
      | 0 => none
      | depth + 1 =>
        match skipBlanks rest with
        | ']' :: rest => some (.array [], rest)
        | rest => (takeItems? fuel depth [] rest).map fun (items, rest) ↦ (.array items, rest)
    | '\x7b' :: rest =>
      match depth with
      | 0 => none
      | depth + 1 =>
        match skipBlanks rest with
        | '\x7d' :: rest => some (.object [], rest)
        | rest => (takeFields? fuel depth .empty rest).map fun (fields, rest) ↦
            (.object fields.entries, rest)
    | c :: rest =>
      if c == 't' then takeWord? "true" (.bool true) (c :: rest)
      else if c == 'f' then takeWord? "false" (.bool false) (c :: rest)
      else if c == 'n' then takeWord? "null" .null (c :: rest)
      else
        match takeLiteral? (c :: rest) with
        | some (literal, rest) => literal.value?.map fun n ↦ (.number n, rest)
        | none => none

/-- The items of a nonempty array up to its closing bracket. The items read so far are kept in
reverse. -/
def takeItems? : (fuel depth : Nat) → (done : List Json) → List Char →
    Option (List Json × List Char)
  | 0, _, _, _ => none
  | fuel + 1, depth, done, cs =>
    match takeValue? fuel depth cs with
    | none => none
    | some (item, rest) =>
      match skipBlanks rest with
      | ',' :: rest => takeItems? fuel depth (item :: done) rest
      | ']' :: rest => some ((item :: done).reverse, rest)
      | _ => none

/-- The fields of a nonempty object up to its closing brace. -/
def takeFields? : (fuel depth : Nat) → (done : Ordered Json) → List Char →
    Option (Ordered Json × List Char)
  | 0, _, _, _ => none
  | fuel + 1, depth, done, cs =>
    match skipBlanks cs with
    | '"' :: rest =>
      match takeString? (rest.length + 1) [] rest with
      | none => none
      | some (name, rest) =>
        match skipBlanks rest with
        | ':' :: rest =>
          match takeValue? fuel depth rest with
          | none => none
          | some (value, rest) =>
            match skipBlanks rest with
            | ',' :: rest => takeFields? fuel depth (done.insert name value) rest
            | '\x7d' :: rest => some (done.insert name value, rest)
            | _ => none
        | _ => none
    | _ => none

end

/-- How deep arrays and objects may nest. -/
def maxDepth : Nat := 127

/-- The value that a whole text denotes. -/
def parse? (text : String) : Option Json :=
  let cs := text.toList
  match takeValue? (2 * cs.length + 2) maxDepth cs with
  | some (value, rest) => if (skipBlanks rest).isEmpty then some value else none
  | none => none

end RowAccess.Json
