import RowAccess.Text.Integer
import RowAccess.Text.Unprintable

/-!
# Quoted text

String operands are shown between double quotes. A backslash escapes quotes, backslashes, line
feeds, carriage returns, tabs and the null character; characters without a visible form and those
that would join the character before them are written by their code point.
-/

namespace RowAccess.Text

/-- The characters that show one character inside quotes. -/
def quoteChar (c : Char) : List Char :=
  if c == '"' then ['\\', '"']
  else if c == '\\' then ['\\', '\\']
  else if c == '\n' then ['\\', 'n']
  else if c == '\r' then ['\\', 'r']
  else if c == '\t' then ['\\', 't']
  else if c.toNat == 0 then ['\\', '0']
  else if 0x20 ≤ c.toNat && c.toNat < 0x7F then [c]
  else if isJoiningMark c || isUnprintable c then
    '\\' :: 'u' :: '\x7b' :: Nat.toDigits 16 c.toNat ++ ['\x7d']
  else [c]

/-- A string between quotes. -/
def quote (s : String) : String :=
  String.ofList ('"' :: s.toList.flatMap quoteChar ++ ['"'])

end RowAccess.Text
