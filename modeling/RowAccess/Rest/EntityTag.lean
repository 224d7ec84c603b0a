import RowAccess.Rest.Message

/-!
# Entity tags

The tag of a row is its version between quotes. A write may name the tags it expects, or a star
for any; it is carried out only if one of them is the tag of the stored row. Tags may be marked as
weak, and quotes around them do not count.
-/

namespace RowAccess.EntityTag

def ofVersion (version : Int) : String := "\"" ++ Text.writeInt version ++ "\""

/-- A tag without the marks of weak tags. -/
def dropWeak : List Char → List Char
  | 'W' :: '/' :: rest => dropWeak rest
  | tag => tag

def name (tag : List Char) : List Char :=
  Text.strip (· == '"') (dropWeak (Text.strip Text.isBlank tag))

/-- Whether a list of tags names a version, or any. -/
def names (tags : String) (version : Int) : Bool :=
  (Text.splitOn ',' tags.toList).any fun tag ↦
    name tag == ['*'] || name tag == (Text.writeInt version).toList

/-- The check of a write on a row of a certain version. -/
def check (h : Headers) (version : Int) : Except Fault Unit := do
  match ← h.text? "if-match" with
  | none => return ()
  | some tags =>
    if names tags version then return ()
    else throw (.request (.preconditionFailed (Text.trim tags) (Text.writeInt version)))

end RowAccess.EntityTag
