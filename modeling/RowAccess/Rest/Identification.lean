import RowAccess.Rest.Message
import RowAccess.Visibility.Identity

/-!
# Identifying requesters

The service authenticates no one. It takes every requester to be anonymous, or trusts headers that
an authenticating gateway sets: a numeric user id, and about that user a name, a display name,
groups and permissions.
-/

namespace RowAccess

/-- Where the identity of a requester comes from. -/
inductive Identification where
  | anonymous
  | headers
  deriving DecidableEq, Repr

namespace Identification

/-- The user with a certain id whom headers describe. -/
def userOf (h : Headers) (id : Int) : Except Fault User := do
  let username := (← h.trimmed? "x-username").getD (Text.writeInt id)
  let identifier ← h.trimmed? "x-user-identifier"
  let groups ← h.list "x-user-groups"
  let permissions ← h.list "x-user-permissions"
  return { id, username, identifier, groups, permissions }

/-- The requester whom headers describe: a user if there is a user id. -/
def ofHeaders (h : Headers) : Except Fault Identity := do
  match ← h.trimmed? "x-user-id" with
  | none => return .anonymous
  | some raw =>
    match Text.readInt64? raw with
    | none =>
      throw (.request (.invalidHeader "x-user-id" ("'" ++ raw ++ "' is not a numeric user id")))
    | some id => return .user (← userOf h id)

/-- The requester of a request with certain headers. -/
def identify (i : Identification) (h : Headers) : Except Fault Identity :=
  match i with
  | anonymous => .ok .anonymous
  | headers => ofHeaders h

end Identification

/-- A requester as a JSON value. -/
def Identity.toJson : Identity → Json
  | anonymous => .object [("kind", .text "anonymous")]
  | user u =>
    .object
      [("kind", .text "user"), ("id", .int u.id), ("username", .text u.username),
        ("identifier", .textOrNull u.identifier), ("groups", .texts u.groups),
        ("permissions", .texts u.permissions)]

end RowAccess
