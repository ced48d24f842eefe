import Stowage.Text.Quoted
/-!
Identities of stored objects.

An identity is a kind, a key within the kind and optionally the node that owns the object. Its
text is `kind:key` or `kind:key@owner`. The kind must be non-empty without `:`; the key and the
owner must be non-empty without `@`. Reading text splits at the first `:` and then at the first
`@` of the rest, so a key may contain `:` and the text of a valid identity reads back as it.

Identities are ordered by kind, then key, then owner, with "no owner" first.
-/
namespace Stowage

/-- Whether a text holds the ASCII character `c`, looked for among its UTF-8 bytes: the encoding
of any other character has no byte equal to it. -/
def holdsAscii (s : String) (c : Char) : Bool := s.toByteArray.data.toList.contains c.toUInt8

/-- Why a kind, key or owner is not acceptable. -/
inductive IdentityError where
  | emptyKind
  | emptyKey
  | emptyOwner
  | missingKind
  | invalidChar (c : Char)
  deriving BEq, DecidableEq, Repr

/-- The message of an identity error. -/
def IdentityError.message : IdentityError → String
  | .emptyKind => "identity kind must not be empty"
  | .emptyKey => "identity key must not be empty"
  | .emptyOwner => "identity owner must not be empty"
  | .missingKind => "identity is missing the kind separator"
  | .invalidChar c => "identity part contains reserved character " ++ Text.quoteChar c

/-- The identity of a stored object. -/
structure Identity where
  kind : String
  key : String
  owner : Option String
  deriving BEq, DecidableEq, Repr, Inhabited, Hashable

namespace Identity

/-- Check a kind: non-empty, no `:`. -/
def checkKind (kind : String) : Except IdentityError Unit :=
  if kind.isEmpty then .error .emptyKind
  else if holdsAscii kind ':' then .error (.invalidChar ':')
  else .ok ()

/-- Check a key: non-empty, no `@`. -/
def checkKey (key : String) : Except IdentityError Unit :=
  if key.isEmpty then .error .emptyKey
  else if holdsAscii key '@' then .error (.invalidChar '@')
  else .ok ()

/-- An identity without owner, after checking kind and key. -/
def make (kind key : String) : Except IdentityError Identity := do
  checkKind kind
  checkKey key
  return ⟨kind, key, none⟩

/-- An identity without owner, unchecked. -/
def unchecked (kind key : String) : Identity := ⟨kind, key, none⟩

/-- The same identity owned by `owner`: non-empty, no `@`. -/
def withOwner (id : Identity) (owner : String) : Except IdentityError Identity :=
  if owner.isEmpty then .error .emptyOwner
  else if holdsAscii owner '@' then .error (.invalidChar '@')
  else .ok { id with owner := some owner }

/-- Whether `node` may claim the object: no owner, or the owner is `node`. -/
def isOwnedBy (id : Identity) (node : String) : Bool :=
  match id.owner with
  | none => true
  | some o => o == node

/-- The text form. -/
def render (id : Identity) : String :=
  id.kind ++ ":" ++ id.key ++ (match id.owner with | some o => "@" ++ o | none => "")

/-- The debug form `Identity(<text>)`. -/
def debugText (id : Identity) : String := "Identity(" ++ id.render ++ ")"

/-- Split at the first occurrence of `sep`. -/
def splitFirst (cs : List Char) (sep : Char) : Option (List Char × List Char) :=
  let before := cs.takeWhile (· != sep)
  if before.length = cs.length then none else some (before, cs.drop (before.length + 1))

/-- Read the text form. -/
def parse (text : String) : Except IdentityError Identity :=
  match splitFirst text.toList ':' with
  | none => .error .missingKind
  | some (kind, rest) =>
    match splitFirst rest '@' with
    | some (key, owner) => do
      let id ← make (String.ofList kind) (String.ofList key)
      id.withOwner (String.ofList owner)
    | none => make (String.ofList kind) (String.ofList rest)

/-- Order by kind, then key, then owner (absent first). -/
def cmp (a b : Identity) : Ordering :=
  (compare a.kind b.kind).then ((compare a.key b.key).then (compareOwner a.owner b.owner))
where
  compareOwner : Option String → Option String → Ordering
    | none, none => .eq
    | none, some _ => .lt
    | some _, none => .gt
    | some x, some y => compare x y

instance : Ord Identity := ⟨cmp⟩

end Identity

end Stowage
