import Partitura.Xml.Markup

/-!
# Declarations of a document type

What stands between the square brackets of a document type: declarations of elements, of their
attributes, of entities and of notations, with comments, instructions and references to parameter
entities among them. Here they are only read; what they mean is in `Partitura.Xml.DocType`.
-/

namespace Partitura.Xml

/-- The kinds of values of an attribute. -/
inductive AttributeKind where
  /-- Any text. -/
  | text
  /-- A value that no other element has. -/
  | identity
  /-- Words, which are set apart by single blanks. -/
  | tokens
deriving DecidableEq, Repr

/-- An attribute as it is declared. -/
structure AttributeForm where
  name : List Char
  kind : AttributeKind
  /-- How many words of a list of values stand in it before. -/
  repeated : Nat
  /-- The value that the attribute has where it is left out, as written. -/
  initial : Option (List Char)
deriving DecidableEq, Repr

/-- What an entity is declared to be. -/
inductive EntityForm where
  /-- A text, as written. -/
  | text (raw : List Char)
  /-- What stands at a place. -/
  | place (system : List Char)
deriving DecidableEq, Repr

/-- A declaration. -/
inductive Declaration where
  | element
  | attributes (element : List Char) (declared : List AttributeForm)
  | entity (name : List Char) (content : EntityForm)
  | parameter (name : List Char) (content : EntityForm)
  | medium (name : List Char)
  | comment
  | instruction (target : List Char)
  /-- A reference to a parameter entity. -/
  | inclusion (name : List Char)
deriving DecidableEq, Repr

/-! ## Identifiers of external entities -/

/-- A character of a public identifier. -/
def isPublicChar (c : Char) : Bool :=
  c == ' ' || c == '\n' || c == '\r' || c.isAlphanum || "-'()+,./:=?;!*#@$_%".toList.contains c

/-- What follows a public identifier. -/
def afterPublic? (cs : List Char) : Option (List Char) := do
  let (id, rest) ← quoted? cs
  if id.all isPublicChar then some rest else none

/-- The identifier of an external entity, if there is one, and what follows. -/
def externalId? (cs : List Char) : Option (Option (List Char) × List Char) :=
  match Text.stripStart? "SYSTEM".toList cs, Text.stripStart? "PUBLIC".toList cs with
  | some r, _ => do
    let (system, rest) ← quoted? (← space? r)
    return (some system, rest)
  | none, some r => do
    let rest ← afterPublic? (← space? r)
    let (system, rest) ← quoted? (← space? rest)
    return (some system, rest)
  | none, none => some (none, cs)

/-- What follows the identifier of a notation, which may be public only. -/
def afterNotationId? (cs : List Char) : Option (List Char) :=
  match Text.stripStart? "PUBLIC".toList cs with
  | some r => do
    let rest ← afterPublic? (← space? r)
    match space? rest with
    | none => some rest
    | some r => if r.head?.any fun c => c == '"' || c == '\'' then (quoted? r).map (·.2) else some r
  | none => (externalId? cs).map (·.2)

/-! ## Elements -/

/-- Drops a mark of how often something may stand. -/
def dropOccurrence : List Char → List Char
  | '?' :: r => r
  | '*' :: r => r
  | '+' :: r => r
  | r => r

/-- What follows the content of an element that is made of elements. `groups` has an entry for every
open bracket, the innermost first: the separator in it, once there is one. A particle comes next, or
has just been `read`. -/
def afterParticles? (fuel : Nat) (groups : List (Option Char)) (read : Bool) (cs : List Char) :
    Option (List Char) :=
  match fuel with
  | 0 => none
  | fuel + 1 =>
    match read, skipSpace cs, groups with
    | false, '(' :: r, _ => afterParticles? fuel (none :: groups) false r
    | false, r, _ =>
      (name? r).bind fun (_, rest) => afterParticles? fuel groups true (dropOccurrence rest)
    | true, ')' :: r, [_] => some (dropOccurrence r)
    | true, ')' :: r, _ :: groups => afterParticles? fuel groups true (dropOccurrence r)
    | true, c :: r, separator :: groups =>
      if (c == ',' || c == '|') && separator.all (· == c) then
        afterParticles? fuel (some c :: groups) false r else none
    | true, _, _ => none

/-- What follows the names of elements that stand among text. -/
def afterMixed? (fuel : Nat) (cs : List Char) : Option (List Char) :=
  match fuel, skipSpace cs with
  | fuel + 1, '|' :: r => (name? (skipSpace r)).bind fun (_, rest) => afterMixed? fuel rest
  | _, ')' :: '*' :: r => some r
  | _, _ => none

/-- What follows the content of an element. -/
def afterContent? (cs : List Char) : Option (List Char) :=
  match cs with
  | '(' :: r =>
    match Text.stripStart? "#PCDATA".toList (skipSpace r) with
    | none => afterParticles? (r.length + 1) [none] false r
    | some r =>
      match skipSpace r with
      | ')' :: '*' :: r => some r
      | ')' :: r => some r
      | r => afterMixed? r.length r
  | _ => (Text.stripStart? "EMPTY".toList cs).or (Text.stripStart? "ANY".toList cs)

/-- What follows the declaration of an element, after its keyword. -/
def elementDeclaration? (cs : List Char) : Option (Declaration × List Char) := do
  let (_, rest) ← name? (← space? cs)
  let rest ← afterContent? (← space? rest)
  return (.element, ← Text.stripStart? ['>'] (skipSpace rest))

/-! ## Attributes -/

/-- The words of a list, after its bracket, and what follows. -/
def listed? (word? : List Char → Option (List Char × List Char)) (fuel : Nat) (cs : List Char) :
    Option (List (List Char) × List Char) :=
  match fuel with
  | 0 => none
  | fuel + 1 => do
    let (w, rest) ← word? (skipSpace cs)
    match skipSpace rest with
    | ')' :: r => some ([w], r)
    | '|' :: r => do
      let (ws, rest) ← listed? word? fuel r
      return (w :: ws, rest)
    | _ => none

/-- How many of the words have stood before. -/
def repetitions : List (List Char) → Nat
  | [] => 0
  | w :: ws => (if ws.contains w then 1 else 0) + repetitions ws

/-- The keywords of kinds. -/
def kindWords : List (String × AttributeKind) :=
  [("CDATA", .text), ("IDREFS", .tokens), ("IDREF", .tokens), ("ID", .identity),
    ("ENTITY", .tokens), ("ENTITIES", .tokens), ("NMTOKENS", .tokens), ("NMTOKEN", .tokens)]

/-- A kind that lists its values. -/
def listedKind? (word? : List Char → Option (List Char × List Char)) (cs : List Char) :
    Option (AttributeKind × Nat × List Char) :=
  match cs with
  | '(' :: r => (listed? word? r.length r).map fun (ws, rest) => (.tokens, repetitions ws, rest)
  | _ => none

/-- The kind of an attribute, how many of its listed values stand in the list before, and what
follows. -/
def kind? (cs : List Char) : Option (AttributeKind × Nat × List Char) :=
  match kindWords.findSome? fun (w, k) => (Text.stripStart? w.toList cs).map ((k, 0, ·)) with
  | some found => some found
  | none =>
    match Text.stripStart? "NOTATION".toList cs with
    | some r => (space? r).bind (listedKind? name?)
    | none => listedKind? nameToken? cs

/-- The value of an attribute that is left out, and what follows. -/
def initial? (cs : List Char) : Option (Option (List Char) × List Char) :=
  match Text.stripStart? "#REQUIRED".toList cs, Text.stripStart? "#IMPLIED".toList cs with
  | some r, _ => some (none, r)
  | none, some r => some (none, r)
  | none, none => do
    let cs ← match Text.stripStart? "#FIXED".toList cs with
      | some r => space? r
      | none => some cs
    let (value, rest) ← quoted? cs
    return (some value, rest)

/-- The attributes of a declaration, and what follows it. -/
def attributeForms? (fuel : Nat) (cs : List Char) : Option (List AttributeForm × List Char) :=
  match fuel, skipSpace cs with
  | 0, _ => none
  | _, '>' :: r => some ([], r)
  | fuel + 1, _ => do
    let (name, rest) ← name? (← space? cs)
    let (kind, repeated, rest) ← kind? (← space? rest)
    let (initial, rest) ← initial? (← space? rest)
    let (more, rest) ← attributeForms? fuel rest
    return (⟨name, kind, repeated, initial⟩ :: more, rest)

/-- The declaration of attributes, after its keyword, and what follows. -/
def attributeDeclaration? (cs : List Char) : Option (Declaration × List Char) := do
  let (element, rest) ← name? (← space? cs)
  let (declared, rest) ← attributeForms? (rest.length + 1) rest
  return (.attributes element declared, rest)

/-! ## Entities -/

/-- What follows the note that an entity is no XML. -/
def afterFormat? (cs : List Char) : Option (List Char) :=
  match Text.stripStart? "NDATA".toList (skipSpace cs) with
  | some r => do
    let _ ← space? cs
    let (_, rest) ← name? (← space? r)
    return rest
  | none => some cs

/-- What an entity is declared to be, and what follows. -/
def entityForm? (parameter : Bool) (cs : List Char) : Option (EntityForm × List Char) :=
  match quoted? cs with
  | some (raw, rest) => some (.text raw, rest)
  | none => do
    let (system, rest) ← externalId? cs
    let rest ← if parameter then some rest else afterFormat? rest
    return (.place (← system), rest)

/-- The declaration of an entity, after its keyword, and what follows. -/
def entityDeclaration? (cs : List Char) : Option (Declaration × List Char) := do
  let cs ← space? cs
  let parameter := cs.head? == some '%'
  let (name, rest) ← name? (← if parameter then space? (cs.drop 1) else some cs)
  let (content, rest) ← entityForm? parameter (← space? rest)
  let rest ← Text.stripStart? ['>'] (skipSpace rest)
  return (if parameter then .parameter name content else .entity name content, rest)

/-- The declaration of a notation, after its keyword, and what follows. -/
def mediumDeclaration? (cs : List Char) : Option (Declaration × List Char) := do
  let (name, rest) ← name? (← space? cs)
  let rest ← afterNotationId? (← space? rest)
  return (.medium name, ← Text.stripStart? ['>'] (skipSpace rest))

/-! ## The declarations -/

/-- The readers of declarations by their keywords. -/
def declarationReaders : List (String × (List Char → Option (Declaration × List Char))) :=
  [("--", fun r => (comment? r).map (Declaration.comment, ·)), ("ELEMENT", elementDeclaration?),
    ("ATTLIST", attributeDeclaration?), ("ENTITY", entityDeclaration?),
    ("NOTATION", mediumDeclaration?)]

/-- A declaration at the front, and what follows. -/
def declaration? (cs : List Char) : Option (Declaration × List Char) :=
  match cs with
  | '<' :: '?' :: r => (instruction? r).map fun (target, rest) => (.instruction target, rest)
  | '<' :: '!' :: r =>
    (declarationReaders.findSome? fun (w, read) => (Text.stripStart? w.toList r).map read).bind id
  | '%' :: r => do
    let (name, rest) ← name? r
    return (.inclusion name, ← Text.stripStart? [';'] rest)
  | _ => none

/-- The declarations up to a closing bracket, or up to the end of a text, and what follows. -/
def declarations? (fuel : Nat) (cs : List Char) : Option (List Declaration × List Char) :=
  match fuel, skipSpace cs with
  | _, [] => some ([], [])
  | _, ']' :: r => some ([], ']' :: r)
  | 0, _ => none
  | fuel + 1, cs => do
    let (d, rest) ← declaration? cs
    let (ds, rest) ← declarations? fuel rest
    return (d :: ds, rest)

end Partitura.Xml
