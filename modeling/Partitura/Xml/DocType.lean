import Partitura.Xml.Declaration
import Partitura.Xml.Remark
import Partitura.Xml.Uri

/-!
# Document types

What the declarations of a document type mean for the document: the texts of entities, and the kinds
and the initial values of attributes. The first declaration of a thing holds. A document with parts
elsewhere may use entities that are not declared, which is a fault and stands for nothing; in any
other document it makes the document malformed.
-/

namespace Partitura.Xml

/-- An entity. -/
inductive Entity where
  | text (content : List Char)
  /-- An entity somewhere else, which is never read. -/
  | elsewhere
deriving DecidableEq, Repr

/-- An attribute of an element. -/
structure AttributeRule where
  element : List Char
  name : List Char
  kind : AttributeKind
  initial : Option (List Char)
deriving DecidableEq, Repr

/-- What is known of the type of a document. -/
structure DocType where
  /-- Whether the document says that it stands alone. -/
  standalone : Bool
  /-- Whether parts of the type are elsewhere. -/
  incomplete : Bool
  entities : List (List Char × Entity)
  parameters : List (List Char × Entity)
  attributes : List AttributeRule
deriving DecidableEq, Repr

/-! ## Remarks on names -/

/-- A colon in a name that has no namespace is a fault. -/
def noteColon (name : List Char) : Reading Unit := noteIf (name.contains ':') .fault

/-- Targets of instructions that start like the declaration and have a meaning. -/
def knownTargets : List String := ["xml-stylesheet", "xml-model"]

/-- The remarks on the target of an instruction. -/
def noteTarget (target : List Char) : Reading Unit := do
  if knownTargets.contains (String.ofList target) then return
  noteIf (String.ofList ((target.take 3).map Char.toLower) == "xml") .warning
  noteColon target

namespace DocType

/-- The type of a document that names none. -/
def none (standalone : Bool) : DocType := ⟨standalone, false, [], [], []⟩

/-- What is said of an entity that is not declared. -/
def undeclared (d : DocType) : Reading Unit :=
  if d.standalone || !d.incomplete then failure else note .fault

/-! ## Texts of entities -/

/-- How deep entities stand in one another at most. -/
def entityDepth : Nat := 40

/-- How much text an entity stands for at most. -/
def entityLimit : Nat := 1000000

/-- What every reference to an entity costs besides its text. -/
def referenceCost : Nat := 20

/-- How much text a text with references stands for, if it is known of the entities. -/
def weighed (sizes : List (List Char × Nat)) (text : List Char) : Nat :=
  ((chunks? Option.none text).getD []).foldl (fun n part =>
    match part with
    | .entity name => n + (sizes.lookup name).getD 1 + referenceCost
    | _ => n + 1) 0

/-- How much text the entities stand for, with what stands in them followed so many steps. -/
def sizes (d : DocType) : Nat → List (List Char × Nat)
  | 0 => []
  | n + 1 =>
    let known := d.sizes n
    d.entities.map fun (name, e) =>
      match e with
      | .text content => (name, weighed known content)
      | .elsewhere => (name, 0)

/-- Whether an entity stands for too much text. -/
def isExcessive (d : DocType) (name : List Char) : Bool :=
  entityLimit < ((d.sizes entityDepth).lookup name).getD 0

/-- The text of an entity; nothing if it is not declared. -/
def textOf (d : DocType) (name : List Char) : Reading (Option (List Char)) :=
  match d.entities.lookup name with
  | some (.text content) => if d.isExcessive name then failure else return some content
  | some .elsewhere => failure
  | .none => do
    d.undeclared
    return Option.none

/-- The text of a value, with the entities in it followed so many steps. White space counts as
blanks. -/
def expanded (d : DocType) : Nat → List Char → Reading (List Char)
  | 0, _ => failure
  | n + 1, raw => do
    let parts ← (← chunks? Option.none raw).mapM fun part =>
      match part with
      | .literal c => if c == '<' then failure else return [if isSpace c then ' ' else c]
      | .character c => return [c]
      | .entity name =>
        match predefined? name with
        | some c => return [c]
        | .none => do
          match ← d.textOf name with
          | some text => d.expanded n text
          | .none => return []
    return parts.flatten

/-- Words with single blanks between them. -/
def collapse (cs : List Char) : List Char :=
  Text.joinWith [' '] ((Text.splitOn ' ' cs).filter fun w => !w.isEmpty)

/-- What is declared of an attribute. -/
def rule? (d : DocType) (element name : List Char) : Option AttributeRule :=
  d.attributes.find? fun a => a.element == element && a.name == name

/-- The kind of an attribute. -/
def kindOf (d : DocType) (element name : List Char) : AttributeKind :=
  ((d.rule? element name).map (·.kind)).getD .text

/-- The value of an attribute of that kind, as it is meant. -/
def value (d : DocType) (kind : AttributeKind) (raw : List Char) : Reading (List Char) := do
  let cs ← d.expanded (entityDepth + 1) raw
  return if kind = .text then cs else collapse cs

/-- The attributes of an element that have a value where they are left out. -/
def initials (d : DocType) (element : List Char) : List (List Char × List Char) :=
  (d.attributes.filter (·.element == element)).filterMap fun a =>
    match d.rule? element a.name with
    | some r => if r == a then a.initial.map (a.name, ·) else Option.none
    | .none => Option.none

/-! ## Declarations -/

/-- The text of an entity: characters that are given by their codes are put in, other references
stay. Parameter entities do not stand in it. -/
def entityText? (raw : List Char) : Option (List Char) := do
  if raw.contains '%' then Option.none
  let parts ← chunks? Option.none raw
  return parts.flatMap fun part =>
    match part with
    | .literal c => [c]
    | .character c => [c]
    | .entity name => '&' :: name ++ [';']

/-- The entity of a declaration. A place that is not written as one is a fault, and one with a
fragment is refused. -/
def entityOf : EntityForm → Reading Entity
  | .text raw => do return .text (← entityText? raw)
  | .place system => do
    match uriReference? system with
    | .none => note .fault
    | some u => if u.fragment then failure
    return .elsewhere

/-- Whether an entity that every document has may be declared with that text. -/
def restates (c : Char) (e : Entity) : Bool :=
  match e with
  | .text text =>
    (text == [c] && c != '<' && c != '&') || chunks? Option.none text == some [.character c]
  | .elsewhere => false

/-- Declares an attribute of an element. -/
def addAttribute (element : List Char) (d : DocType) (a : AttributeForm) : Reading DocType := do
  (List.range a.repeated).forM fun _ => note .fault
  let initial ← a.initial.mapM (d.value a.kind)
  noteIf (a.name == "xml:id".toList && a.kind != .identity) .fault
  return { d with attributes := d.attributes ++ [⟨element, a.name, a.kind, initial⟩] }

/-- Takes a declaration in; `text` reads the text of a parameter entity. -/
def declare (text : DocType → List Char → Reading DocType) (d : DocType) :
    Declaration → Reading DocType
  | .element => return d
  | .comment => return d
  | .attributes element declared => declared.foldlM (addAttribute element) d
  | .entity name form => do
    noteColon name
    let e ← entityOf form
    noteIf ((predefined? name).any fun c => !restates c e) .warning
    return { d with entities := d.entities ++ [(name, e)] }
  | .parameter name form => do
    noteColon name
    return { d with parameters := d.parameters ++ [(name, ← entityOf form)] }
  | .medium name => do
    noteColon name
    return d
  | .instruction target => do
    noteTarget target
    return d
  | .inclusion name => do
    let d := { d with incomplete := true }
    match d.parameters.lookup name with
    | some (.text content) => text d content
    | some .elsewhere => failure
    | .none => do
      d.undeclared
      return d

/-- Takes in the declarations that a text is made of, with parameter entities followed so many
steps. -/
def declareText : Nat → DocType → List Char → Reading DocType
  | 0, _, _ => failure
  | n + 1, d, cs => do
    match ← declarations? cs.length cs with
    | (ds, []) => ds.foldlM (declare (declareText n)) d
    | _ => failure

/-- Takes in the declarations of a document type. -/
def declareAll (d : DocType) (ds : List Declaration) : Reading DocType :=
  ds.foldlM (declare (declareText entityDepth)) d

/-- Reads a document type, after its keyword: a name, the identifier of a part elsewhere, and
declarations. -/
def read (standalone : Bool) (cs : List Char) : Reading (DocType × List Char) := do
  let (_, rest) ← name? (skipSpace cs)
  let (external, rest) ← externalId? (skipSpace rest)
  let d : DocType := { none standalone with incomplete := external.isSome }
  match skipSpace rest with
  | '[' :: r => do
    let (ds, rest) ← declarations? r.length r
    let d ← d.declareAll ds
    return (d, ← Text.stripStart? ['>'] (skipSpace (← Text.stripStart? [']'] rest)))
  | r => return (d, ← Text.stripStart? ['>'] r)

end DocType

end Partitura.Xml
