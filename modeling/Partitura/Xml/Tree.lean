import Partitura.Xml.DocType
import Partitura.Xml.Identifier
import Partitura.Xml.Node

/-!
# Nesting of XML

From the pieces of a document to its elements: every tag is closed by its own name, names are
resolved in the namespaces declared around them, an attribute stands once in a tag, and entities are
replaced by what they stand for.
-/

namespace Partitura.Xml

/-! ## Names and namespaces -/

/-- A name in its two parts; the first one is empty if there is none. -/
structure QName where
  pre : List Char
  loc : List Char
deriving DecidableEq, Repr

/-- A name in two parts as it is written. -/
def QName.render (q : QName) : List Char := if q.pre.isEmpty then q.loc else q.pre ++ ':' :: q.loc

/-- The parts of a name. A name with more colons than one, or with nothing before or after its
colon, is a fault and counts as a name in one part. -/
def QName.ofName (name : List Char) : Reading QName :=
  match upTo? [':'] name with
  | none => return ⟨[], name⟩
  | some (pre, loc) =>
    if pre.isEmpty || loc.contains ':' || !loc.head?.any isNameStart then do
      note .fault
      return ⟨[], name⟩
    else return ⟨pre, loc⟩

/-- Declared namespaces, the inner ones first; the empty name stands for the default one. -/
abbrev Scope := List (List Char × List Char)

/-- The first part of names that belong to XML itself. -/
def xmlPart : List Char := "xml".toList

/-- The first part of names that declare namespaces. -/
def xmlnsPart : List Char := "xmlns".toList

/-- The namespace of names that belong to XML itself. -/
def xmlNamespace : List Char := "http://www.w3.org/XML/1998/namespace".toList

/-- The namespace of declarations of namespaces. -/
def xmlnsNamespace : List Char := "http://www.w3.org/2000/xmlns/".toList

/-- A name in its namespace. -/
def inNamespace (uri loc : List Char) : String :=
  String.ofList (if uri.isEmpty then loc else '\x7b' :: uri ++ '\x7d' :: loc)

/-- The namespace of a first part that is declared. -/
def Scope.find? (s : Scope) (pre : List Char) : Option (List Char) :=
  if pre = xmlPart then some xmlNamespace else s.lookup pre

/-- The namespace of an attribute, which has none if it has no first part. -/
def Scope.ofAttribute? (s : Scope) (q : QName) : Option (List Char) :=
  if q.pre.isEmpty then some [] else s.find? q.pre

/-! ## Tags -/

/-- The attributes of a tag: the namespaces that it declares, and the others. -/
structure Tag where
  declared : Scope
  plain : List (QName × List Char)
deriving Repr

namespace Tag

/-- Declares a namespace, once in a tag. -/
def declare (t : Tag) (pre uri : List Char) : Reading Tag :=
  if (t.declared.lookup pre).isSome then failure
  else return { t with declared := t.declared ++ [(pre, uri)] }

/-- Declares the default namespace. It should be a reference with a scheme. -/
def declareDefault (t : Tag) (uri : List Char) : Reading Tag := do
  if !uri.isEmpty then
    match uriReference? uri with
    | none => note .fault
    | some u => noteIf (!u.absolute) .warning
  if uri = xmlNamespace ∨ uri = xmlnsNamespace then
    note .fault
    return t
  else t.declare [] uri

/-- Declares the namespace of a first part. -/
def declarePart (t : Tag) (pre uri : List Char) : Reading Tag :=
  if pre = xmlPart then do
    noteIf (uri != xmlNamespace) .fault
    return t
  else if pre = xmlnsPart ∨ uri = xmlNamespace ∨ uri = xmlnsNamespace ∨ uri = [] then do
    note .fault
    return t
  else do
    noteIf (uriReference? uri).isNone .fault
    t.declare pre uri

/-- Takes an attribute in. -/
def add (d : DocType) (element : List Char) (t : Tag) (a : List Char × List Char) :
    Reading Tag := do
  let q ← QName.ofName a.1
  let v ← d.value (d.kindOf element a.1) a.2
  noteIf (q == ⟨xmlPart, "space".toList⟩ && v != "default".toList && v != "preserve".toList)
    .warning
  if q = ⟨[], xmlnsPart⟩ then t.declareDefault v
  else if q.pre = xmlnsPart then t.declarePart q.loc v
  else return { t with plain := t.plain ++ [(q, v)] }

/-- Takes in a namespace that is declared for all elements of a name, unless the tag declares it. -/
def addInitialScope (t : Tag) (a : List Char × List Char) : Tag :=
  let pre? := if a.1 = xmlnsPart then some [] else Text.stripStart? (xmlnsPart ++ [':']) a.1
  match pre? with
  | some pre =>
    if (t.declared.lookup pre).isSome then t else { t with declared := t.declared ++ [(pre, a.2)] }
  | none => t

/-- Whether an attribute declares a namespace. -/
def isScope (a : List Char × List Char) : Bool :=
  a.1 == xmlnsPart || (Text.stripStart? (xmlnsPart ++ [':']) a.1).isSome

/-- Takes in an attribute that is left out and has a value all the same. -/
def addInitial (scope : Scope) (t : Tag) (a : List Char × List Char) : Reading Tag := do
  let q ← QName.ofName a.1
  noteIf (scope.ofAttribute? q).isNone .fault
  let stands (b : QName × List Char) : Bool :=
    b.1 == q ||
      (b.1.loc == q.loc && scope.ofAttribute? b.1 == scope.ofAttribute? q &&
        (scope.ofAttribute? q).isSome)
  return if t.plain.any stands then t else { t with plain := t.plain ++ [(q, a.2)] }

/-- How many of the names have stood before, seen by their namespaces. -/
def repeated : List (List Char × List Char) → Nat
  | [] => 0
  | n :: ns => (if ns.contains n then 1 else 0) + repeated ns

/-- The remarks on the namespaces of the attributes. An attribute that stands twice is refused; two
attributes that are the same by their namespaces only are a fault. -/
def check (scope : Scope) (t : Tag) : Reading Unit := do
  let known := t.plain.filterMap fun (q, _) => (scope.ofAttribute? q).map fun uri => (q, uri)
  (List.range (t.plain.length - known.length)).forM fun _ => note .fault
  if !(known.map (·.1)).Nodup then failure
  (List.range (repeated (known.map fun (q, uri) => (uri, q.loc)))).forM fun _ => note .fault

end Tag

/-! ## Elements -/

/-- An element that is not closed yet: its name as it was written, its resolved name and attributes,
the namespaces inside, and the children so far, backwards. -/
structure Frame where
  name : List Char
  tag : String
  attributes : List (String × String)
  scope : Scope
  children : List Node
deriving Repr

namespace Frame

/-- What stands around a document, or around the text of an entity. -/
def base : Frame := ⟨[], "", [], [], []⟩

/-- The element of a frame as a node. -/
def node (f : Frame) : Node := .element f.tag f.attributes f.children.reverse

/-- A node added to the children. -/
def push (f : Frame) (n : Node) : Frame := { f with children := n :: f.children }

end Frame

/-- The elements that are open, the innermost first, the values by which elements are told apart,
and the entities whose text has been read. The values are not collected inside an entity. -/
structure Builder where
  frames : List Frame
  ids : Option (List (List Char))
  entities : List (List Char)

/-- Takes in the values by which an element is told apart: they are identifiers, and no other
element has them. -/
def noteIds (d : DocType) (element : List Char) (ids : List (List Char)) :
    List (QName × List Char) → Reading (List (List Char))
  | [] => return ids
  | (q, v) :: r => do
    let own := q == ⟨xmlPart, "id".toList⟩
    noteIf (own && !isIdentifier isSpace v) .fault
    if own || d.kindOf element q.render == .identity then
      noteIf (ids.contains v) .fault
      noteIds d element (v :: ids) r
    else noteIds d element ids r

/-- The name of an element; a first part that is not declared is a fault and stays in the name. -/
def tagOf (scope : Scope) (q : QName) : Reading String :=
  match scope.find? q.pre with
  | some uri => return inNamespace uri q.loc
  | none => do
    noteIf (!q.pre.isEmpty) .fault
    return String.ofList q.render

/-- The name of an attribute; a first part that is not declared stays in the name. -/
def attributeName (scope : Scope) (q : QName) : String :=
  match scope.ofAttribute? q with
  | some uri => inNamespace uri q.loc
  | none => String.ofList q.render

/-- How many elements stand around an element at most. -/
def depthLimit : Nat := 256

/-- What the pieces are read with: the type of the document, and what entities stand for, with the
remarks on their texts. -/
structure Context where
  docType : DocType
  content : List Char → Option (List Node × List Remark)

namespace Builder

/-- A node added to the innermost element. -/
def push (b : Builder) (n : Node) : Builder :=
  match b.frames with
  | f :: fs => { b with frames := f.push n :: fs }
  | [] => b

/-- Opens an element. -/
def openElement (d : DocType) (b : Builder) (name : List Char)
    (attributes : List (List Char × List Char)) : Reading Builder := do
  if depthLimit + 1 < b.frames.length then failure
  let outer := (b.frames.head?.map (·.scope)).getD []
  let q ← QName.ofName name
  let t ← attributes.foldlM (Tag.add d name) ⟨[], []⟩
  let initials := d.initials name
  let t := initials.foldl Tag.addInitialScope t
  let scope := t.declared ++ outer
  t.check scope
  let t ← (initials.filter (!Tag.isScope ·)).foldlM (Tag.addInitial scope) t
  let tag ← tagOf scope q
  let ids ← b.ids.mapM fun ids => noteIds d name ids t.plain
  let named := t.plain.map fun (q, v) => (attributeName scope q, String.ofList v)
  return { b with frames := ⟨name, tag, named, scope, []⟩ :: b.frames, ids := ids }

/-- Closes the innermost element, which goes into the one around it. -/
def close (b : Builder) : Reading Builder :=
  match b.frames with
  | f :: g :: fs => return { b with frames := g.push f.node :: fs }
  | _ => failure

/-- What an entity stands for. The remarks on its text are made where it is used first. -/
def useEntity (c : Context) (b : Builder) (name : List Char) : Reading Builder := do
  match ← c.docType.textOf name with
  | none => return b
  | some _ =>
    let (nodes, remarks) ← c.content name
    if !b.entities.contains name then modify (remarks ++ ·)
    return { nodes.foldl push b with entities := name :: b.entities }

/-- Takes in a piece. -/
def step (c : Context) (b : Builder) : Markup → Reading Builder
  | .opening name attributes closed => do
    let b ← b.openElement c.docType name attributes
    if closed then b.close else return b
  | .closing name => if (b.frames.head?.map (·.name)) = some name then b.close else failure
  | .text content => return b.push (.text content)
  | .verbatim content => return b.push (.text content)
  | .character x => return b.push (.text [x])
  | .entity name =>
    match predefined? name with
    | some x => return b.push (.text [x])
    | none => b.useEntity c name
  | .comment => return b.push .comment
  | .instruction target => do
    noteTarget target
    return b.push .instruction

/-- The nodes that pieces make up. -/
def nodes (c : Context) (ids : Option (List (List Char))) (pieces : List Markup) :
    Reading (List Node) := do
  match (← pieces.foldlM (step c) ⟨[.base], ids, []⟩).frames with
  | [f] => return f.children.reverse
  | _ => failure

end Builder

/-- What an entity stands for, with the entities in it followed so many steps, and the remarks on
its text. -/
def entityContent (d : DocType) : Nat → List Char → Option (List Node × List Remark)
  | 0, _ => none
  | n + 1, name =>
    match d.entities.lookup name with
    | some (.text content) => do
      (Builder.nodes ⟨d, entityContent d n⟩ none (← piecesOf? content)).run []
    | _ => none

/-- The root element of the pieces of a document. -/
def rootOf (d : DocType) (pieces : List Markup) : Reading Element := do
  if !isEnveloped 0 false pieces then failure
  let nodes ← Builder.nodes ⟨d, entityContent d DocType.entityDepth⟩ (some []) pieces
  nodes.findSome? Node.element?

end Partitura.Xml
