/-!
# XML documents

An element has a name, attributes and children; names with a namespace stand as `\x7buri\x7dname`.
Comments and processing instructions are children of their own, without their content.
-/

namespace Partitura.Xml

/-- A node of a document. -/
inductive Node where
  | element (tag : String) (attributes : List (String × String)) (children : List Node)
  | text (content : List Char)
  | comment
  | instruction
deriving Repr

/-- An element of a document. -/
structure Element where
  tag : String
  attributes : List (String × String)
  children : List Node
deriving Repr

/-- The element that a node is, if it is one. -/
def Node.element? : Node → Option Element
  | element tag attributes children => some ⟨tag, attributes, children⟩
  | _ => none

namespace Element

/-- The value of an attribute. -/
def get? (e : Element) (name : String) : Option String := e.attributes.lookup name

/-- The elements among the children. -/
def elements (e : Element) : List Element := e.children.filterMap Node.element?

/-- The child elements of that name. -/
def findAll (e : Element) (tag : String) : List Element := e.elements.filter (·.tag == tag)

/-- The first child element of that name. -/
def find? (e : Element) (tag : String) : Option Element := e.elements.find? (·.tag == tag)

/-- The text of the nodes before the first that is no text. -/
def leading : List Node → List Char
  | .text cs :: r => cs ++ leading r
  | _ => []

/-- The text before the first child. -/
def text (e : Element) : String := String.ofList (leading e.children)

end Element

end Partitura.Xml
