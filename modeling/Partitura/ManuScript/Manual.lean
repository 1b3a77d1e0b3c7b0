import Partitura.Json.Printer
import Partitura.ManuScript.Language
import Partitura.ManuScript.Signature
import Partitura.Number.Literal
import Partitura.Text.Lines

/-!
# Reading the manual

The lines of the printed manual hold the types of objects, each with a list of methods and one of
variables, and in a later chapter the constants with their values. What is found there makes up the
language reference.
-/

namespace Partitura.ManuScript.Manual

/-! ## Kinds of lines -/

/-- A page number in Roman numerals. -/
def isPageNumber (cs : List Char) : Bool := !cs.isEmpty && cs.all ("clxvi".toList.contains ·)

/-- A name that starts with a capital and has at least two characters. -/
def isName : List Char → Bool
  | c :: d :: r => Signature.isCapital c && (d :: r).all Text.isNameChar
  | _ => false

/-- A name of a type of objects: a capital, a small letter, and letters; between 3 and 29 of
them. -/
def isTypeName : List Char → Bool
  | c :: d :: r =>
    Signature.isCapital c && d.isLower && r.all Char.isAlpha && 0 < r.length && r.length + 2 < 30
  | _ => false

/-- Lines without content: nothing, the bullet of a list, or a page number. -/
def isNoise (cs : List Char) : Bool := cs.isEmpty || cs == ['l'] || isPageNumber cs

/-- The characters of a line without the blanks around it. -/
def stripped (s : String) : List Char := Text.trim s.toList

/-! ## Types of objects -/

/-- What the manual says of a type of objects. -/
structure ObjectInfo where
  name : String
  description : String
  methods : List (String × List Signature)
  properties : List String
deriving DecidableEq, Repr

/-- The start of a section on a type: its name, its line and the line of its list of methods. -/
structure SectionStart where
  name : String
  line : Nat
  methods : Nat
deriving DecidableEq, Repr

/-- How many lines after a name its list of methods may start. -/
def methodsReach : Nat := 14

/-- The starts of sections in the lines from number `n` on. -/
def sectionStarts (n : Nat) : List (List Char) → List SectionStart
  | [] => []
  | l :: rest =>
    let found :=
      if isTypeName l && l != "Methods".toList && l != "Variables".toList then
        (rest.take methodsReach).findIdx? (· == "Methods".toList)
      else none
    (found.toList.map fun k => ⟨String.ofList l, n, n + 1 + k⟩) ++ sectionStarts (n + 1) rest

/-- The part of a section that is being read. -/
inductive Part where
  | methodList
  | variableList
deriving DecidableEq, Repr

/-- Adds a signature to the method of that name. -/
def addSignature (name : String) (s : Signature) :
    List (String × List Signature) → List (String × List Signature)
  | [] => [(name, [s])]
  | (n, ss) :: ms => if n = name then (n, ss ++ [s]) :: ms else (n, ss) :: addSignature name s ms

/-- Words that are no variables. -/
def noVariables : List String := ["Methods", "Variables", "True", "False", "None"]

/-- The methods and variables of the lines of a section. -/
def sectionContent (part : Part) (methods : List (String × List Signature))
    (properties : List String) : List (List Char) → List (String × List Signature) × List String
  | [] => (methods, properties)
  | l :: rest =>
    if l = "Methods".toList then sectionContent .methodList methods properties rest
    else if l = "Variables".toList then sectionContent .variableList methods properties rest
    else if isNoise l || "4 Object Reference".toList.isPrefixOf l then
      sectionContent part methods properties rest
    else match part with
      | .methodList =>
        match Signature.ofLine? l with
        | some (name, s) => sectionContent part (addSignature name s methods) properties rest
        | none => sectionContent part methods properties rest
      | .variableList =>
        let name := String.ofList l
        if isName l && !noVariables.contains name then
          sectionContent part methods (properties ++ [name]) rest
        else sectionContent part methods properties rest

/-- The section that starts so and ends before the line `stop`. -/
def sectionInfo (lines : List (List Char)) (s : SectionStart) (stop : Nat) : ObjectInfo :=
  let about := ((lines.take s.methods).drop (s.line + 1)).filter (!isNoise ·)
  let (methods, properties) := sectionContent .methodList [] [] ((lines.take stop).drop s.methods)
  ⟨s.name, String.ofList (Text.joinWith [' '] about), methods, properties⟩

/-- The sections, each up to the start of the next. -/
def sections (lines : List (List Char)) : List SectionStart → List ObjectInfo
  | [] => []
  | [s] => [sectionInfo lines s lines.length]
  | s :: t :: rest => sectionInfo lines s t.line :: sections lines (t :: rest)

/-- The names without repetitions. -/
def distinctNames (names : List String) : List String :=
  names.foldl (fun seen n => if seen.contains n then seen else seen ++ [n]) []

/-- Adds a section to those found so far; of a type with two sections the first one describes it. -/
def addSection (found : List ObjectInfo) (o : ObjectInfo) : List ObjectInfo :=
  if found.any (·.name == o.name) then
    found.map fun p =>
      if p.name == o.name then
        { p with
          methods :=
            o.methods.foldl
              (fun ms (n, ss) => ss.foldl (fun ms s => addSignature n s ms) ms) p.methods
          properties := p.properties ++ o.properties }
      else p
  else found ++ [o]

/-- `extract_objects`: the types of objects in the lines of the manual. -/
def objects (lines : List String) : List ObjectInfo :=
  let ls := lines.map stripped
  ((sections ls (sectionStarts 0 ls)).foldl addSection []).map fun o =>
    { o with properties := distinctNames o.properties }

/-! ## Constants -/

/-- The value of a constant. -/
inductive Value where
  | int (n : Int)
  | text (s : String)
deriving DecidableEq, Repr

/-- Words that end the title of a section. -/
def titleWords : List String :=
  ["Values", "Types", "Styles", "Names", "Options", "Constants", "Formats"]

/-- Whether a word stands in the text between characters that belong to no word; `prev` is the
character before the text. -/
def hasWord (w : List Char) (prev : Option Char) : List Char → Bool
  | [] => false
  | c :: r =>
    (!prev.any Text.isWordChar &&
      (match Text.stripStart? w (c :: r) with
        | some rest => !rest.head?.any Text.isWordChar
        | none => false)) || hasWord w (some c) r

/-- `_is_section_header`: whether a line is the title of a section of constants: it has several
words, but not too many, and a page number follows or one of its words is usual in titles. -/
def isTitle (line : List Char) (next : List (List Char)) : Bool :=
  if line.length < 3 then false
  else if isName (match line.getLast? with | some '\n' => line.dropLast | _ => line) then false
  else if line.contains ' ' then
    line.length ≤ 60 &&
      ((next.take 3).any (fun l => isPageNumber (Text.trim l)) ||
        titleWords.any (hasWord ·.toList none line) || "7 Global Constants".toList.isPrefixOf line)
  else false

/-- The names on a line that defines a constant: one, or several with the word `or` between them. -/
def constantNames? (line : List Char) : Option (List String) :=
  let words :=
    (line.splitBy fun a b => Text.isBlank a == Text.isBlank b).filter fun w =>
      !w.head?.any Text.isBlank
  let rec names : List (List Char) → Option (List String)
    | [w] => if isName w then some [String.ofList w] else none
    | w :: o :: rest =>
      if isName w && o == "or".toList then (names rest).map (String.ofList w :: ·) else none
    | [] => none
  names words

/-- What a line says of the value of the constant before it. -/
inductive Answer where
  | value (v : Value)
  | otherName
  | nothing
deriving DecidableEq, Repr

/-- Reads a line for a value: an integer, a text in double quotes, or another name. -/
def answerOf (line : List Char) : Answer :=
  let digits := match line with
    | '-' :: r => r
    | r => r
  if !digits.isEmpty && digits.all Text.isDecimal then
    match Number.readInt (String.ofList line) with
    | .ok n => .value (.int n)
    | .error _ => .nothing
  else match line with
    | '"' :: r =>
      if r.getLast? == some '"' && !r.dropLast.contains '"' then
        .value (.text (String.ofList r.dropLast))
      else .nothing
    | _ => if isName line then .otherName else .nothing

/-- The value on the lines that follow a name, and how many lines it takes; another name hides
it. -/
def valueIn? (n : Nat) : List (List Char) → Option (Value × Nat)
  | [] => none
  | l :: rest =>
    match answerOf l with
    | .value v => some (v, n + 1)
    | .otherName => none
    | .nothing => valueIn? (n + 1) rest

/-- How many lines after a name its value may stand. -/
def valueReach : Nat := 4

/-- A constant put into the table, in the place of the one of that name. -/
def putConstant (name : String) (v : Value) : List (String × Value) → List (String × Value)
  | [] => [(name, v)]
  | (n, w) :: cs => if n = name then (n, v) :: cs else (n, w) :: putConstant name v cs

/-- The constants of the lines, added to those found so far; the first `skip` lines were read
already. -/
def constantsFrom (skip : Nat) (found : List (String × Value)) :
    List (List Char) → List (String × Value)
  | [] => found
  | l :: rest =>
    match skip with
    | k + 1 => constantsFrom k found rest
    | 0 =>
      if l.isEmpty || isPageNumber l || isTitle l rest || (l.contains ' ' && 40 < l.length) then
        constantsFrom 0 found rest
      else match constantNames? l, valueIn? 0 (rest.take valueReach) with
        | some names, some (v, n) =>
          constantsFrom n (names.foldl (fun cs name => putConstant name v cs) found) rest
        | _, _ => constantsFrom 0 found rest

/-- The number of lines before the chapter on constants, at the least. -/
def frontMatter : Nat := 10001

/-- `extract_constants`: the constants in the lines of the manual: from the title of their first
section to the index. -/
def constants (lines : List String) : List (String × Value) :=
  let chapter := (lines.drop frontMatter).map stripped |>.dropWhile (· != "Truth Values".toList)
  constantsFrom 0 [] (chapter.takeWhile (· != "Index".toList))

/-! ## Functions -/

/-- `get_builtin_functions`: the functions, which the manual does not list in one place: name,
result and parameters. -/
def functions : List (String × String × List String) :=
  [("CreateSparseArray", "SparseArray", []), ("CreateArray", "Array", []),
    ("CreateDictionary", "Dictionary", []), ("CreateHash", "Hash", []),
    ("Trace", "void", ["message"]), ("StopPlugin", "void", []), ("TypeOf", "string", ["object"]),
    ("IsObject", "boolean", ["value"]), ("Chr", "string", ["code"]), ("Asc", "int", ["char"]),
    ("CharAt", "string", ["string", "index"]), ("Length", "int", ["string"]),
    ("Substring", "string", ["string", "start", "length?"]),
    ("JoinStrings", "string", ["array", "separator"]),
    ("SplitString", "array", ["string", "separator"]), ("Round", "int", ["number"]),
    ("RoundUp", "int", ["number"]), ("RoundDown", "int", ["number"]), ("Abs", "int", ["number"]),
    ("Min", "number", ["a", "b"]), ("Max", "number", ["a", "b"]), ("RandomNumber", "int", []),
    ("RandomSeed", "void", ["seed"])]

/-! ## The reference as JSON -/

/-- An object with its members in the order of their keys. -/
def sortedObject (ms : List (String × Json)) : Json := .object (ms.mergeSort fun a b => a.1 ≤ b.1)

/-- A list of texts. -/
def textsJson (ss : List String) : Json := .array (ss.map .string)

/-- A signature. -/
def signatureJson (s : Signature) : Json :=
  sortedObject [("params", textsJson s.params), ("min_params", .int s.least),
    ("max_params", .int s.most)]

/-- A type of objects. -/
def objectJson (o : ObjectInfo) : Json :=
  sortedObject [("description", .string o.description), ("properties", textsJson o.properties),
    ("methods", sortedObject (o.methods.map fun (n, ss) =>
      (n, .object [("signatures", .array (ss.map signatureJson))])))]

/-- The value of a constant. -/
def valueJson : Value → Json
  | .int n => .int n
  | .text s => .string s

/-- The language reference of the manual. -/
def reference (lines : List String) : Json :=
  sortedObject [("version", .string "1.0"), ("source", .string "ManuScript Language.pdf"),
    ("objects", sortedObject ((objects lines).map fun o => (o.name, objectJson o))),
    ("constants", sortedObject ((constants lines).map fun (n, v) => (n, valueJson v))),
    ("builtin_functions", sortedObject (functions.map fun (n, returns, params) =>
      (n, sortedObject [("returns", .string returns), ("params", textsJson params)])))]

/-- The text of the language reference, from the text of the manual. -/
def referenceText (text : List Char) : String :=
  (reference ((Text.lines text).map String.ofList)).pretty

end Partitura.ManuScript.Manual
