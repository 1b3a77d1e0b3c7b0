import Partitura.Config.Value
import Partitura.Json.Reader
import Partitura.Number.Literal

/-!
# Reading TOML

A document is a list of statements: a key with its value, or a heading that says which table the
keys after it belong to. A table may be put together from several places, but none of its parts may
be given twice. The line ends of the text are line feeds.
-/

namespace Partitura.Config.Toml

/-! ## Characters -/

/-- Space within a line. -/
def isSpace (c : Char) : Bool := c == ' ' || c == '\t'

/-- Space and line feeds. -/
def isGap (c : Char) : Bool := isSpace c || c == '\n'

/-- A character of a key without quotes. -/
def isKeyChar (c : Char) : Bool := c.isAlphanum || c == '-' || c == '_'

/-- A control character other than the tab; it may stand neither in a text nor in a comment. -/
def isControl (c : Char) : Bool := (c.toNat < 32 && c != '\t') || c.toNat == 127

/-- Skips space within a line. -/
def skipSpace (cs : List Char) : List Char := cs.dropWhile isSpace

/-- Skips a comment up to the end of its line. -/
def skipComment? : List Char → Option (List Char)
  | '#' :: r =>
    let comment := r.takeWhile (· != '\n')
    if comment.any isControl then none else some (r.drop comment.length)
  | cs => some cs

/-- Skips space, line feeds and comments. -/
def skipGaps? : Nat → List Char → Option (List Char)
  | 0, cs => some cs
  | fuel + 1, cs =>
    match cs.dropWhile isGap with
    | '#' :: r => (skipComment? ('#' :: r)).bind (skipGaps? fuel)
    | r => some r

/-! ## Texts -/

/-- The number of hexadecimal digits. -/
def hexNumber? (cs : List Char) : Option Nat :=
  cs.foldlM (fun n c => (Json.hexValue? c).map (16 * n + ·)) 0

/-- A character by its code of `width` hexadecimal digits. -/
def codeChar? (width : Nat) (cs : List Char) : Option Char := do
  let code := cs.take width
  if code.length < width then none
  let n ← hexNumber? code
  if n.isValidChar then some (Char.ofNat n) else none

/-- The character that a letter after a backslash stands for. -/
def escaped? : Char → Option Char
  | 'b' => some (Char.ofNat 8)
  | 't' => some '\t'
  | 'n' => some '\n'
  | 'f' => some (Char.ofNat 12)
  | 'r' => some '\r'
  | '"' => some '"'
  | '\\' => some '\\'
  | _ => none

/-- What follows a backslash at the end of a line: the next character that is no gap. -/
def joinLines? (cs : List Char) : Option (List Char) :=
  match cs.dropWhile isSpace with
  | '\n' :: r => some (r.dropWhile isGap)
  | _ => none

/-- A text between double quotes, on one line or over `many` lines, up to its closing quotes. -/
def basic? (many : Bool) : Nat → List Char → Option (List Char × List Char)
  | 0, _ => none
  | _, [] => none
  | fuel + 1, c :: r =>
    if c == '"' then
      if !many then some ([], r)
      else if ['"', '"'].isPrefixOf r then some ([], r.drop 2)
      else (basic? many fuel r).map fun (s, rest) => (c :: s, rest)
    else if c == '\\' then
      match r with
      | [] => none
      | e :: r =>
        if many && isGap e then (joinLines? (e :: r)).bind (basic? many fuel)
        else if e == 'u' || e == 'U' then
          let width := if e == 'u' then 4 else 8
          match codeChar? width r with
          | some d => (basic? many fuel (r.drop width)).map fun (s, rest) => (d :: s, rest)
          | none => none
        else match escaped? e with
          | some d => (basic? many fuel r).map fun (s, rest) => (d :: s, rest)
          | none => none
    else if isControl c && !(many && c == '\n') then none
    else (basic? many fuel r).map fun (s, rest) => (c :: s, rest)

/-- A text between apostrophes on one line. -/
def literal? (cs : List Char) : Option (List Char × List Char) :=
  let s := cs.takeWhile (· != '\'')
  if s.length < cs.length && !s.any isControl then some (s, cs.drop (s.length + 1)) else none

/-- A text between three apostrophes, over many lines. -/
def manyLiteral? (cs : List Char) : Option (List Char × List Char) :=
  match Text.indexOf? ['\'', '\'', '\''] cs with
  | some n =>
    let s := cs.take n
    if s.any fun c => isControl c && c != '\n' then none else some (s, cs.drop (n + 3))
  | none => none

/-- At most two more quotes belong to a text over many lines. -/
def moreQuotes (quote : Char) (s : List Char) : List Char → List Char × List Char
  | a :: b :: r =>
    if a != quote then (s, a :: b :: r) else if b != quote then (s ++ [a], b :: r)
    else (s ++ [a, b], r)
  | [a] => if a == quote then (s ++ [a], []) else (s, [a])
  | [] => (s, [])

/-- The first line feed does not belong to a text over many lines. -/
def dropFirstFeed : List Char → List Char
  | '\n' :: r => r
  | r => r

/-- A text with its quotes. -/
def text? (cs : List Char) : Option (List Char × List Char) :=
  match cs with
  | '"' :: '"' :: '"' :: r =>
    (basic? true cs.length (dropFirstFeed r)).map fun (s, rest) => moreQuotes '"' s rest
  | '\'' :: '\'' :: '\'' :: r =>
    (manyLiteral? (dropFirstFeed r)).map fun (s, rest) => moreQuotes '\'' s rest
  | '"' :: r => basic? false cs.length r
  | '\'' :: r => literal? r
  | _ => none

/-! ## Keys -/

/-- A key is a list of names. -/
abbrev Key := List String

/-- A name in a key, with or without quotes. -/
def keyName? (cs : List Char) : Option (String × List Char) :=
  match cs with
  | '"' :: r => (basic? false cs.length r).map fun (s, rest) => (String.ofList s, rest)
  | '\'' :: r => (literal? r).map fun (s, rest) => (String.ofList s, rest)
  | cs =>
    let name := cs.takeWhile isKeyChar
    if name.isEmpty then none else some (String.ofList name, cs.drop name.length)

/-- A key: names with points between them, and the space after it. -/
def key? : Nat → List Char → Option (Key × List Char)
  | 0, _ => none
  | fuel + 1, cs => do
    let (name, r) ← keyName? cs
    match skipSpace r with
    | '.' :: r =>
      let (key, r) ← key? fuel (skipSpace r)
      some (name :: key, r)
    | r => some ([name], r)

/-! ## Days, times and numbers -/

/-- A number of two digits. -/
def twoDigits? : List Char → Option (Nat × List Char)
  | a :: b :: r =>
    if a.isDigit && b.isDigit then some ((a.toNat - 48) * 10 + (b.toNat - 48), r) else none
  | _ => none

/-- A fixed character. -/
def exactly? (c : Char) : List Char → Option (List Char)
  | d :: r => if c == d then some r else none
  | [] => none

/-- The number of decimal digits. -/
def decimal (cs : List Char) : Nat := cs.foldl (fun n c => 10 * n + (c.toNat - 48)) 0

/-- The millionths of a second after a point; more digits are dropped. -/
def micros : List Char → Nat × List Char
  | '.' :: c :: r =>
    if c.isDigit then
      let ds := (c :: r).takeWhile Char.isDigit
      let six := ds.take 6
      (decimal (six ++ List.replicate (6 - six.length) '0'), (c :: r).drop ds.length)
    else (0, '.' :: c :: r)
  | cs => (0, cs)

/-- A time of day. -/
def clock? (cs : List Char) : Option (Clock × List Char) := do
  let (hour, r) ← twoDigits? cs
  let (minute, r) ← (exactly? ':' r).bind twoDigits?
  let (second, r) ← (exactly? ':' r).bind twoDigits?
  if 23 < hour || 59 < minute || 59 < second then none
  let (micro, r) := micros r
  some (⟨hour, minute, second, micro⟩, r)

/-- The distance from the zero meridian after a time of day. -/
def offset (cs : List Char) : Option Int × List Char :=
  let found : Option (Int × List Char) :=
    match cs with
    | c :: r =>
      if c == 'Z' || c == 'z' then some (0, r)
      else if c == '+' || c == '-' then do
        let (hour, r) ← twoDigits? r
        let (minute, r) ← (exactly? ':' r).bind twoDigits?
        if 23 < hour || 59 < minute then none
        let n : Int := hour * 60 + minute
        some (if c == '-' then -n else n, r)
      else none
    | [] => none
  match found with
  | some (n, r) => (some n, r)
  | none => (none, cs)

/-- A day, with its numbers in their ranges. -/
def day? (cs : List Char) : Option (Day × List Char) := do
  let (century, r) ← twoDigits? cs
  let (year, r) ← twoDigits? r
  let (month, r) ← (exactly? '-' r).bind twoDigits?
  let (day, r) ← (exactly? '-' r).bind twoDigits?
  if month < 1 || 12 < month || day < 1 || 31 < day then none
  some (⟨century * 100 + year, month, day⟩, r)

/-- A moment. One that starts like a day but is none fails the document: the inner option. -/
def moment? (cs : List Char) : Option (Option Moment × List Char) :=
  match day? cs with
  | some (d, r) =>
    let ok (m : Moment) := if d.isValid then some m else none
    let timed := match r with
      | c :: r => if c == 'T' || c == 't' || c == ' ' then clock? r else none
      | [] => none
    match timed with
    | some (c, r) =>
      let (o, r) := offset r
      some (ok (.both d c o), r)
    | none => some (ok (.day d), r)
  | none => (clock? cs).map fun (c, r) => (some (.clock c), r)

/-- The digits of a class with single underscores between them, and what follows. -/
def digits (p : Char → Bool) : List Char → List Char × List Char
  | [] => ([], [])
  | c :: '_' :: e :: r =>
    if !p c then ([], c :: '_' :: e :: r)
    else if p e then
      let (ds, rest) := digits p (e :: r)
      (c :: ds, rest)
    else ([c], '_' :: e :: r)
  | c :: r =>
    if p c then
      let (ds, rest) := digits p r
      (c :: ds, rest)
    else ([], c :: r)

/-- The value of digits in a base. -/
def inBase (base : Nat) (ds : List Char) : Int :=
  ds.foldl (fun n c => base * n + (Json.hexValue? c).getD 0) (0 : Nat)

/-- A number with a letter for its base. -/
def basedNumber? : List Char → Option (Value × List Char)
  | '0' :: b :: r =>
    let found := match b with
      | 'x' => some (16, digits (fun c => (Json.hexValue? c).isSome) r)
      | 'b' => some (2, digits (fun c => c == '0' || c == '1') r)
      | 'o' => some (8, digits (fun c => '0' ≤ c && c ≤ '7') r)
      | _ => none
    match found with
    | some (base, d :: ds, rest) => some (.int (inBase base (d :: ds)), rest)
    | _ => none
  | _ => none

/-- The sign at the front. -/
def sign : List Char → List Char × List Char
  | c :: r => if c == '+' || c == '-' then ([c], r) else ([], c :: r)
  | [] => ([], [])

/-- The whole part of a decimal number: zero, or digits without a zero in front. -/
def wholePart : List Char → List Char × List Char
  | '0' :: r => (['0'], r)
  | cs => digits Char.isDigit cs

/-- The part of a decimal number after the point. -/
def fraction : List Char → List Char × List Char
  | '.' :: r =>
    match digits Char.isDigit r with
    | ([], _) => ([], '.' :: r)
    | (ds, rest) => ('.' :: ds, rest)
  | cs => ([], cs)

/-- The exponent of a decimal number. -/
def exponent : List Char → List Char × List Char
  | c :: r =>
    if c == 'e' || c == 'E' then
      let (s, u) := sign r
      match digits Char.isDigit u with
      | ([], _) => ([], c :: r)
      | (ds, rest) => ('e' :: s ++ ds, rest)
    else ([], c :: r)
  | [] => ([], [])

/-- A decimal number: an integer unless it has a point or an exponent. -/
def decimalNumber? (cs : List Char) : Option (Value × List Char) := do
  let (s, r) := sign cs
  let (whole, r) := wholePart r
  if whole.isEmpty then none
  let (part, r) := fraction r
  let (e, r) := exponent r
  if part.isEmpty && e.isEmpty then
    let n ← (Number.readInt (String.ofList (s ++ whole))).toOption
    some (.int n, r)
  else
    let x ← (Number.readReal (String.ofList (s ++ whole ++ part ++ e))).toOption
    some (.real x, r)

/-- A word for an infinite number or for none. -/
def namedNumber? (cs : List Char) : Option (Value × List Char) := do
  let (s, r) := sign cs
  let word := r.take 3
  if word == "inf".toList then some (.real (.infinite (s == ['-'])), r.drop 3)
  else if word == "nan".toList then some (.real .nan, r.drop 3)
  else none

/-! ## Tables -/

/-- The members of a table. -/
abbrev Members := List (String × Value)

/-- A member in the place of the one under its key. -/
def setMember (key : String) (v : Value) : Members → Members
  | [] => [(key, v)]
  | (k, w) :: ms => if k = key then (k, v) :: ms else (k, w) :: setMember key v ms

/-- Changes the table behind a key; tables that are missing are made. The last item of a list may be
on the way, if `lists`. -/
def within (lists : Bool) (change : Members → Option Members) : Key → Members → Option Members
  | [], ms => change ms
  | k :: ks, ms =>
    match ms.lookup k with
    | none => (within lists change ks []).map fun inner => setMember k (.table inner) ms
    | some (.table inner) =>
      (within lists change ks inner).map fun inner => setMember k (.table inner) ms
    | some (.list vs) =>
      match lists, vs.getLast? with
      | true, some (.table inner) =>
        (within lists change ks inner).map fun inner =>
          setMember k (.list (vs.dropLast ++ [.table inner])) ms
      | _, _ => none
    | some _ => none

/-- Adds a member that is not there yet. -/
def addMember (key : String) (v : Value) (ms : Members) : Option Members :=
  if ms.any (·.1 == key) then none else some (ms ++ [(key, v)])

/-- Adds an empty table to a list of tables. -/
def addTable (key : String) (ms : Members) : Option Members :=
  match ms.lookup key with
  | none => some (ms ++ [(key, .list [.table []])])
  | some (.list vs) => some (setMember key (.list (vs ++ [.table []])) ms)
  | some _ => none

/-- Whether one of the keys leads to the key or to a table that it is in. -/
def leadsTo (keys : List Key) (key : Key) : Bool := keys.any (·.isPrefixOf key)

/-! ## Values -/

/-- A key, the equality sign and a value. -/
def pair? (value : List Char → Option (Value × List Char)) (cs : List Char) :
    Option (Key × Value × List Char) := do
  let (key, r) ← key? cs.length cs
  let r ← exactly? '=' r
  let (v, r) ← value (skipSpace r)
  some (key, v, r)

/-- The items of a list up to its closing bracket. -/
def listItems? (value : List Char → Option (Value × List Char)) :
    Nat → List Char → Option (List Value × List Char)
  | 0, _ => none
  | fuel + 1, cs => do
    match ← skipGaps? cs.length cs with
    | ']' :: r => some ([], r)
    | r =>
      let (v, r) ← value r
      match ← skipGaps? r.length r with
      | ']' :: r => some ([v], r)
      | ',' :: r => (listItems? value fuel r).map fun (vs, r) => (v :: vs, r)
      | _ => none

/-- The members of a table in braces, after those read so far, up to its closing brace; the keys of
members with parts are closed. -/
def tableMembers? (value : List Char → Option (Value × List Char)) :
    Nat → List Key → Members → List Char → Option (Members × List Char)
  | 0, _, _, _ => none
  | fuel + 1, closed, ms, cs => do
    let (key, v, r) ← pair? value cs
    if leadsTo closed key then none
    let ms ← within false (addMember (key.getLastD "") v) key.dropLast ms
    match skipSpace r with
    | '\x7d' :: r => some (ms, r)
    | ',' :: r =>
      tableMembers? value fuel (if v.hasParts then key :: closed else closed) ms (skipSpace r)
    | _ => none

/-- A value. -/
def value? : Nat → List Char → Option (Value × List Char)
  | 0, _ => none
  | fuel + 1, cs =>
    match cs with
    | [] => none
    | '[' :: r => (listItems? (value? fuel) cs.length r).map fun (vs, rest) => (.list vs, rest)
    | '\x7b' :: r =>
      match skipSpace r with
      | '\x7d' :: rest => some (.table [], rest)
      | r => (tableMembers? (value? fuel) cs.length [] [] r).map fun (ms, rest) => (.table ms, rest)
    | c :: r =>
      if c == '"' || c == '\'' then (text? cs).map fun (s, rest) => (.text (String.ofList s), rest)
      else if "true".toList.isPrefixOf cs then some (.truth true, r.drop 3)
      else if "false".toList.isPrefixOf cs then some (.truth false, r.drop 4)
      else match moment? cs with
        | some (m, rest) => m.map fun m => (.moment m, rest)
        | none => (basedNumber? cs).or ((decimalNumber? cs).or (namedNumber? cs))

/-! ## Documents -/

/-- What was read of a document: its tables, the keys that were given as headings or on the way to a
member (those of the current part apart), the keys of members that are closed, and the current
heading. -/
structure Document where
  members : Members
  given : List Key
  pending : List Key
  closed : List Key
  heading : Key

/-- Sets the member under a key of the current part. -/
def Document.assign? (d : Document) (key : Key) (v : Value) : Option Document := do
  let onTheWay := (List.range (key.length - 1)).map fun i => d.heading ++ key.take (i + 1)
  if onTheWay.any d.given.contains then none
  if leadsTo d.closed (d.heading ++ key.dropLast) then none
  let members ← within true (addMember (key.getLastD "") v) (d.heading ++ key.dropLast) d.members
  some { d with
    members
    pending := onTheWay ++ d.pending
    closed := if v.hasParts then (d.heading ++ key) :: d.closed else d.closed }

/-- Ends the current part: the keys on the way to its members count as given. -/
def Document.settle (d : Document) : Document :=
  { d with given := d.pending ++ d.given, pending := [] }

/-- Starts the part of a table. -/
def Document.openTable? (d : Document) (key : Key) : Option Document := do
  let d := d.settle
  if d.given.contains key || leadsTo d.closed key then none
  let members ← within true some key d.members
  some { d with members, given := key :: d.given, heading := key }

/-- Starts the part of the next table in a list. -/
def Document.openItem? (d : Document) (key : Key) : Option Document := do
  let d := d.settle
  if leadsTo d.closed key then none
  let members ← within true (addTable (key.getLastD "")) key.dropLast d.members
  some { d with
    members
    given := key :: d.given.filter fun k => !key.isPrefixOf k
    closed := d.closed.filter fun k => !key.isPrefixOf k
    heading := key }

/-- A statement at the front of the text. -/
def statement? (d : Document) (cs : List Char) : Option (Document × List Char) :=
  match cs with
  | '[' :: '[' :: r => do
    let (key, r) ← key? cs.length (skipSpace r)
    let d ← d.openItem? key
    let r ← (exactly? ']' r).bind (exactly? ']')
    some (d, r)
  | '[' :: r => do
    let (key, r) ← key? cs.length (skipSpace r)
    let d ← d.openTable? key
    let r ← exactly? ']' r
    some (d, r)
  | '#' :: _ => some (d, cs)
  | cs => do
    let (key, v, r) ← pair? (value? cs.length) cs
    let d ← d.assign? key v
    some (d, r)

/-- The statements of the text, one on a line. -/
def statements? : Nat → Document → List Char → Option Document
  | 0, _, _ => none
  | fuel + 1, d, cs =>
    match skipSpace cs with
    | [] => some d
    | '\n' :: r => statements? fuel d r
    | r => do
      let (d, r) ← statement? d r
      match ← skipComment? (skipSpace r) with
      | [] => some d
      | '\n' :: r => statements? fuel d r
      | _ => none

/-- The table of a document. -/
def parse? (cs : List Char) : Option Members :=
  (statements? (cs.length + 1) ⟨[], [], [], [], []⟩ cs).map (·.members)

end Partitura.Config.Toml
