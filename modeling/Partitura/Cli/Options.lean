import Partitura.Text.Class
import Partitura.Text.Search

/-!
# Options and arguments

A command line is a list of words. Words with a hyphen in front name options, in full or by the
start of a long name; the others fill the places of the command from the left to the right. A place
is filled from one stretch of words between options. After two hyphens no word names an option.
-/

namespace Partitura.Cli

/-- What an option does: it is set, it takes a value, or it ends the run with some text. -/
inductive Effect where
  | set
  | value
  | help
  | version
deriving DecidableEq, Repr

/-- An option: the names it goes by, what it does, and the values it takes, any if none is
listed. -/
structure OptionSpec where
  names : List String
  effect : Effect
  choices : List String := []
deriving DecidableEq, Repr

/-- The name that the option is known by: its last one. -/
def OptionSpec.key (o : OptionSpec) : String := o.names.getLastD ""

/-- How many words a place takes: one, any number, at least one, or a command and all that follows
it. -/
inductive Arity where
  | one
  | many
  | atLeastOne
  | command (required : Bool)
deriving DecidableEq, Repr

/-- A place for words, and the words it takes, any if none is listed. -/
structure Place where
  key : String
  arity : Arity
  choices : List String := []
deriving DecidableEq, Repr

/-- The options and places of a command, and the text of its help. -/
structure Grammar where
  options : List OptionSpec
  places : List Place
  help : String := ""
deriving DecidableEq, Repr

/-- Why reading a command line ends the run. -/
inductive Stop where
  | usage
  | help (text : String)
  | version
deriving DecidableEq, Repr

/-- What was read: the options that are set, the values, the words in places, the command with the
words after it, and the words that have no place. -/
structure Parsed where
  set : List String := []
  values : List (String × String) := []
  words : List (String × List String) := []
  command : Option (String × List String) := none
  extra : List String := []
deriving DecidableEq, Repr

namespace Parsed

/-- Whether an option is set. -/
def has (p : Parsed) (key : String) : Bool := p.set.contains key

/-- The value of an option; the last one given counts. -/
def value? (p : Parsed) (key : String) : Option String := p.values.reverse.lookup key

/-- The words in a place. -/
def all (p : Parsed) (key : String) : List String := (p.words.lookup key).getD []

/-- The first word in a place. -/
def first (p : Parsed) (key : String) : String := (p.all key).headD ""

end Parsed

/-! ## Words -/

/-- An option as a word names it: by its full long name, with a value if the word goes on with an
equality sign; or by a short name, with the rest of the word. -/
inductive Mention where
  | long (value : Option (List Char))
  | short (rest : List Char)
deriving DecidableEq, Repr

/-- A word of the command line: an option, if it is known; two hyphens; or a word for a place. -/
inductive Word where
  | option (text : String) (known : Option (OptionSpec × Mention))
  | separator
  | plain (text : String)
deriving DecidableEq, Repr

/-- The text of a word. -/
def Word.text : Word → String
  | option t _ => t
  | separator => "--"
  | plain t => t

/-- Whether a word names an option. -/
def Word.isOption : Word → Bool
  | option .. => true
  | _ => false

/-- Whether a word is one for a place. -/
def Word.isPlain : Word → Bool
  | plain _ => true
  | _ => false

/-- The option of a name. -/
def Grammar.option? (g : Grammar) (name : List Char) : Option OptionSpec :=
  g.options.find? (·.names.contains (String.ofList name))

/-- The name and the value on the two sides of the first equality sign. -/
def cutValue (cs : List Char) : List Char × Option (List Char) :=
  let name := cs.takeWhile (· != '=')
  (name, if name.length < cs.length then some (cs.drop (name.length + 1)) else none)

/-- The options that a word may stand for: by a full name or, if there is none, by the start of a
long name; a short name may have more characters after it. -/
def Grammar.candidates (g : Grammar) (cs : List Char) : List (OptionSpec × Mention) :=
  if ['-', '-'].isPrefixOf cs then
    let (name, value) := cutValue cs
    match g.option? name with
    | some o => [(o, .long value)]
    | none =>
      g.options.flatMap fun o =>
        (o.names.filter fun n => name.isPrefixOf n.toList).map fun _ => (o, .long value)
  else ((g.option? (cs.take 2)).map fun o => (o, .short (cs.drop 2))).toList

/-- A negative number is no option. -/
def isNegativeNumber : List Char → Bool
  | '-' :: r =>
    let whole := r.takeWhile Text.isDecimal
    match r.drop whole.length with
    | [] => !whole.isEmpty
    | '.' :: part => !part.isEmpty && part.all Text.isDecimal
    | _ => false
  | _ => false

/-- What a word is that stands before two hyphens. -/
def Grammar.word (g : Grammar) (text : String) : Except Stop Word :=
  let cs := text.toList
  if cs.head? != some '-' || cs.length = 1 then .ok (.plain text)
  else match g.candidates cs with
    | [c] => .ok (.option text (some c))
    | _ :: _ :: _ => .error .usage
    | [] => .ok (if isNegativeNumber cs || cs.contains ' ' then .plain text else .option text none)

/-- The words of a command line. -/
def Grammar.wordsOf (g : Grammar) : List String → Except Stop (List Word)
  | [] => .ok []
  | t :: ts =>
    if t = "--" then .ok (.separator :: ts.map .plain)
    else do
      let w ← g.word t
      return w :: (← g.wordsOf ts)

/-! ## Options -/

/-- What is read so far, and the places that are still to be filled. -/
structure Progress where
  parsed : Parsed
  places : List Place
deriving DecidableEq, Repr

/-- Does what an option does. -/
def Progress.apply (g : Grammar) (p : Progress) (o : OptionSpec) (value : Option (List Char)) :
    Except Stop Progress :=
  match o.effect, value with
  | .help, _ => .error (.help g.help)
  | .version, _ => .error .version
  | .set, _ => .ok { p with parsed := { p.parsed with set := p.parsed.set ++ [o.key] } }
  | .value, some v =>
    let v := String.ofList v
    if o.choices.isEmpty || o.choices.contains v then
      .ok { p with parsed := { p.parsed with values := p.parsed.values ++ [(o.key, v)] } }
    else .error .usage
  | .value, none => .error .usage

/-- What a word with options says: the options with their values, the option whose value is the next
word, and what is left over. -/
structure Cluster where
  options : List (OptionSpec × Option (List Char)) := []
  next : Option OptionSpec := none
  left : Option String := none
deriving DecidableEq, Repr

/-- The options of a word that names `o` by a short name and goes on with these characters: more
short names, or the value of the last one. -/
def Grammar.cluster? (g : Grammar) (o : OptionSpec) : List Char → Option Cluster
  | [] => some (if o.effect = .value then { next := some o } else { options := [(o, none)] })
  | c :: r =>
    if o.effect = .value then some { options := [(o, some (if c == '=' then r else c :: r))] }
    else if c == '=' || c == '-' then none
    else match g.option? ['-', c] with
      | some o' => (g.cluster? o' r).map fun k => { k with options := (o, none) :: k.options }
      | none => some { options := [(o, none)], left := some (String.ofList ('-' :: c :: r)) }

/-- The options of a word. -/
def Grammar.cluster (g : Grammar) (o : OptionSpec) : Mention → Option Cluster
  | .short rest => g.cluster? o rest
  | .long none => g.cluster? o []
  | .long (some v) => if o.effect = .value then some { options := [(o, some v)] } else none

/-- Reads an option, with the next words at hand, and says how many of them belong to it. -/
def Progress.readOption (g : Grammar) (p : Progress) (o : OptionSpec) (m : Mention)
    (next : List Word) : Except Stop (Progress × Nat) :=
  match g.cluster o m with
  | none => .error .usage
  | some k =>
    let p := { p with parsed := { p.parsed with extra := p.parsed.extra ++ k.left.toList } }
    match k.next, next with
    | none, _ => do return (← k.options.foldlM (fun p (o, v) => p.apply g o v) p, 0)
    | some o, .plain t :: _ => do
      return (← (k.options ++ [(o, some t.toList)]).foldlM (fun p (o, v) => p.apply g o v) p, 1)
    | some _, _ => .error .usage

/-! ## Places -/

/-- How many words a place takes from the front, if it can be filled. -/
def Arity.take? (a : Arity) (ws : List Word) : Option Nat :=
  let stretch := ws.takeWhile (!·.isOption)
  match a with
  | .many => some stretch.length
  | .atLeastOne => if stretch.any Word.isPlain then some stretch.length else none
  | .one =>
    let lead := ws.takeWhile (· == .separator)
    match ws.drop lead.length with
    | .plain _ :: r => some (lead.length + 1 + (r.takeWhile (· == .separator)).length)
    | _ => none
  | .command _ => if stretch.any Word.isPlain then some ws.length else none

/-- Fills a place. The first two hyphens among its words are left out. -/
def Progress.fill (p : Progress) (place : Place) (ws : List Word) : Except Stop Progress :=
  let texts := ws.map Word.text
  let allowed (t : String) := place.choices.isEmpty || place.choices.contains t
  match place.arity, texts with
  | .command _, name :: rest =>
    if allowed name then .ok { p with parsed := { p.parsed with command := some (name, rest) } }
    else .error .usage
  | .command _, [] => .error .usage
  | _, texts =>
    let texts := texts.erase "--"
    if texts.all allowed then
      .ok { p with parsed := { p.parsed with words := p.parsed.words ++ [(place.key, texts)] } }
    else .error .usage

/-- Fills as many places as the words at the front allow, and says how many words that takes. -/
def Progress.fillFrom (p : Progress) (used : Nat) (ws : List Word) :
    List Place → Except Stop (Progress × Nat)
  | [] => .ok ({ p with places := [] }, used)
  | place :: places =>
    match place.arity.take? ws with
    | none => .ok ({ p with places := place :: places }, used)
    | some n => do
      let p ← p.fill place (ws.take n)
      p.fillFrom (used + n) (ws.drop n) places

/-! ## Command lines -/

/-- Reads words. Each step takes at least one of them, so `fuel` is their number. -/
def Progress.read (g : Grammar) : Nat → Progress → List Word → Except Stop Progress
  | 0, p, _ => .ok p
  | fuel + 1, p, ws =>
    match ws with
    | .option text none :: r =>
      Progress.read g fuel { p with parsed := { p.parsed with extra := p.parsed.extra ++ [text] } }
        r
    | .option _ (some (o, m)) :: r => do
      let (p, n) ← p.readOption g o m r
      Progress.read g fuel p (r.drop n)
    | ws => do
      let stretch := ws.takeWhile (!·.isOption)
      let (p, n) ← p.fillFrom 0 ws p.places
      if n = 0 || stretch.length = ws.length then
        let left := (stretch.drop n).map Word.text
        Progress.read g fuel { p with parsed := { p.parsed with extra := p.parsed.extra ++ left } }
          (ws.drop (max n stretch.length))
      else Progress.read g fuel p (ws.drop n)

/-- Whether a place may stay empty. -/
def Place.isOptional (p : Place) : Bool :=
  match p.arity with
  | .many => true
  | .command required => !required
  | _ => false

/-- Reads a command line. -/
def Grammar.parse (g : Grammar) (args : List String) : Except Stop Parsed := do
  let ws ← g.wordsOf args
  let p ← Progress.read g (ws.length + 1) ⟨{}, g.places⟩ ws
  if p.places.all (·.isOptional) then return p.parsed else .error .usage

end Partitura.Cli
