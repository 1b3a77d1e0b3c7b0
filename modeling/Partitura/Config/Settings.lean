import Partitura.Config.Value

/-!
# Settings

The settings of the linter, from the table of a configuration. What is missing or of the wrong kind
has its default.
-/

namespace Partitura.Config

/-- `LintConfig`: the settings of the linter: codes that are left out, that may and may not be
mended, and that count as errors; `strict` counts all of them as errors. -/
structure LintSettings where
  ignore : List String := []
  fixable : List String := []
  unfixable : List String := []
  error : List String := []
  strict : Bool := false
deriving DecidableEq, Repr

/-- Why there are no settings in a configuration. -/
inductive SettingsFault where
  /-- A value in the place of a table, by the name of its kind. -/
  | noTable (kind : String)
  /-- A code is a number with too many digits. -/
  | longNumber
deriving DecidableEq, Repr

/-- How it is told that there are no settings. -/
def SettingsFault.message : SettingsFault → String
  | noTable kind => "'" ++ kind ++ "' object has no attribute 'get'"
  | longNumber =>
    "Exceeds the limit (" ++ toString Number.digitLimit ++
      " digits) for integer string conversion; " ++
      "use sys.set_int_max_str_digits() to increase the limit"

/-- The codes under a key: the words for all items of a list that are something. -/
def codesUnder (key : String) (table : List (String × Value)) :
    Except SettingsFault (List String) :=
  match table.lookup key with
  | some (.list vs) =>
    let codes := vs.filter Value.isSomething
    if codes.all Value.isWritable then .ok (codes.map Value.words) else .error .longNumber
  | _ => .ok []

/-- `_parse_lint_config`: the settings in the table of the linter. -/
def LintSettings.ofTable (table : List (String × Value)) : Except SettingsFault LintSettings := do
  let ignore ← codesUnder "ignore" table
  let fixable ← codesUnder "fixable" table
  let unfixable ← codesUnder "unfixable" table
  let error ← codesUnder "error" table
  return {
    ignore, fixable, unfixable, error
    strict := match table.lookup "strict" with
      | some (.truth b) => b
      | _ => false }

/-- `_parse_config`: the settings in the table of a whole configuration. -/
def LintSettings.ofConfiguration (table : List (String × Value)) :
    Except SettingsFault LintSettings :=
  match table.lookup "sibelius" with
  | some (.table ms) =>
    match ms.lookup "lint" with
    | some (.table ms) => LintSettings.ofTable ms
    | _ => .ok {}
  | _ => .ok {}

end Partitura.Config
