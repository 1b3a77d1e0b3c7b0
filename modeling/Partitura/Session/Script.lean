import Partitura.Number.Shortest
import Partitura.Text.Search

/-!
# Scripts

The texts of the scripts that a session runs. A script of several lines is laid out as a block: it
starts on a new line, its lines are indented, and it ends on a line that is indented one step less.
-/

namespace Partitura.Session

/-- Spaces. -/
def spaces (n : Nat) : String := String.ofList (List.replicate n ' ')

/-- A block of lines at an indentation. -/
def block (indent : Nat) (lines : List String) : String :=
  "\n" ++ Text.join "\n" (lines.map (spaces indent ++ ·)) ++ "\n" ++ spaces (indent - 4)

/-- Lines one step in. -/
def nested (lines : List String) : List String := lines.map (spaces 4 ++ ·)

/-- Lines that are told to something. -/
def tell (whom : String) (lines : List String) : List String :=
  ["tell " ++ whom] ++ nested lines ++ ["end tell"]

/-- Lines that hold under a condition. -/
def when_ (condition : String) (lines : List String) : List String :=
  ["if " ++ condition ++ " then"] ++ nested lines ++ ["end if"]

/-- Lines for the windows of the notation program. -/
def inProcess (lines : List String) : List String :=
  tell "application \"System Events\"" (tell "process \"Sibelius\"" lines)

/-- A pause of so many seconds. -/
def pause (seconds : String) : String := "delay " ++ seconds

/-- A time in seconds, whole or not. -/
inductive Seconds where
  | whole (n : Int)
  | real (x : Number.Binary64)
deriving DecidableEq, Repr

/-- A time as it is written. -/
def Seconds.render : Seconds → String
  | whole n => toString n
  | real x => x.render

/-- A tenth of a second. -/
def Seconds.tenth : Seconds := .real (Number.Binary64.ofDecimal false 1 (-1))

/-! ## Asking -/

/-- Asks for the names of all windows. -/
def allWindows : String := block 8 (inProcess ["return name of every window"])

/-- Asks for the name of the front window. -/
def frontWindowName : String := block 12 (inProcess ["return name of front window"])

/-- Asks whether the front window is a message. -/
def messageBoxTest : String :=
  block 12 (inProcess (when_ "exists (front window)"
    (["set winName to name of front window"] ++ when_ "winName is \"Sibelius\""
      (["-- Check if it looks like a message box"] ++
        when_ "exists (static text 1 of front window)" ["return \"message_box\""]))) ++
          ["return \"none\""])

/-- Asks whether the front window wants to know about changes. -/
def saveChangesTest : String :=
  block 12
    (inProcess (when_ "exists (sheet 1 of front window)" ["return \"save_changes\""]) ++
      ["return \"none\""])

/-- Asks what has the focus. -/
def focusedElement : String :=
  block 12
    (inProcess
      ["-- Check if any combo box is focused", "set focusedElement to focused of front window",
    "return focusedElement as string"])

/-- Asks for the text of a message. -/
def messageText : String := block 16 (inProcess ["get value of static text 1 of front window"])

/-! ## Acting -/

/-- Brings the notation program to the front. -/
def activation : String := block 8 (tell "application \"Sibelius\"" ["activate"] ++ [pause "0.3"])

/-- The codes of keys that type no character. -/
def keyCodes : List (String × String) :=
  [("return", "36"), ("escape", "53"), ("tab", "48"), ("delete", "51"), ("home", "115"),
    ("end", "119"), ("up", "126"), ("down", "125"), ("left", "123"), ("right", "124")]

/-- The keys that are held down. -/
def holding (modifiers : List String) : String :=
  if modifiers.isEmpty then ""
  else " using \x7b" ++ Text.join ", " (modifiers.map (· ++ " down")) ++ "\x7d"

/-- Presses a key by its code. -/
def keyCodePress (code : String) (modifiers : List String) : String :=
  block 12 (inProcess ["key code " ++ code ++ holding modifiers, pause "0.2"])

/-- Presses a key by its character. -/
def keystroke (key : String) (modifiers : List String) : String :=
  block 12 (inProcess ["keystroke \"" ++ key ++ "\"" ++ holding modifiers, pause "0.2"])

/-- A text inside of double quotes. -/
def escapedText (s : String) : String :=
  String.ofList (s.toList.flatMap fun c => if c == '\\' || c == '"' then ['\\', c] else [c])

/-- Types a text. -/
def typing (text : String) (delay : Seconds) : String :=
  block 8 (inProcess ["keystroke \"" ++ escapedText text ++ "\"", pause delay.render])

/-- Clicks a button. -/
def buttonClick (button window : String) : String :=
  block 12 (inProcess ["click button \"" ++ button ++ "\" of " ++ window, pause "0.3"])

/-- Clicks a button in the first group that has it. -/
def groupButtonClick (button : String) : String :=
  block 12 (inProcess (["repeat with g in groups of front window"] ++
    nested (["try"] ++ nested ["click button \"" ++ button ++ "\" of g", "exit repeat"] ++
      ["end try"]) ++
    ["end repeat", pause "0.3"]))

/-- Puts the focus on the search field of the start dialog. -/
def searchFocus : String :=
  block 8 (inProcess
    (tell "window \"Quick Start\"" ["set focused of text field 1 of group 2 to true"]))

/-- Goes to a bar. -/
def barJump (bar : Int) : String :=
  block 8 (inProcess ["keystroke \"g\" using \x7bcommand down, option down\x7d", pause "0.3",
    "keystroke \"" ++ toString bar ++ "\"", pause "0.1", "keystroke return", pause "0.3"])

/-- Switches to the window whose name holds a text. -/
def windowSwitch (name : String) : String :=
  let found := when_ ("itemName contains \"" ++ name ++ "\"")
    ["click menu item i of menu \"Window\" of menu bar 1", pause "0.3", "return \"true\""]
  block 8 (inProcess
    (["set windowMenuItems to name of every menu item of menu \"Window\" of menu bar 1",
      "repeat with i from 1 to count of windowMenuItems"] ++
    nested (["set itemName to item i of windowMenuItems"] ++
      when_ "itemName is not missing value" found) ++
    ["end repeat"]) ++ ["return \"false\""])

/-- Takes a picture of the screen. -/
def screenPicture (path : String) : String := "do shell script \"screencapture -x " ++ path ++ "\""

/-- Shows a notice. -/
def notice (message : String) : String :=
  "display notification \"" ++ message ++ "\" with title \"Mahlif Automation\""

/-- Says something aloud. -/
def speech (message : String) : String := "say \"" ++ message ++ "\""

/-- Brings the editor to the front. -/
def editorActivation : String := block 8 (tell "application \"Visual Studio Code\"" ["activate"])

end Partitura.Session
