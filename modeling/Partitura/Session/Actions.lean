import Partitura.Session.Windows

/-!
# Actions

Keys, texts, buttons and commands; and getting rid of dialogs that stand in the way.
-/

namespace Partitura.Session

variable {σ : Type} [Host σ]

/-! ## Keys and buttons -/

/-- Brings the notation program to the front. -/
def activate : Session σ Unit := perform activation

/-- Waits. -/
def wait (seconds : String) : Session σ Unit := perform (pause seconds)

/-- `press_key`: presses a key while others are held down. A key that types no character is known by
its name in any case. -/
def pressKey (key : String) (modifiers : List String := []) : Session σ Unit :=
  match keyCodes.lookup (Text.lower key) with
  | some code => perform (keyCodePress code modifiers)
  | none => perform (keystroke key modifiers)

/-- `type_text`: types a text. -/
def typeText (text : String) (delay : Seconds := .tenth) : Session σ Unit :=
  perform (typing text delay)

/-- `type_in_field`: types a text in the place of all that a field holds. -/
def typeInField (text : String) (delay : Seconds := .tenth) : Session σ Unit := do
  pressKey "a" ["command"]
  wait "0.1"
  typeText text delay

/-- `click_button`: clicks a button, and says whether that worked. -/
def clickButton (button : String) (window : String := "front window") : Session σ Bool := do
  return (← attempt (buttonClick button window)).isSome

/-- `click_button_in_group`: clicks a button in a group, and says whether that worked. -/
def clickButtonInGroup (button : String) : Session σ Bool := do
  return (← attempt (groupButtonClick button)).isSome

/-! ## Dialogs -/

/-- `dismiss_message_box`: closes a message, and says whether it is gone. -/
def dismissMessageBox : Session σ Bool := do
  pressKey "return"
  wait "0.3"
  return (← dialog) != .messageBox

/-- `dismiss_save_changes`: answers the question about changes, and says whether it is gone. -/
def dismissSaveChanges (save : Bool := false) : Session σ Bool := do
  let _ ← clickButton (if save then "Save" else "Don't Save")
  wait "0.3"
  return (← dialog) != .saveChanges

/-- `dismiss_quick_start`: closes the start dialog, and says whether it is gone. -/
def dismissQuickStart : Session σ Bool := do
  let _ ← clickButton "Close"
  wait "0.5"
  return (← dialog) != .quickStart

/-- `dismiss_edit_plugins`: closes the dialog of plugins, and says whether it is gone. -/
def dismissEditPlugins : Session σ Bool := do
  let _ ← clickButtonInGroup "Close"
  wait "0.3"
  return (← dialog) != .editPlugins

/-- Closes a dialog that is not known. -/
def dismissUnknown : Session σ Bool := do
  pressKey "return"
  wait "0.3"
  if (← dialog) = .unknown then
    pressKey "escape"
    wait "0.3"
  return true

/-- `dismiss_current_modal`: closes the dialog that is open, and says whether there was one that is
gone. -/
def dismissDialog : Session σ Bool := do
  match ← dialog with
  | .none => return false
  | .messageBox => dismissMessageBox
  | .saveChanges => dismissSaveChanges
  | .quickStart => dismissQuickStart
  | .editPlugins => dismissEditPlugins
  | .unknown => dismissUnknown

/-- `dismiss_all_modals`: closes dialogs, `limit` of them at most, and gives their number. -/
def dismissDialogs : Nat → Session σ Nat
  | 0 => return 0
  | limit + 1 => do
    if ← dismissDialog then return (← dismissDialogs limit) + 1 else return 0

/-- How many dialogs are closed in a row. -/
def dialogLimit : Nat := 5

/-! ## Commands -/

/-- `open_command_search`: opens the list of commands. -/
def openCommandSearch : Session σ Unit := do
  pressKey "0" ["control"]
  wait "1"

/-- `close_command_search`: closes the list of commands. -/
def closeCommandSearch : Session σ Unit := do
  activate
  pressKey "escape"
  wait "0.3"

/-- Goes down by one line. -/
def stepDown : Session σ Unit := do
  pressKey "down"
  wait "0.2"

/-- `run_command`: runs a command by its name, which may stand some lines down in the list. -/
def runCommand (command : String) (down : Nat := 0) : Session σ Unit := do
  openCommandSearch
  typeInField command
  wait "0.8"
  repeatedly stepDown down
  pressKey "return"
  wait "0.5"

end Partitura.Session
