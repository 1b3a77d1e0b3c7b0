import Partitura.Session.Host
import Partitura.Session.Script
import Partitura.Text.LowerCase

/-!
# Windows

What the windows of the notation program show: which ones are open, which dialog stands in the way,
whether a score is open.
-/

namespace Partitura.Session

variable {σ : Type} [Host σ]

/-- `get_windows`: the names of all windows. -/
def windows : Session σ (List String) := do
  let names ← run allWindows
  return if names = "" then [] else (Text.pieces ',' names).map Text.trimmed

/-- `get_front_window`: the name of the front window, empty if there is none. -/
def frontWindow : Session σ String := do return (← attempt frontWindowName).getD ""

/-- The dialog that the windows show. -/
def shownDialog : Session σ Dialog := do
  let names ← windows
  let front ← frontWindow
  if names.contains "Quick Start" then return .quickStart
  else if Text.contains front "Edit Plugins" || Text.contains front "Edit Plug-ins" then
    return .editPlugins
  else if (← attempt messageBoxTest) = some "message_box" then return .messageBox
  else if (← attempt saveChangesTest) = some "save_changes" then return .saveChanges
  else return .none

/-- `detect_modal`: the dialog that is open: as the host tells by itself, or else as the windows
show. -/
def dialog : Session σ Dialog := do
  let stage ← get
  match Host.dialog? stage.host with
  | some (d, host) =>
    set { stage with host }
    return d
  | none => shownDialog

/-- Names of front windows that hold no score. -/
def otherWindows : List String := ["Sibelius", "Quick Start", "Edit Plugins"]

/-- `is_score_open`: whether a score is open. -/
def isScoreOpen : Session σ Bool := do
  let front ← frontWindow
  return front != "" && !otherWindows.contains front

/-- `get_bar_count`: the number of bars, which the windows do not tell. -/
def barCount : Int := -1

/-- `is_command_search_active`: whether the list of commands is open. -/
def isCommandSearchActive : Session σ Bool := do
  match ← attempt focusedElement with
  | some text =>
    return Text.contains (Text.lower text) "combo" || Text.contains (Text.lower text) "search"
  | none => return false

/-- `UIState`: what the windows show. -/
structure View where
  windows : List String
  frontWindow : String
  dialog : Dialog
  scoreOpen : Bool
  barCount : Int
  commandSearchActive : Bool
deriving DecidableEq, Repr

/-- The words for a view. -/
def View.render (v : View) : String :=
  let parts := (if v.dialog = .none then [] else ["modal=" ++ v.dialog.name]) ++
    [if v.scoreOpen then "score_open (bars=" ++ toString v.barCount ++ ")" else "no_score"] ++
    (if v.commandSearchActive then ["cmd_search"] else [])
  "UIState(" ++ Text.join ", " parts ++ ")"

/-- `get_ui_state`: what the windows show now. -/
def view : Session σ View := do
  let names ← windows
  let front ← frontWindow
  let open_ ← dialog
  let score ← isScoreOpen
  let scoreOpen := score && open_ = .none
  let search ← isCommandSearchActive
  return ⟨names, front, open_, scoreOpen, if scoreOpen then barCount else 0, search⟩

end Partitura.Session
