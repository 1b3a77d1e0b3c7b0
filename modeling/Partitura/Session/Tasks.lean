import Partitura.Files.Pathname
import Partitura.Session.Actions

/-!
# Tasks

What a session is for: opening and closing scores, loading and running plugins, moving about, and
taking pictures.
-/

namespace Partitura.Session

variable {σ : Type} [Host σ]

/-- Gets rid of dialogs. -/
def clearDialogs : Session σ Unit := do
  let _ ← dismissDialogs dialogLimit

/-! ## Scores -/

/-- `close_score`: closes the score. -/
def closeScore (save : Bool := false) : Session σ Unit := do
  activate
  pressKey "w" ["command"]
  wait "0.5"
  if (← dialog) = .saveChanges then
    let _ ← dismissSaveChanges save

/-- Chooses the blank score in the start dialog, and says whether a score is open then. -/
def chooseBlankScore : Session σ Bool := do
  perform searchFocus
  wait "0.3"
  typeInField "Blank"
  wait "0.5"
  pressKey "tab"
  wait "0.3"
  pressKey "return"
  wait "3"
  isScoreOpen

/-- `create_blank_score`: makes a blank score, and says whether that worked. -/
def createBlankScore : Session σ Bool := do
  activate
  clearDialogs
  pressKey "n" ["command"]
  wait "2"
  if (← dialog) != .quickStart then return false else chooseBlankScore

/-- `ensure_blank_score`: closes the score that is open, if there is one, and makes a blank one. -/
def ensureBlankScore : Session σ Bool := do
  activate
  clearDialogs
  if ← isScoreOpen then
    closeScore
    clearDialogs
  createBlankScore

/-! ## Plugins -/

/-- Whether the dialog of plugins is open. -/
def editPluginsOpen : Session σ Bool := do
  if (← dialog) = .editPlugins then return true
  else return Text.contains (← frontWindow) "Edit Plugins"

/-- Tells what failed, closes the dialog of plugins and gives up. -/
def giveUpReload (line : String) : Session σ Bool := do
  print line
  let _ ← dismissEditPlugins
  return false

/-- Unloads and loads the plugin that is found in the dialog. -/
def reloadFound : Session σ Bool := do
  if !(← clickButton "&Unload") then giveUpReload "  ✗ Failed to click Unload"
  else
    wait "0.5"
    if !(← clickButton "&Reload") then giveUpReload "  ✗ Failed to click Reload"
    else
      wait "1"
      let _ ← dismissEditPlugins
      print "  ✓ Plugin reloaded"
      return true

/-- `reload_plugin`: loads a plugin anew, and says whether that worked. -/
def reloadPlugin (name : String) : Session σ Bool := do
  print ("→ Reloading plugin: " ++ name)
  clearDialogs
  closeCommandSearch
  runCommand "Edit Plug-ins"
  wait "1.5"
  if !(← editPluginsOpen) then
    print "  ✗ Failed to open Edit Plugins dialog"
    return false
  else
    typeInField name
    wait "0.5"
    pressKey "return"
    wait "0.5"
    reloadFound

/-- Reads a message and tells it; gives the message if it tells of an error. -/
def readMessage : Session σ (List String) := do
  match ← attempt messageText with
  | none => return []
  | some text =>
    if text != "" && Text.contains (Text.lower text) "error" then
      print ("  ✗ Plugin error: " ++ text)
      return [text]
    else
      print ("  ✓ " ++ text)
      return []

/-- Reads and closes messages, `limit` of them at most, and gives those that tell of errors. -/
def readMessages : Nat → Session σ (List String)
  | 0 => return []
  | limit + 1 => do
    if (← dialog) != .messageBox then return []
    else
      let errors ← readMessage
      pressKey "return"
      wait "0.5"
      return errors ++ (← readMessages limit)

/-- `run_plugin`: runs a plugin; says whether that worked, with the messages of errors. -/
def runPlugin (name : String) (down : Nat := 0) : Session σ (Bool × String) := do
  print ("→ Running plugin: " ++ name)
  clearDialogs
  closeCommandSearch
  runCommand name down
  wait "5"
  let errors ← readMessages dialogLimit
  return (errors.isEmpty, Text.join "\n" errors)

/-! ## Moving about -/

/-- `go_to_bar`: goes to a bar. -/
def goToBar (bar : Int) : Session σ Unit := perform (barJump bar)

/-- `go_to_page`: goes to a page. -/
def goToPage (page : Int) : Session σ Unit := do
  print ("→ Going to page " ++ toString page)
  runCommand "Go to Page"
  wait "0.5"
  typeText (toString page)
  pressKey "return"
  wait "1"

/-- `scroll_to_start`: goes to the start of the score. -/
def scrollToStart : Session σ Unit := do
  pressKey "home" ["command"]
  wait "0.3"

/-- `switch_to_window`: switches to a window by a part of its name, and says whether there is
one. -/
def switchToWindow (name : String) : Session σ Bool :=
  do return (← run (windowSwitch name)) = "true"

/-! ## Pictures and notices -/

/-- Takes a picture of the screen. -/
def screenshot (path : Files.Pathname) : Session σ Files.Pathname := do
  perform (screenPicture path.render)
  return path

/-- Shows a notice. -/
def notify (message : String) : Session σ Unit := perform (notice message)

/-- `say`: says something aloud. -/
def speak (message : String) : Session σ Unit := perform (speech message)

/-- Tells that a task starts. -/
def starting (task : String := "automation") : Session σ Unit := do
  print ("▶ Starting: " ++ task)
  notify ("Starting: " ++ task)
  speak ("Starting " ++ task)
  wait "1.5"

/-- `done`: tells that all is done, and goes back to the editor. -/
def finish : Session σ Unit := do
  print "✓ Done"
  notify "Automation complete"
  speak "Done"
  perform editorActivation

/-- `dismiss_modal`: confirms a number of dialogs. -/
def confirmDialogs (count : Nat := 1) : Session σ Unit :=
  repeatedly (do
    pressKey "return"
    wait "0.5") count

/-- Takes a picture of a page in the window with a part of the name, in a directory. -/
def pagePicture (dir : Files.Pathname) (name : String) (page : Int) : Session σ Files.Pathname := do
  let _ ← switchToWindow name
  goToPage page
  let file :=
    String.ofList (Text.replaceChar ' ' ['_'] name.toList) ++ "_p" ++ toString page ++ ".png"
  screenshot (dir.append (.ofString file))

/-- `compare_windows`: takes pictures of one page in two windows. -/
def compareWindows (first second : String) (dir : Files.Pathname) (page : Int := 1) :
    Session σ (Files.Pathname × Files.Pathname) := do
  activate
  let a ← pagePicture dir first page
  let b ← pagePicture dir second page
  return (a, b)

end Partitura.Session
