import Partitura.Text.Trim

/-!
# Sessions with the notation program

A session runs scripts, one after another, in a host that shows the windows of the notation program,
and writes lines. Every script is noted down. A script that fails ends the session unless the
failure is expected.
-/

namespace Partitura

namespace Session

/-- What the host answers to a script. -/
inductive Reply where
  | output (text : String)
  | failure (text : String)
deriving DecidableEq, Repr

/-- `ModalType`: the dialogs that may stand in the way. -/
inductive Dialog where
  | none
  | quickStart
  | editPlugins
  | messageBox
  | saveChanges
  | unknown
deriving DecidableEq, Repr

/-- The name of a dialog. -/
def Dialog.name : Dialog → String
  | none => "none"
  | quickStart => "quick_start"
  | editPlugins => "edit_plugins"
  | messageBox => "message_box"
  | saveChanges => "save_changes"
  | unknown => "unknown"

/-- All dialogs. -/
def Dialog.all : List Dialog := [none, quickStart, editPlugins, messageBox, saveChanges, unknown]

/-- The dialog of a name. -/
def Dialog.ofName? (s : String) : Option Dialog := all.find? (·.name == s)

/-- A host with states `σ` answers scripts, and may tell by itself which dialog is open. -/
class Host (σ : Type) where
  reply : String → σ → Reply × σ
  dialog? : σ → Option (Dialog × σ)

/-- Where a session stands: the state of the host, the scripts that were run, and what was
written. -/
structure Stage (σ : Type) where
  host : σ
  scripts : List String := []
  out : String := ""

/-- A script failed, with this complaint. -/
structure ScriptError where
  complaint : String
deriving DecidableEq, Repr

/-- How it is told that a script failed. -/
def ScriptError.message (e : ScriptError) : String := "AppleScript error: " ++ e.complaint

end Session

/-- A session with a host of states `σ`. -/
abbrev Session (σ : Type) := ExceptT Session.ScriptError (StateM (Session.Stage σ))

namespace Session

variable {σ : Type}

/-- Plays a session from a stage on: how it ends, and where it stands then. -/
def play {α : Type} (session : Session σ α) (stage : Stage σ) : Except ScriptError α × Stage σ :=
  (ExceptT.run session).run stage

variable [Host σ]

/-- `run_applescript`: runs a script and gives its output without the blanks around it. -/
def run (script : String) : Session σ String := do
  let stage ← get
  let (reply, host) := Host.reply script stage.host
  set { stage with host, scripts := stage.scripts ++ [script] }
  match reply with
  | .output text => return Text.trimmed text
  | .failure text => throw ⟨text⟩

/-- Runs a script whose output does not matter. -/
def perform (script : String) : Session σ Unit := do
  let _ ← run script

/-- Runs a script, and gives nothing if it fails. -/
def attempt (script : String) : Session σ (Option String) :=
  tryCatch (do return some (← run script)) fun _ => return none

/-- Writes a line. -/
def print (line : String) : Session σ Unit :=
  modify fun s => { s with out := s.out ++ line ++ "\n" }

/-- Does something a number of times. -/
def repeatedly (job : Session σ Unit) : Nat → Session σ Unit
  | 0 => return
  | n + 1 => do
    job
    repeatedly job n

end Session

end Partitura
