import Partitura.Session.Host
import Partitura.Text.Search

/-!
# Rehearsals

A host for rehearsals answers by rules: the first rule whose text is part of the script gives its
next reply, and keeps its last one for ever. A list of dialogs, if there is one, says which ones are
open, one after another, the last one for ever.
-/

namespace Partitura.Session

/-- What is answered to scripts that hold the text. -/
structure Rule where
  part : String
  replies : List Reply
deriving DecidableEq, Repr

/-- A host for rehearsals. -/
structure Rehearsal where
  rules : List Rule
  dialogs : List Dialog
deriving DecidableEq, Repr

/-- A list without its first item, unless it is the only one. -/
def dropUnlessLast {α : Type} : List α → List α
  | _ :: b :: r => b :: r
  | r => r

/-- The reply to a script, with the rules after it. -/
def replyBy (script : String) : List Rule → Reply × List Rule
  | [] => (.output "", [])
  | r :: rs =>
    if Text.contains script r.part then
      (r.replies.headD (.output ""), { r with replies := dropUnlessLast r.replies } :: rs)
    else
      let (reply, rs) := replyBy script rs
      (reply, r :: rs)

instance : Host Rehearsal where
  reply script h :=
    let (reply, rules) := replyBy script h.rules
    (reply, { h with rules })
  dialog? h := h.dialogs.head?.map fun d => (d, { h with dialogs := dropUnlessLast h.dialogs })

end Partitura.Session
