import Mathlib
import Partitura.Proofs.Score.PluginTexts

/-!
# Reading the import plugin

A reader for the lines of the plugin that add notes and texts to a bar, and for those that take up a
staff or a bar. It knows the forms of these lines (`forms`) and nothing about how they are written:
the arguments of a call are told apart at the commas that are not inside quotes, and read as
numbers, truth values and strings. Arguments as the plugin has them are read back
(`arguments_join`), and a line is passed over if it starts in another way (`isQuiet`).
-/

namespace Partitura.Score.ImportPlugin

open Number (Binary64)

variable {as : List String} {v l : String}

/-! ## Reading a line -/

/-- What stands in a line between its start and its end. -/
def between? (start fin line : String) : Option String :=
  let rest := line.toList.drop start.length
  if Text.hasStart line start && fin.toList.isSuffixOf rest then
    some (String.ofList (rest.take (rest.length - fin.length)))
  else none

/-- The pieces between the commas that are not inside quotes. -/
def cutAtCommas (inQuotes : Bool) : List Char → List (List Char)
  | [] => [[]]
  | '\\' :: c :: r => (cutAtCommas inQuotes r).modifyHead (['\\', c] ++ ·)
  | c :: r =>
    if c == ',' && !inQuotes then [] :: cutAtCommas false r
    else (cutAtCommas (inQuotes != (c == '\'')) r).modifyHead (c :: ·)

/-- The arguments of a call, told from what stands between its parentheses. -/
def arguments (s : String) : List String :=
  (cutAtCommas false s.toList).map fun a => String.ofList (a.dropWhile (· == ' '))

def truth? : String → Option Bool
  | "True" => some true
  | "False" => some false
  | _ => none

/-- What a string in single quotes stands for. -/
def string? (a : String) : Option String :=
  if a.toList.head? = some '\'' ∧ a.toList.getLast? = some '\'' then some (unquoted a) else none

/-- What a line of the plugin adds to a bar. -/
inductive Addition where
  /-- A note, or the first note of a chord. -/
  | note (pos pitch dur : Int) (tied : Bool) (voice : Int)
  /-- Another note of a chord. -/
  | joined (pitch : Int)
  | text (pos : Int) (text style : String)
deriving DecidableEq, Repr

def Addition.note? : List String → Option Addition
  | [pos, pitch, dur, tied, voice] => do
    return .note (← pos.toInt?) (← pitch.toInt?) (← dur.toInt?) (← truth? tied) (← voice.toInt?)
  | _ => none

def Addition.joined? : List String → Option Addition
  | [pitch] => do return .joined (← pitch.toInt?)
  | _ => none

def Addition.text? : List String → Option Addition
  | [pos, words, style] => do return .text (← pos.toInt?) (← string? words) (← string? style)
  | _ => none

/-- How lines start that add something, and how their arguments are read. -/
def forms : List (String × (List String → Option Addition)) :=
  [("nr = b.AddNote(", Addition.note?), ("\tnr.AddNote(", Addition.joined?),
    ("b.AddText(", Addition.text?)]

/-- What a line adds, if it starts as such a line does. -/
def addition? (line : String) : Option (Option Addition) :=
  (forms.find? fun f => Text.hasStart line f.1).map fun f => (between? f.1 ");" line).bind fun s =>
    f.2 (arguments s)

/-- The staff and the bar that the code has taken up last. -/
structure Desk where
  staff : Option Int
  bar : Option Int
deriving DecidableEq, Repr

def Desk.next (d : Desk) (line : String) : Desk :=
  if Text.hasStart line "st = staves[" then
    { d with staff := (between? "st = staves[" "];" line).bind String.toInt? }
  else if Text.hasStart line "b = st.NthBar(" then
    { d with bar := (between? "b = st.NthBar(" ");" line).bind String.toInt? }
  else d

/-- What lines add, with the staff and the bar that were taken up last before. -/
def deeds (d : Desk) : List String → List (Desk × Option Addition)
  | [] => []
  | l :: ls => (addition? l).toList.map (Prod.mk d) ++ deeds (d.next l) ls

/-- Whatever in a text starts like a line that adds something can be read, and `xs` is what is
added. -/
def Adds (text : String) (xs : List (Desk × Addition)) : Prop :=
  deeds ⟨none, none⟩ (Text.pieces '\n' text) = xs.map (Prod.map id some)

/-! ## Lines that are read -/

section Reading

variable {w r : String}

theorem hasStart_append (w r : String) : Text.hasStart (w ++ r) w = true := by
  simp [Text.hasStart]

theorem between?_append (a m z : String) : between? a z (a ++ m ++ z) = some m := by
  have hstart : Text.hasStart (a ++ m ++ z) a = true := by
    rw [String.append_assoc]
    exact hasStart_append a (m ++ z)
  simp [between?, hstart, ← String.length_toList]

theorem modifyHead_nil_append (ps : List (List Char)) : ps.modifyHead ([] ++ ·) = ps := by
  cases ps <;> rfl

theorem modifyHead_append (v w : List Char) (ps : List (List Char)) :
    (ps.modifyHead (w ++ ·)).modifyHead (v ++ ·) = ps.modifyHead (v ++ w ++ ·) := by
  cases ps <;> simp

theorem cutAtCommas_cons {c : Char} (hc : c ≠ '\\') (q : Bool) (r : List Char) :
    cutAtCommas q (c :: r) = if c == ',' && !q then [] :: cutAtCommas false r
      else (cutAtCommas (q != (c == '\'')) r).modifyHead ([c] ++ ·) := by
  rw [cutAtCommas]
  · rfl
  · exact fun _ _ h _ => hc h

/-- A character that means nothing, where a comma does not either. -/
theorem cutAtCommas_plain {c : Char} {q : Bool} (hquote : c ≠ '\'') (hbackslash : c ≠ '\\')
    (hcomma : c = ',' → q = true) (r : List Char) :
    cutAtCommas q (c :: r) = (cutAtCommas q r).modifyHead ([c] ++ ·) := by
  have hcut : ¬ (c == ',' && !q) = true := by
    simp only [Bool.and_eq_true, beq_iff_eq, Bool.not_eq_true', not_and, Bool.not_eq_false]
    exact hcomma
  rw [cutAtCommas_cons hbackslash, if_neg hcut, beq_false_of_ne hquote, Bool.bne_false]

/-- A text inside quotes stays together. -/
theorem cutAtCommas_escaped (cs r : List Char) :
    cutAtCommas true (cs.flatMap escapeChar ++ r) =
      (cutAtCommas true r).modifyHead (cs.flatMap escapeChar ++ ·) := by
  induction cs with
  | nil => exact (modifyHead_nil_append _).symm
  | cons c cs ih =>
    rw [List.flatMap_cons, List.append_assoc, ← modifyHead_append, ← ih, escapeChar]
    split
    · rfl
    · next hplain =>
      simp only [Bool.or_eq_true, beq_iff_eq, not_or] at hplain
      exact cutAtCommas_plain hplain.2 hplain.1 (fun _ => rfl) _

/-- An argument that no comma cuts and that starts with no blank. -/
structure Whole (a : String) : Prop where
  together :
      ∀ r, cutAtCommas false (a.toList ++ r) = (cutAtCommas false r).modifyHead (a.toList ++ ·)
  unpadded : a.toList.head? ≠ some ' '

theorem whole_of_plain {a : String} (h : ∀ c ∈ a.toList, c ∉ [' ', ',', '\\', '\'']) : Whole a where
  together := by
    intro r
    generalize a.toList = cs at h
    induction cs with
    | nil => exact (modifyHead_nil_append _).symm
    | cons c cs ih =>
      obtain ⟨hc, hcs⟩ := List.forall_mem_cons.1 h
      simp only [List.mem_cons, List.not_mem_nil, or_false, not_or] at hc
      rw [List.cons_append, cutAtCommas_plain hc.2.2.2 hc.2.2.1 fun hcomma => absurd hcomma hc.2.1,
        ih hcs, modifyHead_append]
      rfl
  unpadded := by
    intro hhead
    exact h ' ' (List.mem_of_head? hhead) List.mem_cons_self

theorem whole_number (n : Int) : Whole (toString n) := by
  refine whole_of_plain fun c hc hspecial => ?_
  exact ManuScript.Lexer.ne_of_mem_of_class (Number.isNumeral_of_mem_toString n c hc)
    (by decide) c hspecial rfl

theorem whole_truth (b : Bool) : Whole (truth b) := by
  cases b <;> exact whole_of_plain (Text.forall_mem_of_all (by decide))

theorem whole_literal (t : String) : Whole (literal t) where
  together := by
    intro r
    have htext : (literal t).toList = ['\''] ++ (t.toList.flatMap escapeChar ++ ['\'']) := by
      simp [literal, quoted, escape]
    have hquote (q : Bool) (cs : List Char) :
        cutAtCommas q (['\''] ++ cs) = (cutAtCommas (!q) cs).modifyHead (['\''] ++ ·) := by
      rw [List.singleton_append, cutAtCommas_cons (by decide)]
      cases q <;> rfl
    rw [htext, List.append_assoc, hquote, Bool.not_false, List.append_assoc, cutAtCommas_escaped,
      hquote, modifyHead_append, modifyHead_append]
    simp only [Bool.not_true, List.append_assoc]
  unpadded := by simp [literal, quoted]

theorem whole_quoted {w : String} (h : Plain w) : Whole (quoted w) :=
  literal_of_plain h ▸ whole_literal w

theorem cutAtCommas_intercalate {a : String} (h : ∀ b ∈ a :: as, Whole b) :
    cutAtCommas false ([',', ' '].intercalate ((a :: as).map String.toList)) =
      a.toList :: as.map fun b => ' ' :: b.toList := by
  induction as generalizing a with
  | nil => simpa [cutAtCommas] using (h a List.mem_cons_self).together []
  | cons b bs ih =>
    obtain ⟨ha, hbs⟩ := List.forall_mem_cons.1 h
    have hcut (cs : List Char) :
        cutAtCommas false ([',', ' '] ++ cs) = [] :: (cutAtCommas false cs).modifyHead (' ' :: ·) :=
      rfl
    rw [List.map_cons, List.map_cons, List.intercalate_cons_cons, List.append_assoc, ha.together,
      hcut, ← List.map_cons, ih hbs]
    simp

theorem arguments_join (hne : as ≠ []) (h : ∀ a ∈ as, Whole a) :
    arguments (Text.join ", " as) = as := by
  have hdrop {a : String} (ha : Whole a) : String.ofList (a.toList.dropWhile (· == ' ')) = a := by
    have hunpadded := ha.unpadded
    rw [← String.toList_inj, String.toList_ofList]
    cases hcs : a.toList with
    | nil => rfl
    | cons c cs =>
      rw [hcs, List.head?_cons, ne_eq, Option.some.injEq] at hunpadded
      exact List.dropWhile_cons_of_neg (by simpa using hunpadded)
  cases as with
  | nil => exact absurd rfl hne
  | cons a as =>
    obtain ⟨ha, has⟩ := List.forall_mem_cons.1 h
    have hcut := cutAtCommas_intercalate h
    rw [arguments, Text.join, String.toList_intercalate, show ", ".toList = [',', ' '] from rfl,
      hcut, List.map_cons, hdrop ha, List.map_map]
    congr 1
    calc as.map _ = as.map id := List.map_congr_left fun b hb => hdrop (has b hb)
      _ = as := List.map_id as

theorem truth?_truth (b : Bool) : truth? (truth b) = some b := by cases b <;> rfl

theorem toInt?_toString (n : Int) : (toString n).toInt? = some n := Int.toInt?_repr n

theorem string?_literal (t : String) : string? (literal t) = some t := by
  have htext : (literal t).toList = ('\'' :: (escape t).toList) ++ ['\''] := by
    simp [literal, quoted]
  have hquotes :
      (literal t).toList.head? = some '\'' ∧ (literal t).toList.getLast? = some '\'' := by
    rw [htext, List.getLast?_concat]
    exact ⟨rfl, rfl⟩
  rw [string?, if_pos hquotes, unquoted_literal]

theorem string?_quoted {w : String} (h : Plain w) : string? (quoted w) = some w := by
  rw [← literal_of_plain h, string?_literal]

/-! ## Lines by their starts -/

/-- How lines start that are read. -/
def starts : List String := ["st = staves[", "b = st.NthBar("] ++ forms.map Prod.fst

/-- Neither text starts with the other. -/
def diverge (v w : String) : Bool := !v.toList.isPrefixOf w.toList && !w.toList.isPrefixOf v.toList

theorem hasStart_of_diverge {w : String} (h : diverge v w = true) (hl : v.toList <+: l.toList) :
    Text.hasStart l w = false := by
  simp only [diverge, Bool.and_eq_true, Bool.not_eq_true', ← Bool.not_eq_true,
    List.isPrefixOf_iff_prefix] at h
  rw [Text.hasStart, ← Bool.not_eq_true, List.isPrefixOf_iff_prefix]
  intro hstart
  rcases List.prefix_or_prefix_of_prefix hl hstart with hvw | hwv
  · exact h.1 hvw
  · exact h.2 hwv

/-- A line that is passed over. -/
def isQuiet (l : String) : Bool := starts.all fun w => !Text.hasStart l w

/-- How lines start that are passed over, if they are not fixed. -/
def otherStarts : List String :=
  ["//", "barsNeeded", "docSetup.", "staves[", "\tnr.Dx", "\tnr.Dy", "\tnr.SetArticulation",
    "\tSibelius.MessageBox", "Sibelius.MessageBox", "Sibelius.UpdateProgressDialog",
    "score.CreateInstrument", "b.AddLine", "b.AddClef", "b.AddTuplet", "b.AddSpecialBarline",
    "b.AddLyric", "sysBar = score.SystemStaff.NthBar", "sysBar.AddText", "sysBar.AddSpecialBarline",
    "sysBar.AddTimeSignature", "sysBar.AddKeySignature"]

theorem otherStarts_diverge : (otherStarts.all fun v => starts.all (diverge v)) = true := by
  decide +kernel

theorem isQuiet_of_start (hv : v ∈ otherStarts) (hl : v.toList <+: l.toList) :
    isQuiet l = true := by
  refine List.all_eq_true.2 fun w hw => ?_
  rw [hasStart_of_diverge
    (List.all_eq_true.1 (List.all_eq_true.1 otherStarts_diverge v hv) w hw) hl]
  rfl

theorem isQuiet_call {target : String} (h : target ∈ otherStarts) (as : List String) :
    isQuiet (call target as) = true :=
  isQuiet_of_start h (by simp [call])

theorem quiet_cons {ls : List String} (hl : isQuiet l = true) (hls : ls.all isQuiet = true) :
    (l :: ls).all isQuiet = true := by
  rw [List.all_cons, hl, hls]
  rfl

theorem quiet_start (hv : v ∈ otherStarts) (hl : v.toList <+: l.toList) : [l].all isQuiet = true :=
  quiet_cons (isQuiet_of_start hv hl) rfl

theorem quiet_call {target : String} (h : target ∈ otherStarts) (as : List String) :
    [call target as].all isQuiet = true :=
  quiet_cons (isQuiet_call h as) rfl

theorem addition?_eq_none (h : ∀ f ∈ forms, Text.hasStart l f.1 = false) : addition? l = none := by
  have hforms : forms.find? (fun f => Text.hasStart l f.1) = none :=
    List.find?_eq_none.2 fun f hf => by rw [h f hf]; decide
  rw [addition?, hforms]
  rfl

theorem addition?_of_start (h : forms.all (fun f => diverge v f.1) = true)
    (hl : v.toList <+: l.toList) : addition? l = none :=
  addition?_eq_none fun f hf => hasStart_of_diverge (List.all_eq_true.1 h f hf) hl

theorem addition?_of_isQuiet (h : isQuiet l = true) : addition? l = none :=
  addition?_eq_none fun f hf => by
    simpa using List.all_eq_true.1 h f.1 (List.mem_append_right _ (List.mem_map_of_mem hf))

theorem next_of_isQuiet (h : isQuiet l = true) (d : Desk) : d.next l = d := by
  have hstart : ∀ w ∈ starts, Text.hasStart l w = false := by simpa [isQuiet] using h
  rw [Desk.next, hstart _ (by decide), hstart _ (by decide)]
  rfl

theorem next_of_form {f : String × (List String → Option Addition)} (hf : f ∈ forms) (d : Desk)
    (r : String) : d.next (f.1 ++ r) = d := by
  have hall : (forms.all fun f => diverge f.1 "st = staves[" && diverge f.1 "b = st.NthBar(") =
      true := by decide
  have hdiverge := Bool.and_eq_true_iff.1 (List.all_eq_true.1 hall f hf)
  have hl : f.1.toList <+: (f.1 ++ r).toList := by simp
  rw [Desk.next, hasStart_of_diverge hdiverge.1 hl, hasStart_of_diverge hdiverge.2 hl]
  rfl

theorem addition?_of_form {f : String × (List String → Option Addition)}
    (hf : f ∈ forms) (hne : as ≠ []) (has : ∀ a ∈ as, Whole a) :
    addition? (f.1 ++ Text.join ", " as ++ ");") = some (f.2 as) := by
  have hfind :
      forms.find? (fun g => Text.hasStart (f.1 ++ Text.join ", " as ++ ");") g.1) = some f := by
    have hl : f.1.toList <+: (f.1 ++ Text.join ", " as ++ ");").toList := by simp
    have hself : Text.hasStart (f.1 ++ Text.join ", " as ++ ");") f.1 = true :=
      List.isPrefixOf_iff_prefix.2 hl
    simp only [forms, List.mem_cons, List.not_mem_nil, or_false] at hf
    rcases hf with rfl | rfl | rfl
    · exact List.find?_cons_of_pos hself
    · rw [forms, List.find?_cons_of_neg (by rw [hasStart_of_diverge (by decide) hl]; decide)]
      exact List.find?_cons_of_pos hself
    · rw [forms, List.find?_cons_of_neg (by rw [hasStart_of_diverge (by decide) hl]; decide),
        List.find?_cons_of_neg (by rw [hasStart_of_diverge (by decide) hl]; decide)]
      exact List.find?_cons_of_pos hself
  rw [addition?, hfind, Option.map_some, between?_append, Option.bind_some, arguments_join hne has]

end Reading

end Partitura.Score.ImportPlugin
