import Mathlib.Data.List.Basic
import Partitura.Proofs.Attempts
import Partitura.Proofs.Number.Numerals
import Partitura.Score.ImportPlugin

/-!
# The lines of the import plugin

What the code of the plugin can look like, line by line: an `Argument` is a number, a constant, a
style or a text of the score in quotes, or a size of the page; a `Sentence` is a call or an
assignment of such; and a `Passage` is made of sentences, comments and blocks. If all notes stand at
finite offsets, the code is written and is a passage (`writes_code`), and otherwise it is not
written (`isPlaced_of_code`). What holds for every passage then holds for the plugin of every score.
-/

namespace Partitura.Number.Binary64

/-- Whether the number is neither infinite nor missing. -/
def isFinite : Binary64 → Bool
  | finite .. => true
  | _ => false

theorem exists_truncate {x : Binary64} (h : x.isFinite = true) : ∃ n, x.truncate = .ok n := by
  cases x with
  | finite negative m e => exact ⟨_, rfl⟩
  | nan => cases h
  | infinite negative => cases h

end Partitura.Number.Binary64

namespace Partitura.Score

open Number (Binary64)

/-- The text of an element. -/
def Item.texts : Item → List String
  | .dynamic _ w _ _ | .text _ w _ _ _ | .tempo _ w _ _ | .rehearsal _ w _ => [w]
  | _ => []

/-- The texts in a bar. -/
def Bar.texts (b : Bar) : List String := b.items.flatMap Item.texts

/-- The names of a staff, the texts in its bars and the syllables of its lyrics. -/
def Staff.texts (s : Staff) : List String :=
  [s.instrument, s.instrumentShort, s.fullName, s.shortName] ++ s.bars.flatMap Bar.texts ++
    s.lyrics.flatMap fun l => l.syllables.map Syllable.text

/-- Whether an element that sounds stands at a finite offset. -/
def Item.isPlaced : Item → Bool
  | .noteRest n => n.isRest || (n.offset.dx.isFinite && n.offset.dy.isFinite)
  | _ => true

/-- The sizes of a page that are given. -/
def Layout.sizes (l : Layout) : List Binary64 :=
  [l.pageWidth, l.pageHeight, l.staffHeight].filter Binary64.isPositive

end Partitura.Score

namespace Partitura

/-- The texts of the staves of a score and of what concerns all staves. -/
def Score.texts (s : Score) : List String :=
  s.staves.flatMap Score.Staff.texts ++ s.system.flatMap Score.Bar.texts

/-- Whether all notes of the staves stand at finite offsets. -/
def Score.isPlaced (s : Score) : Bool :=
  s.staves.all fun t => t.bars.all fun b => b.items.all Score.Item.isPlaced

end Partitura

namespace Partitura.Score.ImportPlugin

open Number (Binary64)

variable {member t : String} {x : Binary64} {n : NoteRest} {ls : List String}

/-! ## The forms of lines -/

/-- A text without the characters that mean something in a string or at its end. -/
def Plain (w : String) : Prop := ∀ c ∈ w.toList, c ∉ ['"', '\'', '\\', '\n']

instance decidablePlain (w : String) : Decidable (Plain w) := List.decidableBAll _ _

/-- The constants that stand in the code. -/
def words : List String :=
  ["True", "False", "EndOfPage", "EndOfSystem"] ++ articulations.map Prod.snd ++
    barlines.map Prod.snd

/-- The methods that are called. -/
def methods : List String :=
  ["nr.AddNote", "nr.SetArticulation", "b.AddText", "b.AddLine", "b.AddClef", "b.AddTuplet",
    "b.AddSpecialBarline", "b.AddLyric", "sysBar.AddText", "sysBar.AddSpecialBarline",
    "sysBar.AddTimeSignature", "sysBar.AddKeySignature", "score.CreateInstrument",
    "score.OptimizeStaffSpacing", "Sibelius.CreateProgressDialog", "Sibelius.DestroyProgressDialog",
    "Sibelius.MessageBox"]

/-- The variables that keep what a method returns, with the method. -/
def fetches : List (String × String) :=
  [("b", "st.NthBar"), ("nr", "b.AddNote"), ("sysBar", "score.SystemStaff.NthBar")]

/-- The members that are set. -/
def members : List String :=
  ["nr.Dx", "nr.Dy", "nr.StemDirection", "sysBar.BreakType", "docSetup.Units", "docSetup.PageWidth",
    "docSetup.PageHeight", "docSetup.StaffSize"]

/-- The members of a staff that are set. -/
def staffMembers : List String := ["FullInstrumentName", "ShortInstrumentName", "SmallStaffSize"]

section

variable (ts : List String) (xs : List Binary64)

/-- What is handed to a method or a member, if the score has the texts `ts` and its page the sizes
`xs`. -/
inductive Argument : String → Prop where
  | number (n : Int) : Argument (toString n)
  | word {w : String} : w ∈ words → Argument w
  | quoted {w : String} : Plain w → Argument (quoted w)
  | text {t : String} : t ∈ ts → Argument (literal t)
  | size {x : Binary64} : x ∈ xs → Argument x.render

/-- A line that is a statement. -/
inductive Sentence : String → Prop where
  | call {m : String} {as : List String} :
      m ∈ methods → (∀ a ∈ as, Argument ts xs a) → Sentence (call m as)
  | fetch {x m : String} {as : List String} : (x, m) ∈ fetches → (∀ a ∈ as, Argument ts xs a) →
      Sentence (ImportPlugin.call (x ++ " = " ++ m) as)
  | set {m a : String} : m ∈ members → Argument ts xs a → Sentence (m ++ " = " ++ a ++ ";")
  | setStaff {m a : String} (i : Nat) : m ∈ staffMembers → Argument ts xs a →
      Sentence ("staves[" ++ toString i ++ "]." ++ m ++ " = " ++ a ++ ";")
  | indented {l : String} : Sentence l → Sentence ("\t" ++ l)

/-- Lines that follow one another. -/
inductive Passage : List String → Prop where
  | nil : Passage []
  | append {ls ms : List String} : Passage ls → Passage ms → Passage (ls ++ ms)
  | blank : Passage [""]
  | remark {l : String} : "//".toList <+: l.toList → Plain l → Passage [l]
  | sentence {l : String} : Sentence ts xs l → Passage [l]
  /-- What is done with a note that was added. -/
  | adorned {ls : List String} :
      (∀ l ∈ ls, Sentence ts xs l) → Passage (["if (nr != null) \x7b"] ++ ls ++ ["\x7d"])
  | entering : Passage enteringLines
  | missingBars (n : Nat) : Passage (missingBarLines n)
  | collecting : Passage collectingLines
  | setup : Passage ["docSetup = score.DocumentSetup;"]
  | finding {s : Staff} (total index : Nat) :
      s.instrument ∈ ts → Passage (findingLines total index s)
  | leaving : Passage ["return True;"]

/-- The lines are written and are a passage. -/
def Writes (e : Except Binary64.TruncateError (List String)) : Prop :=
  ∃ ls, e = .ok ls ∧ Passage ts xs ls

end

variable {ts : List String} {xs : List Binary64}

theorem Passage.flatMap {α : Type} {f : α → List String} {as : List α}
    (h : ∀ a ∈ as, Passage ts xs (f a)) : Passage ts xs (as.flatMap f) := by
  induction as with
  | nil => exact .nil
  | cons a as ih =>
    exact .append (h a List.mem_cons_self) (ih fun b hb => h b (List.mem_cons_of_mem _ hb))

theorem writes_mapM {α : Type} {f : α → Except Binary64.TruncateError (List String)} {as : List α}
    (h : ∀ a ∈ as, Writes ts xs (f a)) :
    ∃ lss, as.mapM f = .ok lss ∧ Passage ts xs lss.flatten := by
  induction as with
  | nil => exact ⟨[], rfl, .nil⟩
  | cons a as ih =>
    obtain ⟨ls, hls, hpassage⟩ := h a List.mem_cons_self
    obtain ⟨lss, hlss, hpassages⟩ := ih fun b hb => h b (List.mem_cons_of_mem _ hb)
    exact ⟨ls :: lss, by rw [List.mapM_cons, hls, hlss]; rfl, .append hpassage hpassages⟩

/-- A value of a table is one of its values. -/
theorem mem_of_lookup {table : List (String × String)} {key value : String}
    (h : table.lookup key = some value) : value ∈ table.map Prod.snd := by
  obtain ⟨l₁, l₂, hl, -⟩ := List.lookup_eq_some_iff.1 h
  rw [hl]
  simp

/-- Quotes around a text that is looked up. -/
theorem argument_getD {table : List (String × String)} (htable : ∀ w ∈ table.map Prod.snd, Plain w)
    {usual : String} (husual : Plain usual) (key : String) :
    Argument ts xs (quoted ((table.lookup key).getD usual)) := by
  cases h : table.lookup key with
  | none => exact .quoted husual
  | some value => exact .quoted (htable value (mem_of_lookup h))

theorem sentence_call {m : String} {as : List String} (hm : m ∈ methods)
    (has : as.Forall (Argument ts xs)) : Sentence ts xs (call m as) :=
  .call hm (List.forall_iff_forall_mem.1 has)

theorem argument_truth (b : Bool) : Argument ts xs (truth b) := by
  cases b <;> exact .word (by decide)

/-! ## Notes -/

theorem exists_offsetLine (hmember : "nr." ++ member ∈ members) (hx : x.isFinite = true) :
    ∃ ls, offsetLine member x = .ok ls ∧ ∀ l ∈ ls, Sentence ts xs l := by
  rw [offsetLine]
  split
  · exact ⟨[], rfl, List.forall_mem_nil _⟩
  · obtain ⟨n, hn⟩ := Binary64.exists_truncate hx
    refine ⟨["\tnr." ++ member ++ " = " ++ toString n ++ ";"], by rw [hn]; rfl,
      List.forall_mem_singleton.2 ?_⟩
    have hline :
        "\tnr." ++ member ++ " = " ++ toString n ++ ";" =
          "\t" ++ ("nr." ++ member ++ " = " ++ toString n ++ ";") := by
      simp only [← String.append_assoc]
      rfl
    rw [hline]
    exact .indented (.set hmember (.number n))

theorem sentence_of_mem_stemLine {stem : Stem} : ∀ l ∈ stemLine stem, Sentence ts xs l := by
  have hset (n : Int) :
      Sentence ts xs ("\t" ++ ("nr.StemDirection" ++ " = " ++ toString n ++ ";")) :=
    .indented (.set (by decide) (.number n))
  cases stem with
  | auto => exact List.forall_mem_nil _
  | up => exact List.forall_mem_singleton.2 (hset 1)
  | down => exact List.forall_mem_singleton.2 (hset (.negSucc 0))

theorem exists_adornments (hx : n.offset.dx.isFinite = true) (hy : n.offset.dy.isFinite = true) :
    ∃ ls, adornments n = .ok ls ∧ ∀ l ∈ ls, Sentence ts xs l := by
  obtain ⟨dx, hdx, hx⟩ := exists_offsetLine (show "nr." ++ "Dx" ∈ members by decide) hx
  obtain ⟨dy, hdy, hy⟩ := exists_offsetLine (show "nr." ++ "Dy" ∈ members by decide) hy
  refine ⟨_, by rw [adornments, hdx, hdy]; rfl, ?_⟩
  simp only [List.forall_mem_append]
  refine ⟨⟨⟨fun l hl => ?_, hx⟩, hy⟩, sentence_of_mem_stemLine⟩
  obtain ⟨a, -, hl⟩ := List.mem_filterMap.1 hl
  obtain ⟨w, hw, rfl⟩ := Option.map_eq_some_iff.1 hl
  have hword : w ∈ words := List.mem_append_left _ (List.mem_append_right _ (mem_of_lookup hw))
  exact .indented (sentence_call (by decide) ⟨.word hword, .word (by decide)⟩)

theorem sentence_addedLine (n : NoteRest) (first : Note) : Sentence ts xs (addedLine n first) :=
  .fetch (x := "nr") (m := "b.AddNote") (by decide)
    (List.forall_iff_forall_mem.1 ⟨.number _, .number _, .number _, argument_truth _, .number _⟩)

theorem writes_noteLines (hn : (Item.noteRest n).isPlaced = true) : Writes ts xs (noteLines n) := by
  rw [noteLines]
  cases hnotes : n.notes with
  | nil => exact ⟨[], rfl, .nil⟩
  | cons first more =>
    rw [Item.isPlaced, NoteRest.isRest, hnotes, List.isEmpty_cons, Bool.false_or, Bool.and_eq_true]
      at hn
    obtain ⟨adorn, hadorn, hlines⟩ := exists_adornments hn.1 hn.2
    have hadded : Passage ts xs [addedLine n first] := .sentence (sentence_addedLine n first)
    have hmore : ∀ l ∈ more.map joinedLine ++ adorn, Sentence ts xs l := by
      refine List.forall_mem_append.2 ⟨fun l hl => ?_, hlines⟩
      obtain ⟨k, -, rfl⟩ := List.mem_map.1 hl
      exact .indented (.call (by decide) (List.forall_mem_singleton.2 (.number _)))
    by_cases hblock : (n.isChord || isAdorned n) = true
    · have hall := hadded.append (.adorned hmore)
      rw [← List.append_assoc] at hall
      exact ⟨_, by simp only [hadorn, hblock]; rfl, hall⟩
    · exact ⟨_, by simp only [hadorn, hblock]; rfl, hadded⟩

/-! ## Bars -/

/-- A text that needs no escapes. -/
theorem literal_of_plain (h : Plain t) : literal t = quoted t := by
  have hchars : t.toList.flatMap escapeChar = t.toList.flatMap fun c => [c] :=
    List.flatMap_congr fun c hc => by
    have := h c hc
    simp_all [escapeChar]
  rw [literal, escape, hchars, List.flatMap_singleton', String.ofList_toList]

theorem argument_literal (h : Plain t) : Argument ts xs (literal t) :=
  literal_of_plain h ▸ .quoted h

theorem passage_textLine {bar text style : String} (hbar : bar ++ ".AddText" ∈ methods)
    (htext : text ∈ ts) (hstyle : Plain style) (pos : Int) :
    Passage ts xs [textLine bar pos text style] :=
  .sentence (sentence_call hbar ⟨.number _, .text htext, .quoted hstyle⟩)

theorem passage_spanLine {style : String} (hstyle : Argument ts xs (quoted style)) (barLength : Int)
    (s : Span) (voice : Int) : Passage ts xs (spanLine barLength s style voice) := by
  rw [spanLine]
  split
  · exact .sentence
      (sentence_call (by decide) ⟨.number _, .number _, hstyle, .number 0, .number 0, .number _⟩)
  · exact .nil

theorem passage_barlineLine {bar : String} (hbar : bar ++ ".AddSpecialBarline" ∈ methods)
    (type : String) : Passage ts xs (barlineLine bar type) := by
  rw [barlineLine]
  cases h : barlines.lookup type with
  | none => exact .nil
  | some w =>
    exact .sentence
      (.call hbar (List.forall_mem_singleton.2 (.word (List.mem_append_right _ (mem_of_lookup h)))))

theorem plain_textStyle (style : String) : Plain (textStyle style) := by
  rw [textStyle]
  split
  · decide
  · split <;> decide

@[simp] theorem plain_append {v w : String} : Plain (v ++ w) ↔ Plain v ∧ Plain w := by
  rw [Plain, String.toList_append, List.forall_mem_append]
  rfl

@[simp] theorem plain_toString (n : Int) : Plain (toString n) := by
  intro c hc hspecial
  have hall : (['"', '\'', '\\', '\n'].all fun c => !Number.isNumeral c) = true := by decide
  have hnumeral := List.all_eq_true.1 hall c hspecial
  rw [Number.isNumeral_of_mem_toString n c hc] at hnumeral
  cases hnumeral

theorem plain_count (n : Nat) : Plain (toString n) := plain_toString n

theorem passage_graceLine (pos : Int) (type : String) : Passage ts xs (graceLine pos type) := by
  unfold graceLine
  split
  · refine .remark (by simp) ?_
    simp only [plain_append, plain_toString, and_true]
    decide
  · refine .remark (by simp) ?_
    simp only [plain_append, plain_toString, and_true]
    decide
  · exact .nil

theorem writes_itemLines {i : Item} (hi : i.isPlaced = true) (h : i.texts ⊆ ts) (barLength : Int) :
    Writes ts xs (itemLines barLength i) := by
  cases i with
  | noteRest n => exact writes_noteLines hi
  | dynamic pos w =>
    exact ⟨_, rfl, passage_textLine (by decide) (h List.mem_cons_self) (by decide) pos⟩
  | text pos w style =>
    exact ⟨_, rfl, passage_textLine (by decide) (h List.mem_cons_self) (plain_textStyle style) pos⟩
  | clef pos type =>
    exact ⟨_, rfl,
      .sentence
        (sentence_call (by decide) ⟨.number pos, argument_getD (by decide) (by decide) type⟩)⟩
  | slur span voice => exact ⟨_, rfl, passage_spanLine (.quoted (by decide)) barLength span voice⟩
  | hairpin type span voice =>
    cases type with
    | cresc => exact ⟨_, rfl, passage_spanLine (.quoted (by decide)) barLength span voice⟩
    | dim => exact ⟨_, rfl, passage_spanLine (.quoted (by decide)) barLength span voice⟩
  | tuplet startBar startPos num den =>
    exact ⟨_, rfl,
      .sentence
        (sentence_call (by decide) ⟨.number _, .number 1, .number _, .number _, .number 256⟩)⟩
  | barline pos type => exact ⟨_, rfl, passage_barlineLine (by decide) type⟩
  | octava type span voice =>
    exact ⟨_, rfl,
      passage_spanLine (argument_getD (by decide) (by decide) type) barLength span voice⟩
  | pedal type span => exact ⟨_, rfl, passage_spanLine (.quoted (by decide)) barLength span 1⟩
  | trill span voice => exact ⟨_, rfl, passage_spanLine (.quoted (by decide)) barLength span voice⟩
  | grace pos type => exact ⟨_, rfl, passage_graceLine pos type⟩
  | tempo pos w =>
    refine ⟨_, rfl, ?_⟩
    split
    · exact .nil
    · exact passage_textLine (by decide) (h List.mem_cons_self) (by decide) pos
  | rehearsal pos w =>
    exact ⟨_, rfl, passage_textLine (by decide) (h List.mem_cons_self) (by decide) pos⟩
  | key => exact ⟨_, rfl, .nil⟩
  | time => exact ⟨_, rfl, .nil⟩

theorem passage_nthBar (n : Int) : Passage ts xs [call "b = st.NthBar" [toString n]] :=
  .sentence
    (.fetch (x := "b") (m := "st.NthBar") (by decide) (List.forall_mem_singleton.2 (.number n)))

theorem writes_barLines {b : Bar} (hb : b.items.all Item.isPlaced = true) (h : b.texts ⊆ ts) :
    Writes ts xs (barLines b) := by
  rw [barLines]
  split
  · have hitems : ∀ i ∈ b.items, Writes ts xs (itemLines b.length i) := fun i hi =>
      writes_itemLines (List.all_eq_true.1 hb i hi)
        (fun t ht => h (List.mem_flatMap.2 ⟨i, hi, ht⟩)) b.length
    obtain ⟨lss, hlss, hpassage⟩ := writes_mapM hitems
    exact ⟨_, by rw [hlss]; rfl, (passage_nthBar b.n).append hpassage⟩
  · exact ⟨[], rfl, .nil⟩

/-! ## Staves -/

theorem passage_syllableLines {y : Syllable} (h : y.text ∈ ts) (voice : Int) :
    Passage ts xs (syllableLines voice y) := by
  rw [syllableLines]
  cases y.bar with
  | none => exact .nil
  | some n =>
    have hhyphen : Argument ts xs (if y.hyphen then "1" else "0") := by
      split
      · exact .number 1
      · exact .number 0
    exact (passage_nthBar n).append (.sentence (sentence_call (by decide)
      ⟨.number _, .number 256, .text h, hhyphen, .number 1, .number _⟩))

theorem passage_lyricsLines {l : Lyrics} (h : l.syllables.map Syllable.text ⊆ ts) :
    Passage ts xs (lyricsLines l) := by
  have hremark :
      Passage ts xs ["// Lyrics voice " ++ toString l.voice ++ " verse " ++ toString l.verse] := by
    refine .remark (by simp) ?_
    simp only [plain_append, plain_toString, and_true]
    decide
  exact hremark.append
    (.flatMap fun y hy => passage_syllableLines (h (List.mem_map.2 ⟨y, hy, rfl⟩)) l.voice)

theorem argument_orElse {s : String} (hs : Argument ts xs (literal s))
    (ht : Argument ts xs (literal t)) : Argument ts xs (literal (orElse s t)) := by
  rw [orElse, nonempty?]
  split
  · exact ht
  · exact hs

section

variable {s : Staff} (h : s.texts ⊆ ts)
include h

theorem mem_names :
    s.instrument ∈ ts ∧ s.instrumentShort ∈ ts ∧ s.fullName ∈ ts ∧ s.shortName ∈ ts :=
  ⟨h (by simp [Staff.texts]), h (by simp [Staff.texts]), h (by simp [Staff.texts]),
    h (by simp [Staff.texts])⟩

theorem sentence_instrumentLine : Sentence ts xs (instrumentLine s) := by
  obtain ⟨hinstrument, hinstrumentShort, hfull, hshort⟩ := mem_names h
  have hstyle : Argument ts xs (quoted (if leadingClef s = "bass" then "instrument.other.bassclef"
      else "instrument.other.trebleclef")) := by
    split <;> exact .quoted (by decide)
  have hnumber : Plain ("Staff " ++ toString s.n) := plain_append.2 ⟨by decide, plain_toString s.n⟩
  exact sentence_call (by decide) ⟨hstyle, .word (by decide),
    argument_orElse (.text hfull) (argument_orElse (.text hinstrument) (argument_literal hnumber)),
    argument_orElse (.text hshort) (.text hinstrumentShort)⟩

theorem passage_namingLines (index : Nat) : Passage ts xs (namingLines index s) := by
  obtain ⟨-, -, hfull, hshort⟩ := mem_names h
  refine .append (.append ?_ ?_) ?_
  · split
    · exact .nil
    · exact .sentence (.setStaff index (by decide) (.text hfull))
  · split
    · exact .nil
    · exact .sentence (.setStaff index (by decide) (.text hshort))
  · split
    · exact .nil
    · exact .sentence (.setStaff index (by decide) (.number s.size))

theorem writes_staffLines (hs : (s.bars.all fun b => b.items.all Item.isPlaced) = true)
    (total index : Nat) : Writes ts xs (staffLines total index s) := by
  have hbars : ∀ b ∈ s.bars, Writes ts xs (barLines b) := fun b hb =>
    writes_barLines (List.all_eq_true.1 hs b hb) fun t ht => h (by
      simp only [Staff.texts, List.mem_append, List.mem_flatMap]
      exact .inl (.inr ⟨b, hb, ht⟩))
  have hlyrics : Passage ts xs (s.lyrics.flatMap lyricsLines) := .flatMap fun l hl =>
    passage_lyricsLines fun t ht => h (by
      simp only [Staff.texts, List.mem_append, List.mem_flatMap]
      exact .inr ⟨l, hl, ht⟩)
  obtain ⟨lss, hlss, hpassage⟩ := writes_mapM hbars
  refine ⟨_, by rw [staffLines, hlss]; rfl, ?_⟩
  exact (((Passage.finding total index (mem_names h).1).append hpassage).append hlyrics).append
    .blank

end

/-! ## The system -/

theorem passage_breakLine (type : String) : Passage ts xs (breakLine type) := by
  have hset {w : String} (hw : w ∈ words) :
      Passage ts xs ["sysBar.BreakType" ++ " = " ++ w ++ ";"] :=
    .sentence (.set (by decide) (.word hw))
  unfold breakLine
  split
  · exact hset (w := "EndOfPage") (by decide)
  · exact hset (w := "EndOfSystem") (by decide)
  · exact .nil

theorem passage_systemLines {i : Item} (h : i.texts ⊆ ts) : Passage ts xs (systemLines i) := by
  unfold systemLines
  split
  · exact .sentence
      (sentence_call (by decide) ⟨.number _, .number _, .word (by decide), .word (by decide)⟩)
  · exact .sentence (sentence_call (by decide) ⟨.number _, .number _, argument_truth _⟩)
  · next pos w _ _ =>
    split
    · exact .nil
    · exact passage_textLine (by decide) (h List.mem_cons_self) (by decide) pos
  · next type => exact passage_barlineLine (by decide) type
  · exact .nil

theorem passage_systemBarLines {s : Score} (h : s.system.flatMap Bar.texts ⊆ ts) (n : Int) :
    Passage ts xs (systemBarLines s n) := by
  have hfetch : Passage ts xs [call "sysBar = score.SystemStaff.NthBar" [toString n]] :=
    .sentence
      (.fetch (x := "sysBar") (m := "score.SystemStaff.NthBar") (by decide)
        (List.forall_mem_singleton.2 (.number n)))
  refine .append (.append hfetch ?_) ?_
  · cases breakAt? (breakBars s) n with
    | none => exact .nil
    | some type => exact passage_breakLine type
  · cases hb : s.system.find? (·.n == n) with
    | none => exact .nil
    | some b =>
      refine .flatMap fun i hi => passage_systemLines fun t ht => h ?_
      exact List.mem_flatMap.2 ⟨b, List.mem_of_find?_eq_some hb, List.mem_flatMap.2 ⟨i, hi, ht⟩⟩

/-! ## The plugin -/

theorem passage_pageLine (hmember : "docSetup." ++ member ∈ members)
    (hx : x.isPositive = true → x ∈ xs) : Passage ts xs (pageLine member x) := by
  rw [pageLine]
  split
  · next hpositive => exact .sentence (.set hmember (.size (hx hpositive)))
  · exact .nil

theorem passage_layoutLines {l : Layout} (h : l.sizes ⊆ xs) : Passage ts xs (layoutLines l) := by
  have hsize {x : Binary64} (hx : x ∈ [l.pageWidth, l.pageHeight, l.staffHeight])
      (hpositive : x.isPositive = true) : x ∈ xs :=
    h (List.mem_filter.2 ⟨hx, hpositive⟩)
  have hunits : Passage ts xs ["docSetup.Units" ++ " = " ++ quoted "mm" ++ ";"] :=
    .sentence (.set (by decide) (.quoted (by decide)))
  have hhead :
      Passage ts xs ["// Page layout", "docSetup = score.DocumentSetup;",
        "docSetup.Units = 'mm';"] :=
    .append (.append (.remark (l := "// Page layout") (by decide) (by decide)) .setup) hunits
  rw [layoutLines]
  split
  · exact (((hhead.append (passage_pageLine (by decide) (hsize (by simp)))).append
      (passage_pageLine (by decide) (hsize (by simp)))).append
        (passage_pageLine (by decide) (hsize (by simp)))).append .blank
  · exact .nil

theorem passage_preparation {s : Score} (h : s.staves.flatMap Staff.texts ⊆ ts)
    (hlayout : s.layout.sizes ⊆ xs) : Passage ts xs (preparation s) := by
  have htexts {t : Staff} (ht : t ∈ s.staves) : t.texts ⊆ ts :=
    fun w hw => h (List.mem_flatMap.2 ⟨t, ht, hw⟩)
  have hinstruments : Passage ts xs (s.staves.map instrumentLine) := by
    rw [List.map_eq_flatMap]
    exact .flatMap fun t ht => .sentence (sentence_instrumentLine (htexts ht))
  have hnames : Passage ts xs (s.staves.zipIdx.flatMap fun p => namingLines p.2 p.1) :=
    .flatMap fun p hp => passage_namingLines (htexts (List.fst_mem_of_mem_zipIdx hp)) p.2
  have hremark : Passage ts xs ["// Set staff instrument names"] := .remark (by decide) (by decide)
  have hdialog :
      Passage ts xs
        [call "Sibelius.CreateProgressDialog" [quoted "Importing...", toString 0, toString 100]] :=
    .sentence (sentence_call (by decide) ⟨.quoted (by decide), .number 0, .number 100⟩)
  have hstaves :=
    (((Passage.entering.append (.missingBars (maxBars s))).append hinstruments).append
      .blank).append .collecting
  exact (((hstaves.append hremark).append hnames).append .blank).append
    (passage_layoutLines hlayout) |>.append (hdialog.append .blank)

theorem passage_conclusion {s : Score} (h : s.system.flatMap Bar.texts ⊆ ts) :
    Passage ts xs (conclusion s) := by
  have hremark : Passage ts xs ["// System staff: breaks, time/key, tempo, barlines"] :=
    .remark (by decide) (by decide)
  have hbars : Passage ts xs ((systemNumbers s).flatMap (systemBarLines s)) :=
    .flatMap fun n _ => passage_systemBarLines h n
  have hspacing :
      Passage ts xs ["// Optimize staff spacing", call "score.OptimizeStaffSpacing" [toString 1]] :=
    .append (.remark (l := "// Optimize staff spacing") (by decide) (by decide))
      (.sentence (.call (by decide) (List.forall_mem_singleton.2 (.number 1))))
  have hdialog : Passage ts xs [call "Sibelius.DestroyProgressDialog" []] :=
    .sentence (.call (by decide) (List.forall_mem_nil _))
  have hcount : Plain ("Import complete: " ++ toString s.staves.length ++ " staves") := by
    simp only [plain_append]
    exact ⟨⟨by decide, plain_count _⟩, by decide⟩
  have hmessage :
      Passage ts xs
        [call "Sibelius.MessageBox"
          [quoted ("Import complete: " ++ toString s.staves.length ++ " staves")]] :=
    .sentence (.call (by decide) (List.forall_mem_singleton.2 (.quoted hcount)))
  exact (hremark.append hbars).append
    (.append .blank (hspacing.append (.append .blank (hdialog.append (hmessage.append .leaving)))))

/-- **The code is written if all notes stand at finite offsets,** and is a passage with the texts
and the sizes of the score. -/
theorem writes_code {s : Score} (h : s.isPlaced = true) :
    Writes s.texts s.layout.sizes (code s) := by
  have hstaves : ∀ p ∈ s.staves.zipIdx,
      Writes s.texts s.layout.sizes (staffLines s.staves.length p.2 p.1) := by
    intro p hp
    have hmem := List.fst_mem_of_mem_zipIdx hp
    refine writes_staffLines (fun w hw => ?_) (List.all_eq_true.1 h p.1 hmem) s.staves.length p.2
    exact List.mem_append_left _ (List.mem_flatMap.2 ⟨p.1, hmem, hw⟩)
  obtain ⟨lss, hlss, hpassage⟩ := writes_mapM hstaves
  refine ⟨_, by rw [code, hlss]; rfl, ?_⟩
  exact ((passage_preparation (List.subset_append_left _ _) (List.Subset.refl _)).append
    hpassage).append
    (passage_conclusion (List.subset_append_right _ _))

/-! ## Offsets that cannot be written -/

theorem isFinite_of_offsetLine (h : offsetLine member x = .ok ls) : x.isFinite = true := by
  cases x with
  | finite negative m e => rfl
  | nan => cases h
  | infinite negative => cases h

theorem isPlaced_of_noteLines (h : noteLines n = .ok ls) : (Item.noteRest n).isPlaced = true := by
  rw [noteLines] at h
  cases hnotes : n.notes with
  | nil => simp [Item.isPlaced, NoteRest.isRest, hnotes]
  | cons first more =>
    rw [hnotes] at h
    obtain ⟨adorn, hadorn, -⟩ := ok_of_bind h
    obtain ⟨dx, hdx, hadorn⟩ := ok_of_bind hadorn
    obtain ⟨dy, hdy, -⟩ := ok_of_bind hadorn
    simp [Item.isPlaced, isFinite_of_offsetLine hdx, isFinite_of_offsetLine hdy]

theorem isPlaced_of_barLines {b : Bar} (h : barLines b = .ok ls) :
    ∀ i ∈ b.items, i.isPlaced = true := by
  intro i hi
  cases i with
  | noteRest n =>
    rw [barLines] at h
    split at h
    · obtain ⟨lss, hlss, -⟩ := ok_of_bind h
      obtain ⟨ls, hls⟩ := ok_of_mapM hlss _ hi
      exact isPlaced_of_noteLines hls
    · next hsilent =>
      -- a bar in which nothing sounds has rests only
      have hrest : n.isRest = true := by
        simp only [Bar.sounds, List.any_eq_true, not_exists, not_and] at hsilent
        have := hsilent _ hi
        simp [Item.isChord, Item.isSingle] at this
        grind
      rw [Item.isPlaced, hrest, Bool.true_or]
  | _ => rfl

/-- The code is written only if all notes stand at finite offsets. -/
theorem isPlaced_of_code {s : Score} (h : code s = .ok ls) : s.isPlaced = true := by
  obtain ⟨lss, hlss, -⟩ := ok_of_bind h
  refine List.all_eq_true.2 fun t ht => List.all_eq_true.2 fun b hb => List.all_eq_true.2 ?_
  obtain ⟨i, hi, rfl⟩ := List.mem_iff_getElem.1 ht
  have hmem : (s.staves[i], i) ∈ s.staves.zipIdx :=
    List.mk_mem_zipIdx_iff_getElem?.2 (List.getElem?_eq_getElem hi)
  obtain ⟨ms, hms⟩ := ok_of_mapM hlss _ hmem
  obtain ⟨bars, hbars, -⟩ := ok_of_bind hms
  obtain ⟨ls, hls⟩ := ok_of_mapM hbars b hb
  exact isPlaced_of_barLines hls

end Partitura.Score.ImportPlugin
