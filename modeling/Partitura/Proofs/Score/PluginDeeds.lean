import Mathlib
import Partitura.Proofs.Score.PluginReading

/-!
# What the import plugin does

The plugin is read line by line. `Tells I ls xs J` says what lines add if they are read while `I`
holds of the staff and the bar that are taken up, and that `J` holds after them; it is shown for
each part of the code, from single lines up to the whole (`tells_code`). All notes of a score are
told, each where it stands (`notes_told`). Texts are told only from bars in which something sounds:
what is marked in a bar of rest is lost (`captions_told`).
-/

namespace Partitura.Score.ImportPlugin

open Number (Binary64)

variable {α : Type} {b : Bar}

/-! ## Lines that are told one after the other -/

section Telling

/-- Read at a desk of which `I` holds, the lines add `xs`, and then `J` holds of the desk. -/
def Tells (I : Desk → Prop) (ls : List String) (xs : List (Desk × Addition)) (J : Desk → Prop) :
    Prop :=
  ∀ d, I d → deeds d ls = xs.map (Prod.map id some) ∧ J (ls.foldl Desk.next d)

variable {I J K : Desk → Prop} {ls ms : List String} {xs ys : List (Desk × Addition)}

theorem deeds_append (d : Desk) (ls ms : List String) :
    deeds d (ls ++ ms) = deeds d ls ++ deeds (ls.foldl Desk.next d) ms := by
  induction ls generalizing d with
  | nil => rfl
  | cons l ls ih => rw [List.cons_append, deeds, ih, deeds, List.append_assoc, List.foldl_cons]

theorem tells_nil : Tells I [] [] I := fun _ hd => ⟨rfl, hd⟩

theorem Tells.append (h : Tells I ls xs J) (h' : Tells J ms ys K) :
    Tells I (ls ++ ms) (xs ++ ys) K := by
  intro d hd
  obtain ⟨hdeeds, hJ⟩ := h d hd
  obtain ⟨hdeeds', hK⟩ := h' _ hJ
  exact ⟨by rw [deeds_append, hdeeds, hdeeds', List.map_append], by rwa [List.foldl_append]⟩

theorem Tells.mono {I' J' : Desk → Prop} (h : Tells I ls xs J) (hI : ∀ d, I' d → I d)
    (hJ : ∀ d, J d → J' d) : Tells I' ls xs J' := by
  intro d hd
  obtain ⟨hdeeds, hJd⟩ := h d (hI d hd)
  exact ⟨hdeeds, hJ _ hJd⟩

/-- Lines that are passed over. -/
theorem tells_of_quiet (h : ls.all isQuiet = true) : Tells I ls [] I := by
  induction ls with
  | nil => exact tells_nil
  | cons l ls ih =>
    rw [List.all_cons, Bool.and_eq_true] at h
    intro d hd
    obtain ⟨hdeeds, hI⟩ := ih h.2 d hd
    rw [deeds, List.foldl_cons, next_of_isQuiet h.1, addition?_of_isQuiet h.1]
    exact ⟨hdeeds, hI⟩

theorem tells_flatMap {f : α → List String} {g : α → List (Desk × Addition)} {as : List α}
    (h : ∀ a ∈ as, Tells I (f a) (g a) I) : Tells I (as.flatMap f) (as.flatMap g) I := by
  induction as with
  | nil => exact tells_nil
  | cons a as ih =>
    exact (h a List.mem_cons_self).append (ih fun b hb => h b (List.mem_cons_of_mem _ hb))

theorem tells_nothing {f : α → List String} {as : List α} (h : ∀ a ∈ as, Tells I (f a) [] I) :
    Tells I (as.flatMap f) [] I := by
  have hnil : as.flatMap (fun _ => ([] : List (Desk × Addition))) = [] :=
    List.flatMap_eq_nil_iff.2 fun _ _ => rfl
  rw [← hnil]
  exact tells_flatMap h

/-- Lines that are written for one element after the other. -/
theorem tells_mapM {f : α → Except Binary64.TruncateError (List String)}
    {g : α → List (Desk × Addition)} {as : List α} {lss : List (List String)}
    (hlss : as.mapM f = .ok lss) (h : ∀ a ∈ as, ∀ ls, f a = .ok ls → Tells I ls (g a) I) :
    Tells I lss.flatten (as.flatMap g) I := by
  induction as generalizing lss with
  | nil =>
    cases hlss
    exact tells_nil
  | cons a as ih =>
    rw [List.mapM_cons] at hlss
    obtain ⟨ls, hls, hlss⟩ := ok_of_bind hlss
    obtain ⟨mss, hmss, hlss⟩ := ok_of_bind hlss
    cases hlss
    exact (h a List.mem_cons_self ls hls).append
      (ih hmss fun b hb => h b (List.mem_cons_of_mem _ hb))

/-- A line that adds something. -/
theorem tells_form {f : String × (List String → Option Addition)} (hf : f ∈ forms)
    {as : List String} (hne : as ≠ []) (has : ∀ a ∈ as, Whole a) {x : Addition}
    (hx : f.2 as = some x) (d : Desk) :
    Tells (· = d) [f.1 ++ Text.join ", " as ++ ");"] [(d, x)] (· = d) := by
  rintro _ rfl
  rw [deeds, addition?_of_form hf hne has, hx, deeds, List.foldl_cons, String.append_assoc,
    next_of_form hf]
  exact ⟨rfl, rfl⟩

end Telling

/-! ## What elements add -/

/-- What a note or a chord adds: its first note with the place, the duration and the voice, and then
the others. -/
def notesOf : Item → List Addition
  | .noteRest n =>
    match n.notes with
    | [] => []
    | first :: more =>
      .note n.pos first.pitch n.dur first.tied n.voice :: more.map fun k => .joined k.pitch
  | _ => []

/-- What a dynamic, a text or a rehearsal mark adds. -/
def captionsOf : Item → List Addition
  | .dynamic pos w _ _ => [.text pos w "text.staff.expression"]
  | .text pos w style _ _ => [.text pos w (textStyle style)]
  | .rehearsal pos w _ => [.text pos w "text.system.rehearsalmark"]
  | _ => []

/-- What a tempo adds, if it has a text. -/
def temposOf : Item → List Addition
  | .tempo pos w _ _ => if w.isEmpty then [] else [.text pos w "text.system.tempo"]
  | _ => []

/-- What an element adds; it is of one kind only. -/
def additionsOf (i : Item) : List Addition := notesOf i ++ captionsOf i ++ temposOf i

theorem tells_addedLine (n : NoteRest) (k : Note) (d : Desk) :
    Tells (· = d) [addedLine n k] [(d, .note n.pos k.pitch n.dur k.tied n.voice)] (· = d) := by
  refine tells_form (f := ("nr = b.AddNote(", Addition.note?)) (by simp [forms]) (by simp) ?_ ?_ d
  · simp only [List.forall_mem_cons, whole_number, whole_truth, true_and]
    exact List.forall_mem_nil _
  · simp only [Addition.note?, toInt?_toString, truth?_truth]
    rfl

theorem tells_joinedLine (k : Note) (d : Desk) :
    Tells (· = d) [joinedLine k] [(d, .joined k.pitch)] (· = d) := by
  have hread : Addition.joined? [toString k.pitch] = some (.joined k.pitch) := by
    rw [Addition.joined?, toInt?_toString]
    rfl
  have htells := tells_form (f := ("\tnr.AddNote(", Addition.joined?)) (by simp [forms]) (by simp)
    (List.forall_mem_singleton.2 (whole_number k.pitch)) hread d
  have hline : joinedLine k = "\tnr.AddNote(" ++ Text.join ", " [toString k.pitch] ++ ");" := by
    rw [joinedLine, call, ← String.append_assoc, ← String.append_assoc]
    rfl
  rwa [hline]

theorem tells_textLine (pos : Int) (w : String) {style : String} (hstyle : Plain style) (d : Desk) :
    Tells (· = d) [textLine "b" pos w style] [(d, .text pos w style)] (· = d) := by
  refine tells_form (f := ("b.AddText(", Addition.text?)) (by simp [forms]) (by simp) ?_ ?_ d
  · simp only [List.forall_mem_cons, whole_number, whole_literal, whole_quoted hstyle, true_and]
    exact List.forall_mem_nil _
  · simp only [Addition.text?, toInt?_toString, string?_literal, string?_quoted hstyle]
    rfl

theorem quiet_offsetLine {member : String} (hmember : "\tnr." ++ member ∈ otherStarts)
    {x : Binary64} {ls : List String} (h : offsetLine member x = .ok ls) :
    ls.all isQuiet = true := by
  rw [offsetLine] at h
  split at h
  · cases h
    rfl
  · obtain ⟨n, -, rfl⟩ := ok_of_map h
    exact quiet_start hmember (by simp)

theorem quiet_adornments {n : NoteRest} {ls : List String} (h : adornments n = .ok ls) :
    ls.all isQuiet = true := by
  obtain ⟨dx, hdx, h⟩ := ok_of_bind h
  obtain ⟨dy, hdy, h⟩ := ok_of_bind h
  cases h
  have hmarks :
      ∀ a : String, isQuiet ("\t" ++ call "nr.SetArticulation" [a, "True"]) = true := fun a =>
    isQuiet_of_start (v := "\tnr.SetArticulation") (by decide) (by simp [call])
  have hstem : (stemLine n.stem).all isQuiet = true := by cases n.stem <;> decide
  simp only [List.all_append, quiet_offsetLine (by decide) hdx, quiet_offsetLine (by decide) hdy,
    hstem, Bool.and_true]
  refine List.all_eq_true.2 fun l hl => ?_
  obtain ⟨a, -, hl⟩ := List.mem_filterMap.1 hl
  obtain ⟨w, -, rfl⟩ := Option.map_eq_some_iff.1 hl
  exact hmarks w

theorem tells_noteLines {n : NoteRest} {ls : List String} (h : noteLines n = .ok ls) (d : Desk) :
    Tells (· = d) ls ((notesOf (.noteRest n)).map (Prod.mk d)) (· = d) := by
  rw [noteLines] at h
  rw [notesOf]
  cases hnotes : n.notes with
  | nil =>
    rw [hnotes] at h
    cases h
    exact tells_nil
  | cons first more =>
    rw [hnotes] at h
    obtain ⟨adorn, hadorn, h⟩ := ok_of_bind h
    have hadded := tells_addedLine n first d
    split at h
    · cases h
      have hmore :
          Tells (· = d) (more.flatMap fun k => [joinedLine k])
            (more.flatMap fun k => [(d, .joined k.pitch)]) (· = d) :=
        tells_flatMap fun k _ => tells_joinedLine k d
      have hopen : Tells (· = d) ["if (nr != null) \x7b"] [] (· = d) := tells_of_quiet (by decide)
      have hclose : Tells (· = d) (adorn ++ ["\x7d"]) [] (· = d) :=
        tells_of_quiet (by rw [List.all_append, quiet_adornments hadorn]; decide)
      rw [← List.map_eq_flatMap, ← List.map_eq_flatMap] at hmore
      simpa [Function.comp_def] using ((hadded.append hopen).append hmore).append hclose
    · next hplain =>
      cases h
      -- a note that is no chord is alone
      have halone : more = [] := by
        simp [NoteRest.isChord, hnotes] at hplain
        exact hplain.1
      rw [halone]
      exact hadded

theorem quiet_spanLine (barLength : Int) (span : Span) (style : String) (voice : Int) :
    (spanLine barLength span style voice).all isQuiet = true := by
  rw [spanLine]
  split
  · exact quiet_call (by decide) _
  · rfl

theorem quiet_barlineLine {bar : String} (hbar : bar ++ ".AddSpecialBarline" ∈ otherStarts)
    (type : String) : (barlineLine bar type).all isQuiet = true := by
  rw [barlineLine, List.all_map]
  exact List.all_eq_true.2 fun _ _ => isQuiet_call hbar _

theorem quiet_graceLine (pos : Int) (type : String) : (graceLine pos type).all isQuiet = true := by
  unfold graceLine
  split
  · exact quiet_start (v := "//") (by decide) (by simp)
  · exact quiet_start (v := "//") (by decide) (by simp)
  · rfl

theorem tells_itemLines {i : Item} {barLength : Int} {ls : List String}
    (h : itemLines barLength i = .ok ls) (d : Desk) :
    Tells (· = d) ls ((additionsOf i).map (Prod.mk d)) (· = d) := by
  cases i with
  | noteRest n =>
    have hadditions : additionsOf (.noteRest n) = notesOf (.noteRest n) := by
      simp [additionsOf, captionsOf, temposOf]
    rw [hadditions]
    exact tells_noteLines h d
  | dynamic pos w | rehearsal pos w =>
    cases h
    exact tells_textLine pos w (by decide) d
  | text pos w style =>
    cases h
    exact tells_textLine pos w (plain_textStyle style) d
  | tempo pos w =>
    cases h
    change Tells _ _
      ((if w.isEmpty then [] else [Addition.text pos w "text.system.tempo"]).map (Prod.mk d)) _
    split
    · exact tells_nil
    · exact tells_textLine pos w (by decide) d
  | clef | tuplet =>
    cases h
    exact tells_of_quiet (quiet_call (by decide) _)
  | slur span voice | octava type span voice | trill span voice =>
    cases h
    exact tells_of_quiet (quiet_spanLine barLength span _ voice)
  | hairpin type span voice =>
    cases type with
    | cresc | dim =>
      cases h
      exact tells_of_quiet (quiet_spanLine barLength span _ voice)
  | pedal type span =>
    cases h
    exact tells_of_quiet (quiet_spanLine barLength span _ 1)
  | barline pos type =>
    cases h
    exact tells_of_quiet (quiet_barlineLine (by decide) type)
  | grace pos type =>
    cases h
    exact tells_of_quiet (quiet_graceLine pos type)
  | key | time =>
    cases h
    exact tells_nil

/-! ## What bars, staves and scores add -/

/-- What the elements of a bar add, each with this staff and the bar. -/
def told (f : Item → List Addition) (staff : Int) (b : Bar) : List (Desk × Addition) :=
  (b.items.flatMap f).map (Prod.mk ⟨some staff, some b.n⟩)

/-- What the elements of a score add, staff by staff, in those of its bars of which `p` holds. -/
def toldIn (p : Bar → Bool) (f : Item → List Addition) (s : Score) : List (Desk × Addition) :=
  s.staves.zipIdx.flatMap fun t => t.1.bars.flatMap fun b => if p b then told f t.2 b else []

theorem tells_nthBar (k n : Int) : Tells (·.staff = some k) [call "b = st.NthBar" [toString n]] []
    (· = ⟨some k, some n⟩) := by
  have hline : call "b = st.NthBar" [toString n] = "b = st.NthBar(" ++ toString n ++ ");" := by
    simp [call, Text.join]
  have hl : "b = st.NthBar(".toList <+: ("b = st.NthBar(" ++ toString n ++ ");").toList := by simp
  have hstart : Text.hasStart ("b = st.NthBar(" ++ toString n ++ ");") "b = st.NthBar(" = true :=
    List.isPrefixOf_iff_prefix.2 hl
  rintro ⟨_, bar⟩ rfl
  rw [hline, deeds, addition?_of_start (by decide) hl, List.foldl_cons, Desk.next,
    hasStart_of_diverge (by decide) hl, hstart, between?_append, Option.bind_some, toInt?_toString]
  exact ⟨rfl, rfl⟩

theorem tells_staff (k : Int) : Tells (fun _ => True) ["st = staves[" ++ toString k ++ "];"] []
    (·.staff = some k) := by
  have hl : "st = staves[".toList <+: ("st = staves[" ++ toString k ++ "];").toList := by simp
  have hstart : Text.hasStart ("st = staves[" ++ toString k ++ "];") "st = staves[" = true :=
    List.isPrefixOf_iff_prefix.2 hl
  intro d _
  rw [deeds, addition?_of_start (by decide) hl, List.foldl_cons, Desk.next, hstart, between?_append,
    Option.bind_some, toInt?_toString]
  exact ⟨rfl, rfl⟩

theorem tells_barLines {ls : List String} (h : barLines b = .ok ls) (k : Int) :
    Tells (·.staff = some k) ls (if b.sounds then told additionsOf k b else [])
    (·.staff = some k) := by
  rw [barLines] at h
  split at h
  · next hsounds =>
    obtain ⟨lss, hlss, h⟩ := ok_of_bind h
    cases h
    -- no element takes up another bar, so each one finds the bar taken up that the first line has
    -- named
    have hitems := tells_mapM hlss fun i _ ls hls => tells_itemLines hls ⟨some k, some b.n⟩
    rw [if_pos hsounds, told, List.map_flatMap]
    refine ((tells_nthBar k b.n).append hitems).mono (fun _ hd => hd) ?_
    rintro _ rfl
    rfl
  · next hsilent =>
    cases h
    rw [if_neg hsilent]
    exact tells_nil

/-- Syllables take up bars and add neither notes nor texts. -/
theorem tells_syllableLines (k voice : Int) (y : Syllable) :
    Tells (·.staff = some k) (syllableLines voice y) [] (·.staff = some k) := by
  rw [syllableLines]
  cases y.bar with
  | none => exact tells_nil
  | some n =>
    have hlyric (as : List String) :
        Tells (· = ⟨some k, some n⟩) [call "b.AddLyric" as] [] (· = ⟨some k, some n⟩) :=
      tells_of_quiet (quiet_call (by decide) _)
    refine ((tells_nthBar k n).append (hlyric _)).mono (fun _ hd => hd) ?_
    rintro _ rfl
    rfl

theorem tells_lyricsLines (k : Int) (l : Lyrics) :
    Tells (·.staff = some k) (lyricsLines l) [] (·.staff = some k) := by
  have hremark :
      Tells (·.staff = some k)
        ["// Lyrics voice " ++ toString l.voice ++ " verse " ++ toString l.verse] []
      (·.staff = some k) := tells_of_quiet (quiet_start (v := "//") (by decide) (by simp))
  exact hremark.append (tells_nothing fun y _ => tells_syllableLines k l.voice y)

theorem tells_findingLines (total index : Nat) (s : Staff) :
    Tells (fun _ => True) (findingLines total index s) [] (·.staff = some (index : Int)) := by
  have hbefore : Tells (fun _ => True) [call "Sibelius.UpdateProgressDialog"
      [toString (index * 100 / total),
        quoted ("Staff " ++ toString (index + 1) ++ " of " ++ toString total ++ "...")],
      "// Staff " ++ toString (index + 1) ++ ": " ++ orElse s.instrument "unnamed"] []
        (fun _ => True) :=
    tells_of_quiet
      (quiet_cons (isQuiet_call (by decide) _) (quiet_start (v := "//") (by decide) (by simp)))
  have hafter : Tells (·.staff = some (index : Int)) ["if (st = null) \x7b",
      "\t" ++ call "Sibelius.MessageBox" [quoted ("Staff " ++ toString index ++ " is null")],
      "\treturn False;", "\x7d"] []
      (·.staff = some (index : Int)) :=
    tells_of_quiet (quiet_cons (by decide)
      (quiet_cons (isQuiet_of_start (v := "\tSibelius.MessageBox") (by decide) (by simp [call]))
        (by decide)))
  exact (hbefore.append (tells_staff index)).append hafter

theorem tells_staffLines {total index : Nat} {s : Staff} {ls : List String}
    (h : staffLines total index s = .ok ls) :
    Tells (fun _ => True) ls (s.bars.flatMap fun b =>
      if b.sounds then told additionsOf index b else []) (fun _ => True) := by
  obtain ⟨lss, hlss, h⟩ := ok_of_bind h
  cases h
  -- the lyrics come last: they may take up any bar, since no note or text of this staff follows
  have hbars := tells_mapM hlss fun b _ ls hls => tells_barLines hls index
  have hlyrics :
      Tells (·.staff = some (index : Int)) (s.lyrics.flatMap lyricsLines) []
        (·.staff = some (index : Int)) :=
    tells_nothing fun l _ => tells_lyricsLines index l
  have hblank : Tells (·.staff = some (index : Int)) [""] [] (·.staff = some (index : Int)) :=
    tells_of_quiet (by decide)
  have hall := (((tells_findingLines total index s).append hbars).append hlyrics).append hblank
  simpa using hall.mono (fun _ hd => hd) (fun _ _ => trivial)

theorem quiet_flatMap {f : α → List String} {as : List α} (h : ∀ a ∈ as, (f a).all isQuiet = true) :
    (as.flatMap f).all isQuiet = true := by
  rw [List.all_flatMap]
  exact List.all_eq_true.2 h

theorem quiet_namingLines (index : Nat) (s : Staff) : (namingLines index s).all isQuiet = true := by
  have hmember (name value : String) :
      ["staves[" ++ toString index ++ "]." ++ name ++ " = " ++ value ++ ";"].all isQuiet = true :=
    quiet_start (v := "staves[") (by decide) (by simp)
  rw [namingLines, List.all_append, List.all_append, Bool.and_eq_true, Bool.and_eq_true]
  refine ⟨⟨?_, ?_⟩, ?_⟩
  all_goals
    split
    · rfl
    · exact hmember _ _

theorem quiet_layoutLines (l : Layout) : (layoutLines l).all isQuiet = true := by
  have hpage (member : String) (x : Binary64) : (pageLine member x).all isQuiet = true := by
    rw [pageLine]
    split
    · exact quiet_start (v := "docSetup.") (by decide) (by simp)
    · rfl
  rw [layoutLines]
  split
  · simp only [List.all_append, hpage, Bool.and_true]
    decide
  · rfl

theorem quiet_missingBarLines (n : Nat) : (missingBarLines n).all isQuiet = true :=
  quiet_cons (isQuiet_of_start (v := "//") (by decide) (by simp))
    (quiet_cons (isQuiet_of_start (v := "barsNeeded") (by decide) (by simp)) (by decide))

theorem isQuiet_instrumentLine (s : Staff) : isQuiet (instrumentLine s) = true :=
  isQuiet_of_start (v := "score.CreateInstrument") (by decide) (by simp [instrumentLine, call])

theorem quiet_preparation (s : Score) : (preparation s).all isQuiet = true := by
  have hfixed : enteringLines.all isQuiet = true ∧ collectingLines.all isQuiet = true := by
    decide +kernel
  have hrest : [""].all isQuiet = true ∧ ["// Set staff instrument names"].all isQuiet = true ∧
      ["Sibelius.CreateProgressDialog('Importing...', 0, 100);", ""].all isQuiet = true := by decide
  have hinstruments : (s.staves.map instrumentLine).all isQuiet = true := by
    rw [List.map_eq_flatMap]
    exact quiet_flatMap fun t _ => quiet_cons (isQuiet_instrumentLine t) rfl
  have hnames : (s.staves.zipIdx.flatMap fun p => namingLines p.2 p.1).all isQuiet = true :=
    quiet_flatMap fun p _ => quiet_namingLines p.2 p.1
  simp only [preparation, List.all_append, hfixed, hrest, quiet_missingBarLines, hinstruments,
    hnames, quiet_layoutLines, Bool.and_self]

theorem quiet_systemBarLines (s : Score) (n : Int) : (systemBarLines s n).all isQuiet = true := by
  have hbreak (type : String) : (breakLine type).all isQuiet = true := by
    unfold breakLine
    split <;> decide
  have hsystem (i : Item) : (systemLines i).all isQuiet = true := by
    unfold systemLines
    split
    · exact quiet_call (by decide) _
    · exact quiet_call (by decide) _
    · split
      · rfl
      · exact quiet_call (by decide) _
    · exact quiet_barlineLine (by decide) _
    · rfl
  rw [systemBarLines, List.all_append, List.all_append, Bool.and_eq_true, Bool.and_eq_true]
  refine ⟨⟨quiet_call (by decide) _, ?_⟩, ?_⟩
  · cases breakAt? (breakBars s) n with
    | none => rfl
    | some type => exact hbreak type
  · cases s.system.find? (·.n == n) with
    | none => rfl
    | some b => exact quiet_flatMap fun i _ => hsystem i

theorem quiet_conclusion (s : Score) : (conclusion s).all isQuiet = true := by
  have hbars : ((systemNumbers s).flatMap (systemBarLines s)).all isQuiet = true :=
    quiet_flatMap fun n _ => quiet_systemBarLines s n
  have hmessage (as : List String) : isQuiet (call "Sibelius.MessageBox" as) = true :=
    isQuiet_call (by decide) as
  simp only [conclusion, List.all_append, hbars, List.all_cons, hmessage]
  decide

/-- What the code of a score tells. -/
theorem tells_code {s : Score} {ls : List String} (h : code s = .ok ls) :
    Tells (fun _ => True) ls (toldIn Bar.sounds additionsOf s) (fun _ => True) := by
  obtain ⟨lss, hlss, h⟩ := ok_of_bind h
  cases h
  have hstaves := tells_mapM hlss fun t _ ls hls => tells_staffLines hls
  have hbefore : Tells (fun _ => True) (preparation s) [] (fun _ => True) :=
    tells_of_quiet (quiet_preparation s)
  have hafter : Tells (fun _ => True) (conclusion s) [] (fun _ => True) :=
    tells_of_quiet (quiet_conclusion s)
  simpa [toldIn] using (hbefore.append hstaves).append hafter

/-! ## The text of the plugin -/

/-- **What the plugin adds,** read line by line: what the elements of the bars add in which
something sounds. -/
theorem exists_source {s : Score} (hlines : ∀ t ∈ s.texts, '\n' ∉ t.toList)
    (hplaced : s.isPlaced = true) :
    ∃ text, source s = .ok text ∧ Adds text (toldIn Bar.sounds additionsOf s) := by
  obtain ⟨ls, hls, hpassage⟩ := writes_code hplaced
  have hframe :
      (∀ l ∈ ["\x7b", "\tInitialize \"() \x7b", "AddToPluginsMenu('Mahlif: Import Test', 'Run');",
        "\x7d\"", "\tRun \"() \x7b"],
      isQuiet l = true ∧ '\n' ∉ l.toList) ∧ ∀ l ∈ ["\x7d\"", "\x7d"], isQuiet l = true ∧
        '\n' ∉ l.toList := by decide
  refine ⟨_, by rw [source, lines, hls]; rfl, ?_⟩
  rw [Adds, Text.pieces_join_of_not_mem rfl (by simp)]
  · have hbefore :=
      tells_of_quiet (I := fun _ => True) (List.all_eq_true.2 fun l hl => (hframe.1 l hl).1)
    have hafter :=
      tells_of_quiet (I := fun _ => True) (List.all_eq_true.2 fun l hl => (hframe.2 l hl).1)
    have htells := (hbefore.append (tells_code hls)).append hafter
    rw [List.nil_append, List.append_nil] at htells
    exact (htells ⟨none, none⟩ trivial).1
  · simp only [List.forall_mem_append]
    exact ⟨⟨fun l hl => (hframe.1 l hl).2, hpassage.not_mem newline_mem_outer hlines⟩,
      fun l hl => (hframe.2 l hl).2⟩

/-! ## Notes -/

/-- The pitch of a note that is added. -/
def Addition.pitch? : Addition → Option Int
  | .note _ pitch _ _ _ | .joined pitch => some pitch
  | .text .. => none

/-- The pitches of a note or a chord. -/
def pitchesOf : Item → List Int
  | .noteRest n => n.notes.map Note.pitch
  | _ => []

/-- What is told of one kind. -/
theorem filter_toldIn (p : Bar → Bool) (f : Item → List Addition)
    (q : Addition → Bool) (s : Score) :
    (toldIn p f s).filter (fun x => q x.2) = toldIn p (fun i => (f i).filter q) s := by
  have htold (k : Int) (b : Bar) :
      (told f k b).filter (fun x => q x.2) = told (fun i => (f i).filter q) k b := by
    rw [told, List.filter_map, List.filter_flatMap]
    rfl
  rw [toldIn, toldIn, List.filter_flatMap]
  refine List.flatMap_congr fun t _ => ?_
  rw [List.filter_flatMap]
  refine List.flatMap_congr fun b _ => ?_
  split
  · exact htold t.2 b
  · rfl

theorem notesOf_eq (i : Item) : (additionsOf i).filter (fun a => a.pitch?.isSome) = notesOf i := by
  cases i with
  | noteRest n =>
    cases hnotes : n.notes with
    | nil => simp [additionsOf, notesOf, captionsOf, temposOf, hnotes]
    | cons first more => simp [additionsOf, notesOf, captionsOf, temposOf, hnotes, Addition.pitch?]
  | tempo pos w =>
    change (if w.isEmpty then [] else [Addition.text pos w "text.system.tempo"]).filter _ = []
    split <;> rfl
  | _ => rfl

theorem filterMap_notesOf (i : Item) : (notesOf i).filterMap Addition.pitch? = pitchesOf i := by
  cases i with
  | noteRest n =>
    cases hnotes : n.notes <;> simp [notesOf, pitchesOf, hnotes, Addition.pitch?, Function.comp_def]
  | _ => rfl

/-- Lists that are put together from others that are parts of them: nothing is missing if and only
if it is missing nowhere. -/
theorem flatMap_eq_iff {β : Type} {f g : α → List β} {as : List α}
    (h : ∀ a ∈ as, (f a).Sublist (g a)) : as.flatMap f = as.flatMap g ↔ ∀ a ∈ as, f a = g a := by
  refine ⟨fun heq => ?_, List.flatMap_congr⟩
  induction as with
  | nil => exact List.forall_mem_nil _
  | cons a as ih =>
    obtain ⟨ha, has⟩ := List.forall_mem_cons.1 h
    rw [List.flatMap_cons, List.flatMap_cons] at heq
    -- both parts are at most as long as what they are parts of
    have hlength := congrArg List.length heq
    have hfirst := ha.length_le
    have hrest := (List.Sublist.flatMap_right as has).length_le
    rw [List.length_append, List.length_append] at hlength
    have hsame : f a = g a := ha.eq_of_length (by omega)
    rw [hsame] at heq
    exact List.forall_mem_cons.2 ⟨hsame, ih has (List.append_cancel_left heq)⟩

theorem told_eq_nil_iff {f : Item → List Addition} {k : Int} :
    told f k b = [] ↔ ∀ i ∈ b.items, f i = [] := by
  rw [told, List.map_eq_nil_iff, List.flatMap_eq_nil_iff]

/-- Nothing is missing if and only if there is nothing in the other bars. -/
theorem toldIn_eq_iff (p : Bar → Bool) (f : Item → List Addition) (s : Score) :
    toldIn p f s = toldIn (fun _ => true) f s ↔ ∀ t ∈ s.staves, ∀ b ∈ t.bars, p b = true ∨
      ∀ i ∈ b.items, f i = [] := by
  have hbar (k : Nat) (b : Bar) : (if p b then told f k b else []).Sublist (told f k b) := by
    split
    · exact List.Sublist.refl _
    · exact List.nil_sublist _
  have hbar_eq (k : Nat) (b : Bar) : (if p b then told f k b else []) = told f k b ↔
      p b = true ∨ ∀ i ∈ b.items, f i = [] := by
    rw [← told_eq_nil_iff (k := k), eq_comm]
    cases p b <;> simp
  have hstaff (t : Staff × Nat) :
      (t.1.bars.flatMap fun b => if p b then told f t.2 b else []).Sublist
        (t.1.bars.flatMap fun b => told f t.2 b) :=
    List.Sublist.flatMap_right _ fun b _ => hbar t.2 b
  calc toldIn p f s = toldIn (fun _ => true) f s
      ↔ ∀ t ∈ s.staves.zipIdx, (t.1.bars.flatMap fun b => if p b then told f t.2 b else []) =
        t.1.bars.flatMap fun b => told f t.2 b :=
        flatMap_eq_iff fun t _ => hstaff t
    _ ↔ ∀ t ∈ s.staves.zipIdx, ∀ b ∈ t.1.bars, p b = true ∨ ∀ i ∈ b.items, f i = [] := by
        refine forall₂_congr fun t _ => ?_
        rw [flatMap_eq_iff fun b _ => hbar t.2 b]
        exact forall₂_congr fun b _ => hbar_eq t.2 b
    _ ↔ ∀ t ∈ s.staves, ∀ b ∈ t.bars, p b = true ∨ ∀ i ∈ b.items, f i = [] := by
        have hstaves := List.forall_mem_map (f := Prod.fst) (l := s.staves.zipIdx)
          (P := fun t => ∀ b ∈ t.bars, p b = true ∨ ∀ i ∈ b.items, f i = [])
        rw [List.zipIdx_map_fst] at hstaves
        exact hstaves.symm

/-- Where nothing sounds, there are no notes. -/
theorem notesOf_of_silent (hb : ¬ b.sounds = true) {i : Item} (hi : i ∈ b.items) :
    notesOf i = [] := by
  cases i with
  | noteRest n =>
    have hrest : n.notes = [] := by
      simp only [Bar.sounds, List.any_eq_true, not_exists, not_and] at hb
      have := hb _ hi
      simp [Item.isChord, Item.isSingle, NoteRest.isRest] at this
      grind
    rw [notesOf, hrest]
  | _ => rfl

theorem filterMap_toldIn_notesOf (s : Score) :
    (toldIn (fun _ => true) notesOf s).filterMap (fun x => x.2.pitch?) =
    s.staves.flatMap fun t => t.bars.flatMap fun b => b.items.flatMap pitchesOf := by
  have htold (k : Int) (b : Bar) :
      (told notesOf k b).filterMap (fun x => x.2.pitch?) = b.items.flatMap pitchesOf := by
    rw [told, List.filterMap_map, ← funext filterMap_notesOf, ← List.filterMap_flatMap]
    rfl
  have hstaves :
      (s.staves.zipIdx.flatMap fun t => t.1.bars.flatMap fun b => b.items.flatMap pitchesOf) =
      s.staves.flatMap fun t => t.bars.flatMap fun b => b.items.flatMap pitchesOf := by
    rw [← List.flatMap_map Prod.fst fun t : Staff => t.bars.flatMap fun b =>
      b.items.flatMap pitchesOf, List.zipIdx_map_fst]
  rw [← hstaves, toldIn, List.filterMap_flatMap]
  refine List.flatMap_congr fun t _ => ?_
  rw [List.filterMap_flatMap]
  exact List.flatMap_congr fun b _ => htold t.2 b

/-- **No note is lost, told twice or misplaced.** The plugin of a score without line feeds in its
texts and with its notes at finite offsets is written, and all lines of it that add something can be
read. Those that add notes tell the notes of all bars in order: each first note with the place, the
duration, the tie and the voice, and each note while its staff and its bar are taken up. -/
theorem notes_told {s : Score} (hlines : ∀ t ∈ s.texts, '\n' ∉ t.toList)
    (hplaced : s.isPlaced = true) : ∃ text xs, source s = .ok text ∧ Adds text xs ∧
      xs.filter (fun x => x.2.pitch?.isSome) = toldIn (fun _ => true) notesOf s ∧
      xs.filterMap (fun x => x.2.pitch?) = s.staves.flatMap fun t => t.bars.flatMap fun b =>
        b.items.flatMap pitchesOf := by
  obtain ⟨text, htext, hadds⟩ := exists_source hlines hplaced
  have hnotes : (toldIn Bar.sounds additionsOf s).filter (fun x => x.2.pitch?.isSome) =
      toldIn (fun _ => true) notesOf s := by
    rw [filter_toldIn _ _ fun a => a.pitch?.isSome, funext notesOf_eq, toldIn_eq_iff]
    exact fun t _ b _ => or_iff_not_imp_left.2 fun hb i hi => notesOf_of_silent hb hi
  refine ⟨text, _, htext, hadds, hnotes, ?_⟩
  have hsome : (toldIn Bar.sounds additionsOf s).filterMap (fun x => x.2.pitch?) =
      ((toldIn Bar.sounds additionsOf s).filter (fun x => x.2.pitch?.isSome)).filterMap
        (fun x => x.2.pitch?) := by
    rw [List.filterMap_filter]
    refine List.filterMap_congr fun x _ => ?_
    cases x.2.pitch? <;> rfl
  rw [hsome, hnotes, filterMap_toldIn_notesOf]

theorem notes_told_chanson : (∀ t ∈ chanson.texts, '\n' ∉ t.toList) ∧ chanson.isPlaced = true ∧
    ∃ text xs, source chanson = .ok text ∧ Adds text xs ∧
      xs.filter (fun x => x.2.pitch?.isSome) =
        [(⟨some 0, some 1⟩, .note 0 60 256 false 1), (⟨some 0, some 1⟩, .joined 64)] ∧
      xs.filterMap (fun x => x.2.pitch?) = [60, 64] := by
  have hlines : ∀ t ∈ chanson.texts, '\n' ∉ t.toList := by decide
  have hplaced : chanson.isPlaced = true := by decide
  obtain ⟨text, xs, htext, hadds, hnotes, hpitches⟩ := notes_told hlines hplaced
  exact ⟨hlines, hplaced, text, xs, htext, hadds, hnotes.trans (by decide),
    hpitches.trans (by decide)⟩

/-! ## Texts -/

/-- A text that is added for another element than a tempo. -/
def Addition.isCaption : Addition → Bool
  | .text _ _ style => style != "text.system.tempo"
  | _ => false

theorem captionsOf_eq (i : Item) : (additionsOf i).filter Addition.isCaption = captionsOf i := by
  cases i with
  | noteRest n =>
    cases hnotes :
        n.notes <;> simp [additionsOf, notesOf, captionsOf, temposOf, hnotes, Addition.isCaption]
  | text pos w style =>
    change [Addition.text pos w (textStyle style)].filter _ =
      [Addition.text pos w (textStyle style)]
    refine List.filter_eq_self.2 (List.forall_mem_singleton.2 ?_)
    rw [textStyle]
    split
    · rfl
    · split <;> rfl
  | tempo pos w =>
    change (if w.isEmpty then [] else [Addition.text pos w "text.system.tempo"]).filter _ = []
    split <;> rfl
  | _ => rfl

theorem captionsOf_eq_nil_iff (i : Item) : captionsOf i = [] ↔ i.caption? = none := by
  cases i <;> simp [captionsOf, Item.caption?]

/-- **Texts are told from bars in which something sounds.** If no text of a score has a line feed
and its notes stand at finite offsets, the plugin is written, and the texts of dynamics, texts and
rehearsal marks of these bars are told in order, each one with its place and style while its staff
and its bar are taken up. So all texts are told if and only if nothing is marked in a bar in which
nothing sounds. If a note stands at no finite offset, no plugin is written. -/
theorem captions_told {s : Score} (hlines : ∀ t ∈ s.texts, '\n' ∉ t.toList) :
    (s.isPlaced = true → ∃ text xs, source s = .ok text ∧ Adds text xs ∧
      xs.filter (fun x => x.2.isCaption) = toldIn Bar.sounds captionsOf s ∧
      (xs.filter (fun x => x.2.isCaption) = toldIn (fun _ => true) captionsOf s ↔
        ∀ t ∈ s.staves, ∀ b ∈ t.bars, b.sounds = true ∨ ∀ i ∈ b.items, i.caption? = none)) ∧
    (s.isPlaced = false → ∃ e, source s = .error e) := by
  refine ⟨fun hplaced => ?_, fun hplaced => ?_⟩
  · obtain ⟨text, htext, hadds⟩ := exists_source hlines hplaced
    have hcaptions : (toldIn Bar.sounds additionsOf s).filter (fun x => x.2.isCaption) =
        toldIn Bar.sounds captionsOf s := by
      rw [filter_toldIn, funext captionsOf_eq]
    refine ⟨text, _, htext, hadds, hcaptions, ?_⟩
    rw [hcaptions, toldIn_eq_iff]
    simp only [captionsOf_eq_nil_iff]
  · cases hcode : code s with
    | error e => exact ⟨e, by rw [source, lines, hcode]; rfl⟩
    | ok ls =>
      rw [isPlaced_of_code hcode] at hplaced
      cases hplaced

theorem captions_told_chanson : (∀ t ∈ chanson.texts, '\n' ∉ t.toList) ∧ chanson.isPlaced = true ∧
    ∃ text xs, source chanson = .ok text ∧ Adds text xs ∧
      xs.filter (fun x => x.2.isCaption) =
        [(⟨some 0, some 1⟩, .text 0 "C:\\ 'forte'" "text.staff.expression")] ∧
      xs.filter (fun x => x.2.isCaption) = toldIn (fun _ => true) captionsOf chanson := by
  have hlines : ∀ t ∈ chanson.texts, '\n' ∉ t.toList := by decide
  have hplaced : chanson.isPlaced = true := by decide
  obtain ⟨text, xs, htext, hadds, hcaptions, hall⟩ := (captions_told hlines).1 hplaced
  exact ⟨hlines, hplaced, text, xs, htext, hadds, hcaptions.trans (by decide), hall.2 (by decide)⟩

/-- A score for one staff: a note that is marked forte, and then a bar of rest with a piano. -/
def intermezzo : Score :=
  let note : NoteRest :=
    ⟨0, 1024, 1, false, ⟨.ofInt 0, .ofInt 0⟩, [⟨60, none, 35, "", false⟩], [], .auto, .auto⟩
  let first : Bar := ⟨1, 1024, none, [.dynamic 0 "f" 1 ⟨.ofInt 0, .ofInt 0⟩, .noteRest note]⟩
  let second : Bar :=
    ⟨2, 1024, none, [.noteRest { note with notes := [] }, .dynamic 256 "p" 1 ⟨.ofInt 0, .ofInt 0⟩]⟩
  let staff : Staff := ⟨1, "Flute", "Fl.", "Flute", "Fl.", "treble", 0, 5, 100, [first, second], []⟩
  ⟨Meta.empty, Layout.standard, [], [staff], []⟩

/-- The piano in the bar of rest is not told. -/
theorem piano_not_told : toldIn (fun _ => true) captionsOf intermezzo =
      [(⟨some 0, some 1⟩, .text 0 "f" "text.staff.expression"),
        (⟨some 0, some 2⟩, .text 256 "p" "text.staff.expression")] ∧
    ∃ text xs, source intermezzo = .ok text ∧ Adds text xs ∧
      xs.filter (fun x => x.2.isCaption) =
        [(⟨some 0, some 1⟩, .text 0 "f" "text.staff.expression")] := by
  have hlines : ∀ t ∈ intermezzo.texts, '\n' ∉ t.toList := by decide
  obtain ⟨text, htext, hadds⟩ := exists_source hlines (by decide)
  refine ⟨by decide, text, _, htext, hadds, ?_⟩
  decide

end Partitura.Score.ImportPlugin
