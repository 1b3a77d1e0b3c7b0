import Mathlib.Data.List.Forall2
import Partitura.Proofs.Score.PluginLexemes

/-!
# Scores that differ in their texts

Two scores with the same notes and other texts are written as plugins of the same structure: the two
codes have as many tokens, of the same kinds, and tokens at the same place have the same text, apart
from the strings that hold the texts of the elements (`parallel_source`). The codes are compared
while they are written, element by element, by a relation of their tokens (`Echo`); what comes
before and after the staves does not depend on these texts at all (`preparation_withoutTexts`,
`conclusion_withoutTexts`).
-/

namespace Partitura.Score

/-- The text of a dynamic, a text or a rehearsal mark. -/
def Item.caption? : Item → Option String
  | .dynamic _ w _ _ | .text _ w _ _ _ | .rehearsal _ w _ => some w
  | _ => none

/-- The element with another text, if it is a dynamic, a text or a rehearsal mark. -/
def Item.recaption (w : String) : Item → Item
  | .dynamic pos _ voice offset => .dynamic pos w voice offset
  | .text pos _ style voice offset => .text pos w style voice offset
  | .rehearsal pos _ type => .rehearsal pos w type
  | i => i

/-- The bar without the texts of its dynamics, texts and rehearsal marks. -/
def Bar.withoutTexts (b : Bar) : Bar := { b with items := b.items.map (Item.recaption "") }

def Syllable.withoutText (y : Syllable) : Syllable := { y with text := "" }

def Lyrics.withoutTexts (l : Lyrics) : Lyrics :=
  { l with syllables := l.syllables.map Syllable.withoutText }

def Staff.withoutTexts (s : Staff) : Staff :=
  { s with bars := s.bars.map Bar.withoutTexts, lyrics := s.lyrics.map Lyrics.withoutTexts }

def Movement.withoutTexts (m : Movement) : Movement :=
  { m with staves := m.staves.map Staff.withoutTexts, system := m.system.map Bar.withoutTexts }

/-- The texts of the elements of a bar that are written, in order. Nothing of a bar is written in
which nothing sounds. -/
def Bar.carried (b : Bar) : List String :=
  if b.sounds then b.items.flatMap fun i => i.caption?.toList else []

/-- The texts of the syllables that are written, in order: those that have a bar. -/
def Lyrics.carried (l : Lyrics) : List String :=
  l.syllables.flatMap fun y => (y.bar.map fun _ => y.text).toList

def Staff.carried (s : Staff) : List String :=
  s.bars.flatMap Bar.carried ++ s.lyrics.flatMap Lyrics.carried

end Partitura.Score

namespace Partitura

/-- The score without the texts of dynamics, texts, rehearsal marks and syllables. -/
def Score.withoutTexts (s : Score) : Score :=
  { s with
    movements := s.movements.map Score.Movement.withoutTexts
    staves := s.staves.map Score.Staff.withoutTexts
    system := s.system.map Score.Bar.withoutTexts }

/-- The texts of dynamics, texts, rehearsal marks and syllables that are written into the plugin, in
order. -/
def Score.carried (s : Score) : List String := s.staves.flatMap Score.Staff.carried

end Partitura

namespace Partitura.Score.ImportPlugin

open ManuScript ManuScript.Lexer
open Number (Binary64)

variable {ts ts' : List String} {ls ls' : List (Kind × List Char)} {w w' : String}

/-! ## What does not depend on the texts -/

@[simp] theorem sounds_withoutTexts (b : Bar) : b.withoutTexts.sounds = b.sounds := by
  rw [Bar.sounds, Bar.sounds, Bar.withoutTexts, List.any_map]
  congr 1
  funext i
  cases i <;> rfl

theorem leadingClef_withoutTexts (s : Staff) : leadingClef s.withoutTexts = leadingClef s := by
  cases hbars : s.bars with
  | nil => simp [leadingClef, Staff.withoutTexts, hbars]
  | cons b bars =>
    simp only [leadingClef, Staff.withoutTexts, hbars, Bar.withoutTexts, List.map_cons,
      List.head?_cons, Option.map_some, Option.getD_some, List.findSome?_map]
    congr 3
    funext i
    cases i <;> rfl

theorem instrumentLine_withoutTexts (s : Staff) :
    instrumentLine s.withoutTexts = instrumentLine s := by
  rw [instrumentLine, leadingClef_withoutTexts]
  rfl

theorem maxBars_withoutTexts (s : Score) : maxBars s.withoutTexts = maxBars s := by
  have hbars :
      ((fun t : Staff => t.bars.length) ∘ Staff.withoutTexts) = fun t => t.bars.length := by
    funext t
    exact List.length_map ..
  rw [maxBars, maxBars, Score.withoutTexts, List.map_map, hbars]

/-- The code before the first staff does not depend on the texts. -/
theorem preparation_withoutTexts (s : Score) : preparation s.withoutTexts = preparation s := by
  have hinstruments : s.withoutTexts.staves.map instrumentLine = s.staves.map instrumentLine := by
    rw [Score.withoutTexts, List.map_map]
    exact List.map_congr_left fun t _ => instrumentLine_withoutTexts t
  have hnames : (s.withoutTexts.staves.zipIdx.flatMap fun p => namingLines p.2 p.1) =
      s.staves.zipIdx.flatMap fun p => namingLines p.2 p.1 := by
    rw [Score.withoutTexts, List.zipIdx_map, List.flatMap_map]
    rfl
  rw [preparation, preparation, maxBars_withoutTexts, hinstruments, hnames]
  rfl

theorem breakBars_withoutTexts (s : Score) :
    breakBars s.withoutTexts = (breakBars s).map Bar.withoutTexts := by
  cases h : s.staves with
  | nil => simp [breakBars, Score.withoutTexts, h]
  | cons t staves => simp [breakBars, Score.withoutTexts, h, Staff.withoutTexts]

theorem breakAt?_withoutTexts (bars : List Bar) (n : Int) :
    breakAt? (bars.map Bar.withoutTexts) n = breakAt? bars n := by
  rw [breakAt?, breakAt?, ← List.map_reverse, List.find?_map, Option.bind_map]
  rfl

theorem systemNumbers_withoutTexts (s : Score) :
    systemNumbers s.withoutTexts = systemNumbers s := by
  have hconcerns : (concernsSystem ∘ Item.recaption "") = concernsSystem := by
    funext i
    cases i <;> rfl
  have hsystem : ((fun b : Bar => b.items.any concernsSystem) ∘ Bar.withoutTexts) =
      fun b => b.items.any concernsSystem := by
    funext b
    rw [Function.comp_apply, Bar.withoutTexts, List.any_map, hconcerns]
  rw [systemNumbers, systemNumbers, breakBars_withoutTexts, maxBars_withoutTexts,
    Score.withoutTexts, List.filter_map, List.map_map, List.filter_map, List.map_map, hsystem]
  rfl

theorem systemBarLines_withoutTexts (s : Score) (n : Int) :
    systemBarLines s.withoutTexts n = systemBarLines s n := by
  have hitems : (fun b : Bar => b.items.flatMap systemLines) ∘ Bar.withoutTexts =
      fun b => b.items.flatMap systemLines := by
    funext b
    rw [Function.comp_apply, Bar.withoutTexts, List.flatMap_map]
    refine List.flatMap_congr fun i _ => ?_
    cases i <;> rfl
  rw [systemBarLines, systemBarLines, breakBars_withoutTexts, breakAt?_withoutTexts,
    Score.withoutTexts, List.find?_map, Option.map_map, hitems]
  rfl

/-- The code after the last staff does not depend on the texts. -/
theorem conclusion_withoutTexts (s : Score) : conclusion s.withoutTexts = conclusion s := by
  have hlength : s.withoutTexts.staves.length = s.staves.length := List.length_map ..
  rw [conclusion, conclusion, systemNumbers_withoutTexts, hlength,
    funext (systemBarLines_withoutTexts s)]

/-! ## Tokens of two codes -/

/-- Tokens of two codes side by side: the same one in both, or in each a text as a string. The texts
of both are listed. -/
inductive Echo :
    List String → List String → List (Kind × List Char) → List (Kind × List Char) → Prop where
  | nil : Echo [] [] [] []
  | token {ts ts' : List String} {ls ls' : List (Kind × List Char)} (l : Kind × List Char) :
      Echo ts ts' ls ls' → Echo ts ts' (l :: ls) (l :: ls')
  | text {ts ts' : List String} {ls ls' : List (Kind × List Char)} (t t' : String) :
      Echo ts ts' ls ls' →
        Echo (t :: ts) (t' :: ts') ((.string, (literal t).toList) :: ls)
          ((.string, (literal t').toList) :: ls')

theorem Echo.refl (ls : List (Kind × List Char)) : Echo [] [] ls ls := by
  induction ls with
  | nil => exact .nil
  | cons l ls ih => exact .token l ih

theorem Echo.append {us us' : List String} {ms ms' : List (Kind × List Char)}
    (h : Echo ts ts' ls ls') (h' : Echo us us' ms ms') :
    Echo (ts ++ us) (ts' ++ us') (ls ++ ms) (ls' ++ ms') := by
  induction h with
  | nil => exact h'
  | token l _ ih => exact .token l ih
  | text t t' _ ih => exact .text t t' ih

/-- The tokens of lines. -/
def lexemesOf (ls : List String) : List (Kind × List Char) :=
  ls.flatMap fun l => lexemes .body l.toList

@[simp] theorem lexemesOf_append (ls ms : List String) :
    lexemesOf (ls ++ ms) = lexemesOf ls ++ lexemesOf ms := List.flatMap_append

/-- The same lines before others that are alike. -/
theorem Echo.lines {ls ls' : List String} (before : List String)
    (h : Echo ts ts' (lexemesOf ls) (lexemesOf ls')) :
    Echo ts ts' (lexemesOf (before ++ ls)) (lexemesOf (before ++ ls')) := by
  rw [lexemesOf_append, lexemesOf_append]
  exact (Echo.refl _).append h

/-- Two attempts fail in the same way, or write lines whose tokens are alike. -/
inductive Echoes (ts ts' : List String) :
    Except Binary64.TruncateError (List String) → Except Binary64.TruncateError (List String) →
    Prop where
  | error (e : Binary64.TruncateError) : Echoes ts ts' (.error e) (.error e)
  | ok {ls ls' : List String} :
      Echo ts ts' (lexemesOf ls) (lexemesOf ls') → Echoes ts ts' (.ok ls) (.ok ls')

theorem Echoes.refl (e : Except Binary64.TruncateError (List String)) : Echoes [] [] e e := by
  cases e with
  | error e => exact .error e
  | ok ls => exact .ok (.refl _)

/-- Lines with the same ones before them and others that are alike after them. -/
theorem Echoes.around {us us' : List String} {e e' : Except Binary64.TruncateError (List String)}
    (h : Echoes ts ts' e e') (before : List String) {after after' : List String}
    (hafter : Echo us us' (lexemesOf after) (lexemesOf after')) :
    Echoes (ts ++ us) (ts' ++ us') (e.map fun ls => before ++ ls ++ after)
    (e'.map fun ls => before ++ ls ++ after') := by
  cases h with
  | error e => exact .error e
  | ok hlines =>
    refine .ok ?_
    simp only [lexemesOf_append]
    exact Echo.append ((Echo.refl _).append hlines) hafter

section

variable {α : Type} {R : α → α → Prop} {T : α → List String} {as as' : List α}

/-- Lists whose elements are alike, one by one. -/
theorem echo_flatMap {f : α → List String} (h : List.Forall₂ R as as')
    (hf : ∀ a a', a ∈ as → a' ∈ as' → R a a' →
      Echo (T a) (T a') (lexemesOf (f a)) (lexemesOf (f a'))) :
    Echo (as.flatMap T) (as'.flatMap T) (lexemesOf (as.flatMap f)) (lexemesOf (as'.flatMap f)) := by
  induction h with
  | nil => exact .nil
  | cons hR _ ih =>
    simp only [List.flatMap_cons, lexemesOf_append]
    refine (hf _ _ List.mem_cons_self List.mem_cons_self hR).append (ih fun b b' hb hb' => ?_)
    exact hf b b' (List.mem_cons_of_mem _ hb) (List.mem_cons_of_mem _ hb')

theorem echoes_mapM {f : α → Except Binary64.TruncateError (List String)}
    (h : List.Forall₂ R as as')
    (hf : ∀ a a', a ∈ as → a' ∈ as' → R a a' → Echoes (T a) (T a') (f a) (f a')) :
    Echoes (as.flatMap T) (as'.flatMap T) ((as.mapM f).map List.flatten)
    ((as'.mapM f).map List.flatten) := by
  induction h with
  | nil => exact .ok .nil
  | @cons a a' as as' hR _ ih =>
    have ih :=
      ih fun b b' hb hb' => hf b b' (List.mem_cons_of_mem _ hb) (List.mem_cons_of_mem _ hb')
    have hfirst := hf a a' List.mem_cons_self List.mem_cons_self hR
    rw [List.mapM_cons, List.mapM_cons]
    generalize f a = e, f a' = e' at hfirst
    cases hfirst with
    | error x => exact .error x
    | ok hlines =>
      generalize as.mapM f = r, as'.mapM f = r' at ih
      cases r with
      | error x =>
        cases r' with
        | error x' =>
          cases ih
          exact .error x
        | ok lss' => cases ih
      | ok lss =>
        cases r' with
        | error x' => cases ih
        | ok lss' =>
          cases ih with
          | ok hrest =>
            refine .ok ?_
            rw [List.flatMap_cons, List.flatMap_cons, List.flatten_cons, List.flatten_cons,
              lexemesOf_append, lexemesOf_append]
            exact hlines.append hrest

end

/-! ## Elements -/

/-- Elements of lists that are the same when something is taken out of them. -/
theorem forall₂_of_map_eq {α β : Type} {f : α → β} {as as' : List α} (h : as.map f = as'.map f) :
    List.Forall₂ (fun a a' => f a = f a') as as' := by
  have : List.Forall₂ Eq (as.map f) (as'.map f) := List.forall₂_eq_eq_eq ▸ h
  rwa [List.forall₂_map_left_iff, List.forall₂_map_right_iff] at this

theorem recaption_caption (i : Item) : (i.recaption "").recaption (i.caption?.getD "") = i := by
  cases i <;> rfl

theorem mem_texts_of_caption {i : Item} (h : i.caption? = some w) : w ∈ i.texts := by
  cases i <;> cases h <;> exact List.mem_cons_self

/-- Two calls with a text each among their arguments. -/
theorem echo_call {m : String} (hm : m ∈ methods) {as bs : List String} (has : ∀ a ∈ as, Clean a)
    (hbs : ∀ b ∈ bs, Clean b) {w w' : String} (hw : '\n' ∉ w.toList) (hw' : '\n' ∉ w'.toList) :
    Echo [w] [w'] (lexemesOf [call m (as ++ literal w :: bs)])
    (lexemesOf [call m (as ++ literal w' :: bs)]) := by
  have hopen := open_parts.1 m hm
  simp only [lexemesOf, List.flatMap_singleton]
  rw [lexemes_call_literal hopen has hbs hw, lexemes_call_literal hopen has hbs hw']
  exact (Echo.refl _).append (.text w w' (.refl _))

theorem echo_textLine (hw : '\n' ∉ w.toList) (hw' : '\n' ∉ w'.toList) (pos : Int) {style : String}
    (hstyle : Plain style) :
    Echo [w] [w'] (lexemesOf [textLine "b" pos w style])
    (lexemesOf [textLine "b" pos w' style]) := by
  have hquoted : Clean (quoted style) := by
    rw [← literal_of_plain hstyle]
    exact clean_literal (hstyle.not_mem newline_mem_outer)
  exact echo_call (m := "b.AddText") (by decide) (List.forall_mem_singleton.2 (clean_number pos))
    (List.forall_mem_singleton.2 hquoted) hw hw'

/-- An element and the same element with another text. -/
theorem echoes_recaption (i : Item) (hw : '\n' ∉ w.toList) (hw' : '\n' ∉ w'.toList)
    (barLength : Int) :
    Echoes (i.recaption w).caption?.toList (i.recaption w').caption?.toList
      (itemLines barLength (i.recaption w)) (itemLines barLength (i.recaption w')) := by
  cases i with
  | dynamic pos => exact .ok (echo_textLine hw hw' pos (by decide))
  | text pos _ style => exact .ok (echo_textLine hw hw' pos (plain_textStyle style))
  | rehearsal pos => exact .ok (echo_textLine hw hw' pos (by decide))
  | _ => exact .refl _

theorem echoes_itemLines {i i' : Item} (h : i.recaption "" = i'.recaption "")
    (hi : ∀ t ∈ i.texts, '\n' ∉ t.toList) (hi' : ∀ t ∈ i'.texts, '\n' ∉ t.toList)
    (barLength : Int) :
    Echoes i.caption?.toList i'.caption?.toList (itemLines barLength i)
    (itemLines barLength i') := by
  have hcaption {i : Item} (hi : ∀ t ∈ i.texts, '\n' ∉ t.toList) :
      '\n' ∉ (i.caption?.getD "").toList := by
    cases hw : i.caption? with
    | none => decide
    | some w => exact hi w (mem_texts_of_caption hw)
  have := echoes_recaption (i.recaption "") (hcaption hi) (hcaption hi') barLength
  rwa [recaption_caption, h, recaption_caption] at this

/-! ## Bars and staves -/

theorem barLines_eq (b : Bar) : barLines b = if b.sounds then
    ((b.items.mapM (itemLines b.length)).map List.flatten).map fun ls =>
      [call "b = st.NthBar" [toString b.n]] ++ ls ++ []
    else .ok [] := by
  rw [barLines]
  split
  · cases b.items.mapM (itemLines b.length) with
    | error e => rfl
    | ok lss => exact congrArg Except.ok (List.append_nil _).symm
  · rfl

theorem echoes_barLines {b b' : Bar} (h : b.withoutTexts = b'.withoutTexts)
    (hb : ∀ t ∈ b.texts, '\n' ∉ t.toList) (hb' : ∀ t ∈ b'.texts, '\n' ∉ t.toList) :
    Echoes b.carried b'.carried (barLines b) (barLines b') := by
  have hsounds : b.sounds = b'.sounds := by rw [← sounds_withoutTexts b, h, sounds_withoutTexts]
  have hn : b.n = b'.n := show b.withoutTexts.n = b'.withoutTexts.n by rw [h]
  have hlength : b.length = b'.length := show b.withoutTexts.length = b'.withoutTexts.length by
    rw [h]
  have hitems : b.items.map (Item.recaption "") = b'.items.map (Item.recaption "") :=
    show b.withoutTexts.items = b'.withoutTexts.items by rw [h]
  rw [barLines_eq, barLines_eq, Bar.carried, Bar.carried, hsounds, hn, hlength]
  split
  · have hlines :=
      echoes_mapM (f := itemLines b'.length) (forall₂_of_map_eq hitems) fun i i' hi hi' heq =>
      echoes_itemLines heq (fun t ht => hb t (List.mem_flatMap.2 ⟨i, hi, ht⟩))
        (fun t ht => hb' t (List.mem_flatMap.2 ⟨i', hi', ht⟩))
        b'.length
    simpa using hlines.around [call "b = st.NthBar" [toString b'.n]] (Echo.refl (lexemesOf []))
  · exact .refl _

theorem echo_syllableLines {y y' : Syllable} (h : y.withoutText = y'.withoutText)
    (hy : '\n' ∉ y.text.toList) (hy' : '\n' ∉ y'.text.toList) (voice : Int) :
    Echo (y.bar.map fun _ => y.text).toList (y'.bar.map fun _ => y'.text).toList
      (lexemesOf (syllableLines voice y)) (lexemesOf (syllableLines voice y')) := by
  obtain ⟨pos, text, bar, hyphen, melisma⟩ := y
  obtain ⟨pos', text', bar', hyphen', melisma'⟩ := y'
  simp only [Syllable.withoutText, Syllable.mk.injEq, true_and] at h
  obtain ⟨rfl, rfl, rfl, rfl⟩ := h
  cases bar with
  | none => exact .nil
  | some n =>
    have hhyphen : Clean (if hyphen then "1" else "0") := by
      split
      · exact clean_number 1
      · exact clean_number 0
    have hbefore : ∀ a ∈ [toString pos, "256"], Clean a := by
      simpa using ⟨clean_number pos, clean_number 256⟩
    have hafter : ∀ b ∈ [if hyphen then "1" else "0", "1", toString voice], Clean b := by
      simpa using ⟨hhyphen, clean_number 1, clean_number voice⟩
    have hlyric := echo_call (m := "b.AddLyric") (by decide) hbefore hafter hy hy'
    exact hlyric.lines [call "b = st.NthBar" [toString n]]

theorem echo_lyricsLines {l l' : Lyrics} (h : l.withoutTexts = l'.withoutTexts)
    (hl : ∀ y ∈ l.syllables, '\n' ∉ y.text.toList)
    (hl' : ∀ y ∈ l'.syllables, '\n' ∉ y.text.toList) :
    Echo l.carried l'.carried (lexemesOf (lyricsLines l)) (lexemesOf (lyricsLines l')) := by
  obtain ⟨voice, verse, syllables⟩ := l
  obtain ⟨voice', verse', syllables'⟩ := l'
  simp only [Lyrics.withoutTexts, Lyrics.mk.injEq] at h
  obtain ⟨rfl, rfl, hsyllables⟩ := h
  have hlines :=
    echo_flatMap (f := syllableLines voice) (T := fun y => (y.bar.map fun _ => y.text).toList)
    (forall₂_of_map_eq hsyllables) fun y y' hy hy' heq =>
      echo_syllableLines heq (hl y hy) (hl' y' hy') voice
  exact hlines.lines ["// Lyrics voice " ++ toString voice ++ " verse " ++ toString verse]

theorem staffLines_eq (total index : Nat) (s : Staff) : staffLines total index s =
    ((s.bars.mapM barLines).map List.flatten).map fun ls =>
      findingLines total index s ++ ls ++ (s.lyrics.flatMap lyricsLines ++ [""]) := by
  rw [staffLines]
  cases s.bars.mapM barLines with
  | error e => rfl
  | ok lss => exact congrArg Except.ok (List.append_assoc ..)

theorem echoes_staffLines {s s' : Staff} (h : s.withoutTexts = s'.withoutTexts)
    (hs : ∀ t ∈ s.texts, '\n' ∉ t.toList) (hs' : ∀ t ∈ s'.texts, '\n' ∉ t.toList)
    (total index : Nat) :
    Echoes s.carried s'.carried (staffLines total index s) (staffLines total index s') := by
  have hfinding : findingLines total index s = findingLines total index s' :=
    show findingLines total index s.withoutTexts = findingLines total index s'.withoutTexts by
      rw [h]
  have hbars : s.bars.map Bar.withoutTexts = s'.bars.map Bar.withoutTexts :=
    show s.withoutTexts.bars = s'.withoutTexts.bars by rw [h]
  have hlyrics : s.lyrics.map Lyrics.withoutTexts = s'.lyrics.map Lyrics.withoutTexts :=
    show s.withoutTexts.lyrics = s'.withoutTexts.lyrics by rw [h]
  have htexts {s : Staff} (hs : ∀ t ∈ s.texts, '\n' ∉ t.toList) :
      (∀ b ∈ s.bars, ∀ t ∈ b.texts, '\n' ∉ t.toList) ∧ ∀ l ∈ s.lyrics, ∀ y ∈ l.syllables,
        '\n' ∉ y.text.toList := by
    simp only [Staff.texts, List.mem_append, List.mem_flatMap, List.mem_map] at hs
    exact ⟨fun b hb t ht => hs t (.inl (.inr ⟨b, hb, ht⟩)),
      fun l hl y hy => hs y.text (.inr ⟨l, hl, y, hy, rfl⟩)⟩
  obtain ⟨hsbars, hslyrics⟩ := htexts hs
  obtain ⟨hsbars', hslyrics'⟩ := htexts hs'
  have hbarLines := echoes_mapM (f := barLines) (forall₂_of_map_eq hbars) fun b b' hb hb' heq =>
    echoes_barLines heq (hsbars b hb) (hsbars' b' hb')
  have hlyricsLines :=
    echo_flatMap (f := lyricsLines) (forall₂_of_map_eq hlyrics) fun l l' hl hl' heq =>
    echo_lyricsLines heq (hslyrics l hl) (hslyrics' l' hl')
  rw [staffLines_eq, staffLines_eq, hfinding]
  refine hbarLines.around _ ?_
  simp only [lexemesOf_append]
  simpa using hlyricsLines.append (Echo.refl (lexemesOf [""]))

/-! ## The code -/

theorem code_eq (s : Score) : code s =
    ((s.staves.zipIdx.mapM fun p =>
      staffLines s.staves.length p.2 p.1).map List.flatten).map fun ls =>
      preparation s ++ ls ++ conclusion s := by
  rw [code]
  cases s.staves.zipIdx.mapM fun p => staffLines s.staves.length p.2 p.1 <;> rfl

/-- The codes of two scores that differ in their texts. -/
theorem echoes_code {s s' : Score} (h : s.withoutTexts = s'.withoutTexts)
    (hs : ∀ t ∈ s.texts, '\n' ∉ t.toList) (hs' : ∀ t ∈ s'.texts, '\n' ∉ t.toList) :
    Echoes s.carried s'.carried (code s) (code s') := by
  have hpreparation : preparation s = preparation s' := by
    rw [← preparation_withoutTexts, h, preparation_withoutTexts]
  have hconclusion : conclusion s = conclusion s' := by
    rw [← conclusion_withoutTexts, h, conclusion_withoutTexts]
  have hstaves : s.staves.map Staff.withoutTexts = s'.staves.map Staff.withoutTexts :=
    show s.withoutTexts.staves = s'.withoutTexts.staves by rw [h]
  have hlength : s.staves.length = s'.staves.length := by simpa using congrArg List.length hstaves
  have hindexed : s.staves.zipIdx.map (Prod.map Staff.withoutTexts id) =
      s'.staves.zipIdx.map (Prod.map Staff.withoutTexts id) := by
    rw [← List.zipIdx_map, hstaves, List.zipIdx_map]
  have htexts {s : Score} (hs : ∀ t ∈ s.texts, '\n' ∉ t.toList) {p : Staff × Nat}
      (hp : p ∈ s.staves.zipIdx) :
      ∀ t ∈ p.1.texts, '\n' ∉ t.toList := fun t ht =>
    hs t (List.mem_append_left _ (List.mem_flatMap.2 ⟨p.1, List.fst_mem_of_mem_zipIdx hp, ht⟩))
  have hlines :=
    echoes_mapM (f := fun p : Staff × Nat => staffLines s'.staves.length p.2 p.1)
      (T := fun p => p.1.carried)
    (forall₂_of_map_eq hindexed) fun p p' hp hp' heq => by
      obtain ⟨hstaff, hindex⟩ := Prod.mk.inj heq
      rw [show p.2 = p'.2 from hindex]
      exact echoes_staffLines hstaff (htexts hs hp) (htexts hs' hp') _ _
  have hcarried (s : Score) : (s.staves.zipIdx.flatMap fun p => p.1.carried) = s.carried := by
    rw [Score.carried, ← List.flatMap_map, List.zipIdx_map_fst]
  rw [hcarried, hcarried] at hlines
  rw [code_eq, code_eq, hpreparation, hconclusion, hlength]
  simpa using hlines.around (preparation s') (Echo.refl (lexemesOf (conclusion s')))

/-! ## Strings and the texts they stand for -/

/-- Each pair of a backslash and another character replaced by the second one. -/
def unescaped : List Char → List Char
  | [] => []
  | '\\' :: c :: r => c :: unescaped r
  | c :: r => c :: unescaped r

/-- What a string stands for: its text without the quotes around it and with the pairs replaced. -/
def unquoted (s : String) : String := String.ofList (unescaped s.toList.tail.dropLast)

theorem unescaped_cons {c : Char} (hc : c ≠ '\\') (r : List Char) :
    unescaped (c :: r) = c :: unescaped r := by
  rw [unescaped]
  exact fun _ _ h _ => hc h

theorem unescaped_flatMap_escapeChar (cs : List Char) : unescaped (cs.flatMap escapeChar) = cs := by
  induction cs with
  | nil => rfl
  | cons c cs ih =>
    rw [List.flatMap_cons, escapeChar]
    split
    · exact congrArg (c :: ·) ih
    · next hplain =>
      simp only [Bool.or_eq_true, beq_iff_eq, not_or] at hplain
      rw [List.singleton_append, unescaped_cons hplain.1, ih]

@[simp] theorem unquoted_literal (t : String) : unquoted (literal t) = t := by
  have hinside : (literal t).toList.tail.dropLast = t.toList.flatMap escapeChar := by
    simp [literal, quoted, escape]
  rw [unquoted, hinside, unescaped_flatMap_escapeChar, String.ofList_toList]

/-! ## Codes of the same structure -/

/-- Two lexed codes have the same structure, with the texts `ts` and `ts'` in the same places: there
is nothing wrong with their characters, their tokens are of the same kinds, and at some places, in
order, there are strings that stand for these texts; tokens at all other places have the same
text. -/
structure Parallel (ts ts' : List String) (l l' : Lexed) : Prop where
  issues : l.issues = [] ∧ l'.issues = []
  kinds : l.all.map Token.kind = l'.all.map Token.kind
  carriers : ∃ places : List Nat, places.Pairwise (· < ·) ∧
    (∀ i ∉ places, l.all[i]?.map Token.text = l'.all[i]?.map Token.text) ∧
    (places.map fun i => l.all[i]?.map fun t => (t.kind, unquoted t.text)) =
      ts.map (fun t => some (.string, t)) ∧
    (places.map fun i => l'.all[i]?.map fun t => (t.kind, unquoted t.text)) = ts'.map fun t =>
      some (.string, t)

theorem Echo.kinds (h : Echo ts ts' ls ls') : ls.map Prod.fst = ls'.map Prod.fst := by
  induction h with
  | nil => rfl
  | token l _ ih => exact congrArg (l.1 :: ·) ih
  | text t t' _ ih => exact congrArg (Kind.string :: ·) ih

/-- Where the texts are. -/
theorem Echo.exists_places (h : Echo ts ts' ls ls') :
    ∃ places : List Nat, places.Pairwise (· < ·) ∧ (∀ i ∉ places, ls[i]? = ls'[i]?) ∧
      (places.map fun i => ls[i]?) = ts.map (fun t => some (.string, (literal t).toList)) ∧
      (places.map fun i => ls'[i]?) = ts'.map fun t => some (.string, (literal t).toList) := by
  have hsucc {places : List Nat} (h : places.Pairwise (· < ·)) :
      (places.map (· + 1)).Pairwise (· < ·) :=
    h.map _ fun _ _ => Nat.succ_lt_succ
  induction h with
  | nil => exact ⟨[], .nil, fun _ _ => rfl, rfl, rfl⟩
  | token l _ ih =>
    obtain ⟨places, hsorted, hsame, hts, hts'⟩ := ih
    refine ⟨places.map (· + 1), hsucc hsorted, fun i hi =>
      ?_, by simpa [Function.comp_def] using hts, by simpa [Function.comp_def] using hts'⟩
    cases i with
    | zero => rfl
    | succ i => exact hsame i fun h => hi (List.mem_map_of_mem h)
  | text t t' _ ih =>
    obtain ⟨places, hsorted, hsame, hts, hts'⟩ := ih
    refine ⟨0 :: places.map (· + 1), List.pairwise_cons.2 ⟨by simp, hsucc hsorted⟩, fun i hi => ?_,
      by simpa [Function.comp_def] using hts, by simpa [Function.comp_def] using hts'⟩
    cases i with
    | zero => simp at hi
    | succ i => exact hsame i fun h => hi (List.mem_cons_of_mem _ (List.mem_map_of_mem h))

/-- What is said of a token without its place, said of its kind and text. -/
theorem map_getElem?_lexeme {α : Type} (f : Kind × List Char → α) (ts : List Token) (i : Nat) :
    (ts[i]?.map fun t => f t.lexeme) = (ts.map Token.lexeme)[i]?.map f := by
  rw [List.getElem?_map, Option.map_map]
  rfl

theorem map_unquoted_places {tokens : List Token} {places : List Nat}
    (h : (places.map fun i => (tokens.map Token.lexeme)[i]?) = ts.map fun t =>
      some (.string, (literal t).toList)) :
    (places.map fun i => tokens[i]?.map fun t => (t.kind, unquoted t.text)) = ts.map fun t =>
      some (.string, t) := by
  have hplaces :=
    congrArg (List.map (Option.map fun l : Kind × List Char => (l.1, unquoted (String.ofList l.2))))
      h
  simp only [List.map_map, Function.comp_def, ← map_getElem?_lexeme, Token.lexeme, Option.map_some,
    String.ofList_toList, unquoted_literal] at hplaces
  exact hplaces

/-- Texts whose tokens are alike are lexed into codes of the same structure. -/
theorem Echo.parallel {cs cs' : List Char} (h : Echo ts ts' (lexemes .body cs) (lexemes .body cs'))
    (hok : Faultless .body cs) (hok' : Faultless .body cs') (p : Position) :
    Parallel ts ts' (lex .body p cs) (lex .body p cs') := by
  have hall :
      Echo ts ts' ((lex .body p cs).all.map Token.lexeme)
        ((lex .body p cs').all.map Token.lexeme) := by
    rw [map_lexeme_all, map_lexeme_all]
    simpa using h.append (Echo.refl [(Kind.fin, [])])
  obtain ⟨places, hsorted, hsame, hts, hts'⟩ := hall.exists_places
  refine ⟨⟨issues_eq_nil_iff.2 hok, issues_eq_nil_iff.2 hok'⟩, ?_, places, hsorted, fun i hi => ?_,
    map_unquoted_places hts, map_unquoted_places hts'⟩
  · simpa [Token.lexeme, Function.comp_def] using hall.kinds
  · have htext := congrArg (Option.map fun l : Kind × List Char => String.ofList l.2) (hsame i hi)
    simpa only [← map_getElem?_lexeme, Token.lexeme, String.ofList_toList] using htext

/-- The code of a passage has the tokens of its lines and no faults. -/
theorem Passage.lexemes_body {xs : List Binary64} {ls : List String} (h : Passage ts xs ls)
    (ht : ∀ t ∈ ts, '\n' ∉ t.toList) :
    Faultless .body (body ls) ∧ lexemes .body (body ls) = lexemesOf ls := by
  have hlines : ∀ l ∈ (ls ++ [""]).map String.toList, Faultless .body l := by
    rw [List.forall_mem_map]
    exact (h.append .blank).faultless ht
  obtain ⟨hok, hlex⟩ := lexemes_unlines hlines
  rw [← body_eq_unlines] at hok hlex
  refine ⟨hok, hlex.trans ?_⟩
  simp [lexemesOf, List.flatMap_map]

/-- **Texts do not change the structure of the code.** Let two scores differ in nothing but the
texts of dynamics, texts, rehearsal marks and syllables, and let no text have a line feed. If all
notes stand at finite offsets, both plugins are written, and what stands in them between the line
that opens the method `Run` and the brace that closes it has the same structure, with the texts of
each score in the same places; otherwise neither is written. -/
theorem parallel_source {s s' : Score} (h : s.withoutTexts = s'.withoutTexts)
    (hs : ∀ t ∈ s.texts, '\n' ∉ t.toList) (hs' : ∀ t ∈ s'.texts, '\n' ∉ t.toList) :
    (s.isPlaced = true → ∃ run run', source s = .ok (String.ofList (heading ++ (run ++ footing))) ∧
      source s' = .ok (String.ofList (heading ++ (run' ++ footing))) ∧
      ∀ p, Parallel s.carried s'.carried (lexBody p (String.ofList run))
      (lexBody p (String.ofList run'))) ∧
    (s.isPlaced = false → ∃ e, source s = .error e ∧ source s' = .error e) := by
  have hechoes := echoes_code h hs hs'
  constructor
  · intro hplaced
    obtain ⟨ls, hls, hpassage⟩ := writes_code hplaced
    rw [hls] at hechoes
    generalize hcode : code s' = e at hechoes
    cases hechoes with
    | @ok _ ls' hecho =>
      obtain ⟨ms, hms, hpassage'⟩ := writes_code (isPlaced_of_code hcode)
      obtain rfl : ls' = ms := Except.ok.inj (hcode.symm.trans hms)
      obtain ⟨hok, hlex⟩ := hpassage.lexemes_body hs
      obtain ⟨hok', hlex'⟩ := hpassage'.lexemes_body hs'
      rw [← hlex, ← hlex'] at hecho
      refine ⟨body ls, body ls', source_eq hls, source_eq hcode, fun p => ?_⟩
      simpa only [lexBody, String.toList_ofList] using hecho.parallel hok hok' p
  · intro hplaced
    generalize hcode : code s = e, hcode' : code s' = e' at hechoes
    cases hechoes with
    | error x => exact ⟨x, by rw [source, lines, hcode]; rfl, by rw [source, lines, hcode']; rfl⟩
    | ok =>
      rw [isPlaced_of_code hcode] at hplaced
      cases hplaced

/-- The same score with texts that look like code. -/
def parody : Score :=
  { chanson with
    staves := chanson.staves.map fun t =>
      { t with
        bars := t.bars.map fun b =>
          { b with items := b.items.map (Item.recaption "'); Sibelius.Close(); // \\") }
        lyrics :=
          t.lyrics.map fun l =>
            { l with syllables := l.syllables.map fun y => { y with text := "\x7d\"\\'" } } } }

theorem parallel_source_parody :
    chanson.withoutTexts = parody.withoutTexts ∧ (∀ t ∈ chanson.texts, '\n' ∉ t.toList) ∧
      (∀ t ∈ parody.texts, '\n' ∉ t.toList) ∧ chanson.isPlaced = true ∧
        chanson.carried = ["C:\\ 'forte'", "l'eau"] ∧
      parody.carried = ["'); Sibelius.Close(); // \\", "\x7d\"\\'"] ∧
      ∃ run run', source chanson = .ok (String.ofList (heading ++ (run ++ footing))) ∧
        source parody = .ok (String.ofList (heading ++ (run' ++ footing))) ∧
        ∀ p, Parallel chanson.carried parody.carried (lexBody p (String.ofList run))
        (lexBody p (String.ofList run')) := by
  have hsame : chanson.withoutTexts = parody.withoutTexts := by decide
  have hchanson : ∀ t ∈ chanson.texts, '\n' ∉ t.toList := by decide
  have hparody : ∀ t ∈ parody.texts, '\n' ∉ t.toList := by decide
  have hplaced : chanson.isPlaced = true := by decide
  exact ⟨hsame, hchanson, hparody, hplaced, by decide, by decide,
    (parallel_source hsame hchanson hparody).1 hplaced⟩

end Partitura.Score.ImportPlugin
