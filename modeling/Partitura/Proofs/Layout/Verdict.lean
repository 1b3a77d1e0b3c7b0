import Mathlib
import Partitura.Proofs.Layout.Meaning
import Partitura.Proofs.ManuScript.Places

/-!
# The layout keeps the verdict on code

Code that is laid out gets the same complaints as before, at other places. It is read as the same
tokens but for blanks at the ends of comments, and no character of it is passed over, since the
layout writes nothing but tokens and white space (`faultless_laid`). The places of the tokens of a
text are all different, before and after, and then what is said about the tokens does not depend on
their places (`checkTokens_elsewhere`).
-/

namespace Partitura.ManuScript

open Lexer

/-! ## Characters that are no white space -/

/-- The number of characters that are no white space between tokens. -/
def solid (cs : List Char) : Nat := cs.countP (!isGap ·)

@[simp] theorem solid_nil : solid [] = 0 := rfl

@[simp] theorem solid_append (a b : List Char) : solid (a ++ b) = solid a + solid b :=
  List.countP_append

theorem solid_eq_zero {g : List Char} (h : ∀ c ∈ g, isGap c = true) : solid g = 0 :=
  List.countP_eq_zero.2 fun c hc => by simp [h c hc]

/-- The characters of a text are those of its tokens, white space, and those that are passed
over. -/
theorem solid_eq (d : Dialect) (cs : List Char) :
    solid cs = ((lexemes d cs).map (solid ·.2)).sum + (strays d cs).length := by
  fun_induction pieces d cs with
  | case1 => simp [strays, pieces]
  | case2 c r ih =>
    have htext := append_drop_of_isPrefix (text_front_isPrefix d c r)
    have hsplit :
        solid (c :: r) =
          solid (front d c r).text + solid ((c :: r).drop (front d c r).text.length) := by
      rw [← solid_append, htext]
    rw [hsplit, ih]
    simp only [lexemes, strays, pieces_cons d c r]
    cases hf : front d c r with
    | gap x =>
      obtain ⟨rfl, hgap⟩ := first_of_front_gap hf
      have hx : solid [x] = 0 := solid_eq_zero (by simpa using hgap)
      rw [List.filterMap_cons_none rfl, List.filterMap_cons_none rfl, Piece.text, hx, Nat.zero_add]
    | token k x v =>
      rw [List.filterMap_cons_some (show lexeme? (.token k x v) = some (k, x :: v) from rfl),
        List.filterMap_cons_none rfl, Piece.text, List.map_cons, List.sum_cons, Nat.add_assoc]
    | stray x =>
      have hx : solid [x] = 1 := by simp [solid, not_isGap_of_stray hf]
      rw [List.filterMap_cons_none rfl,
        List.filterMap_cons_some (show stray? (.stray x) = some x from rfl), Piece.text, hx]
      simp only [List.length_cons]
      omega

example : solid "x @ 12".toList = 4 ∧
    lexemes .body "x @ 12".toList = [(.identifier, ['x']), (.number, ['1', '2'])] ∧
    strays .body "x @ 12".toList = ['@'] := by decide +kernel

theorem faultless_of_strays {cs : List Char} (hstrays : strays .body cs = [])
    (hkinds : ∀ l ∈ lexemes .body cs, l.1 ≠ .invalid) : Faultless .body cs := by
  intro q hq
  cases q with
  | gap c => rfl
  | stray c => cases (List.filterMap_eq_nil_iff.1 hstrays _ hq)
  | token k c r =>
    have hmem : (k, c :: r) ∈ lexemes .body cs := List.mem_filterMap.2 ⟨_, hq, rfl⟩
    simpa [isFaulty] using hkinds _ hmem

end Partitura.ManuScript

namespace Partitura.Layout

open ManuScript ManuScript.Lexer Text

theorem solid_spaces {g : List Char} (h : ∀ c ∈ g, c = ' ') : solid g = 0 :=
  solid_eq_zero fun c hc => by rw [h c hc]; rfl

theorem solid_before_le (m : Manner) (w : List Char) : solid (before m w) ≤ solid w := by
  have hsp : solid (w ++ [' ']) ≤ solid w := by rw [solid_append]; exact Nat.le_refl _
  cases m with
  | opensBlock | operator => exact hsp
  | closesBlock | endsStatement | separator | opener => exact Nat.le_refl _
  | remark | headword | word =>
    rw [before, spacedText]
    split
    · exact Nat.le_refl _
    · exact hsp
  | closer =>
    rw [before, tightText]
    split
    · obtain ⟨b, -, hw⟩ := exists_trimRight_append_allBlank w
      conv_rhs => rw [hw, solid_append]
      exact Nat.le_add_right _ _
    · exact Nat.le_refl _

theorem solid_joined_le (m : Manner) (w t : List Char) :
    solid (joined m w t) ≤ solid w + solid t := by
  have hbefore := solid_before_le m w
  rw [joined, solid_append, solid_append, solid_spaces fun _ => mem_after]
  omega

theorem solid_makeLine_le (w : List Char) (level : Int) : solid (makeLine [w] level) ≤ solid w := by
  rw [makeLine, List.flatten_singleton]
  split
  · exact Nat.zero_le _
  · obtain ⟨a, b, -, -, hw⟩ := exists_trim w
    rw [solid_append, solid_spaces fun _ => mem_indentationOf]
    conv_rhs => rw [hw, solid_append, solid_append]
    omega

theorem solid_rowText_le (row : List (Kind × List Char)) :
    solid (rowText row) ≤ (row.map (solid ·.2)).sum := by
  induction row using List.reverseRecOn with
  | nil => exact Nat.le_refl _
  | append_singleton init l ih =>
    have hjoined := solid_joined_le (manner l.1) (rowText init) l.2
    rw [rowText_concat, List.map_append, List.sum_append, List.map_singleton, List.sum_singleton]
    omega

/-- The layout writes no characters but those of the lexemes and white space. -/
theorem Rows.solid_le {level : Int} {ls : List (Kind × List Char)} {lines : List (List Char)}
    (h : Rows level ls lines) : (lines.map solid).sum ≤ (ls.map (solid ·.2)).sum := by
  induction h with
  | nil => exact Nat.le_refl _
  | @cons level row ls lines _ _ _ ih =>
    have hline := solid_makeLine_le (rowText row) (levelAt row level)
    have hrow := solid_rowText_le row
    rw [List.map_cons, List.sum_cons, List.map_append, List.sum_append]
    omega

theorem solid_unlines (ls : List (List Char)) : solid (unlines ls) = (ls.map solid).sum := by
  induction ls with
  | nil => rfl
  | cons l r ih =>
    by_cases hr : r = []
    · simp [hr]
    · rw [unlines_cons hr, show ∀ x : List Char, '\n' :: x = ['\n'] ++ x from fun _ => rfl,
        solid_append, solid_append, ih, show solid ['\n'] = 0 from rfl, Nat.zero_add,
        List.map_cons, List.sum_cons]

/-! ## The verdict -/

/-- Code without faults has none when it is laid out, and is read as the same tokens but for the
ends of comments. -/
theorem faultless_laid {inner : List Char} (hok : Faultless .body inner)
    (hnum : NumbersApart (lexemes .body inner)) (level : Int) :
    Faultless .body (unlines (statements level inner)) ∧
      lexemes .body (unlines (statements level inner)) = (lexemes .body inner).map neat := by
  have hkinds := ne_invalid_of_mem_lexemes hok
  have hlex :
      lexemes .body (unlines (statements level inner)) = (lexemes .body inner).map neat := by
    have hread := lexemes_statements hkinds level []
    rwa [List.append_nil, unlines_nil, lexemes_nil, List.append_nil,
      fused_of_numbersClear (numbersApart_map_neat.2 hnum).clear] at hread
  refine ⟨faultless_of_strays ?_ ?_, hlex⟩
  · -- all that the layout writes is read as tokens again
    have hspelled : ∀ l ∈ lexemes .body inner, Spelled l.1 l.2 :=
      fun l hl => spelled_of_mem_lexemes hl (hkinds l hl)
    have hneat : ∀ l ∈ (lexemes .body inner).map neat, l.2 ≠ [] :=
      List.forall_mem_map.2 fun l hl => (spelled_neat (hspelled l hl)).ne_nil
    have hwritten := (rows_textLines hneat level).solid_le
    rw [textLines_neat hspelled, ← statements_eq, ← solid_unlines, solid_eq .body, hlex] at hwritten
    exact List.eq_nil_of_length_eq_zero (by omega)
  · rw [hlex]
    intro l hl
    obtain ⟨l', hl', rfl⟩ := List.mem_map.1 hl
    rw [neat_fst]
    exact hkinds l' hl'

/-- Only comments are trimmed. -/
theorem neat_eq_or (l : Kind × List Char) :
    neat l = l ∨ l.1 = .comment ∧ (neat l).1 = .comment := by
  by_cases hc : l.1 = .comment
  · exact .inr ⟨hc, (neat_fst l).trans hc⟩
  · exact .inl (neat_of_ne_comment hc)

/-- **Formatting never changes what is said about code.** If the characters of the code have no
faults and no number stands directly before a point or a number, then the code laid out at any level
gets the same complaints in the same order, with the same codes and the same words. -/
theorem checkBody_statements {p : Position} {inner : List Char}
    (hissues : (lex .body p inner).issues = [])
    (hnum : NumbersApart ((lex .body p inner).tokens.map Token.lexeme)) (env : Surroundings)
    (q : Position) (level : Int) :
    (checkBody env q (String.ofList (unlines (statements level inner)))).map
      (fun d => (d.code, d.message)) =
      (checkBody env p (String.ofList inner)).map (fun d => (d.code, d.message)) := by
  have hok := issues_eq_nil_iff.1 hissues
  rw [map_lexeme_tokens] at hnum
  obtain ⟨hok', hlex⟩ := faultless_laid hok hnum level
  rw [checkBody, checkBody, lexBody, lexBody, String.toList_ofList, String.toList_ofList]
  generalize unlines (statements level inner) = text at hok' hlex
  simp only [hissues, issues_eq_nil_iff.2 hok', List.nil_append]
  have htokens :
      (lex .body q text).tokens.map Token.lexeme =
        ((lex .body p inner).tokens.map Token.lexeme).map neat := by
    rw [map_lexeme_tokens, map_lexeme_tokens, hlex]
  exact checkTokens_elsewhere (map_moved_of_lexemes ⟨1, 1⟩ neat_eq_or htokens)
    (nodup_places .body q text) (nodup_places .body p inner) env

/-- Code with a comment that loses a blank, and with six complaints. -/
def carelessCode : List Char := "x=f( 1,y ) ;// call \nif(0)\x7breturn x/0;; \x7d".toList

theorem checkBody_statements_careless : (lex .body ⟨1, 1⟩ carelessCode).issues = [] ∧
    NumbersApart ((lex .body ⟨1, 1⟩ carelessCode).tokens.map Token.lexeme) ∧
    (checkBody ⟨⟨[], [], []⟩, [], []⟩ ⟨1, 1⟩ (String.ofList carelessCode)).map Diagnostic.code =
      ["MS-W020", "MS-W022", "MS-W028", "MS-W031", "MS-W026", "MS-W030"] ∧
    (checkBody ⟨⟨[], [], []⟩, [], []⟩ ⟨4, 9⟩
      (String.ofList (unlines (statements 2 carelessCode)))).map
        (fun d => (d.code, d.message)) =
      (checkBody ⟨⟨[], [], []⟩, [], []⟩ ⟨1, 1⟩ (String.ofList carelessCode)).map
        (fun d => (d.code, d.message)) := by
  have hissues : (lex .body ⟨1, 1⟩ carelessCode).issues = [] := by decide +kernel
  have hnum : NumbersApart ((lex .body ⟨1, 1⟩ carelessCode).tokens.map Token.lexeme) := by
    decide +kernel
  exact ⟨hissues, hnum, by decide +kernel, checkBody_statements hissues hnum _ ⟨4, 9⟩ 2⟩

end Partitura.Layout
