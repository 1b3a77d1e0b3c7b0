import Partitura.Layout.Statements
import Partitura.Proofs.ManuScript.Lexemes

/-!
# Laying out by lines of text

`linesOf` keeps the line that it is writing as a list of parts. For what follows the parts do not
matter, only the text that they make: `textLines` lays out the same lines from kinds and spellings
alone, and keeps the open line as one text (`linesOf_eq_textLines`). A token is put behind the open
line by `joined`: what stands before it, its spelling, and the blank after it.
-/

namespace Partitura.Layout

open ManuScript ManuScript.Lexer Text

variable {c : Char} {parts : List (List Char)}

/-- A line with a blank put after it where one is needed. -/
def spacedText (w : List Char) : List Char := if w.getLast?.all joinsNext then w else w ++ [' ']

/-- A line without the blank at its end. -/
def tightText (w : List Char) : List Char := if w.getLast? == some ' ' then trimRight w else w

/-- The open line when a token of that manner is about to be written. -/
def before (m : Manner) (w : List Char) : List Char :=
  match m with
  | .opensBlock | .operator => w ++ [' ']
  | .closesBlock | .endsStatement | .separator | .opener => w
  | .remark | .headword | .word => spacedText w
  | .closer => tightText w

/-- What is written after a token of that manner. -/
def after (m : Manner) : List Char :=
  match m with
  | .headword | .operator | .separator => [' ']
  | _ => []

/-- The open line with a token behind it. -/
def joined (m : Manner) (w text : List Char) : List Char := before m w ++ text ++ after m

/-- Whether a token of that manner ends its line. -/
def breaks (m : Manner) : Bool :=
  match m with
  | .opensBlock | .endsStatement | .remark => true
  | _ => false

/-- The level after a token of that manner. -/
def levelAfter (m : Manner) (level : Int) : Int :=
  match m with
  | .opensBlock => level + 1
  | .closesBlock => level - 1
  | _ => level

/-- The open line, ended; none if nothing was written. -/
def flushText (level : Int) (w : List Char) : List (List Char) :=
  if w.isEmpty then [] else [makeLine [w] level]

/-- The lines of some lexemes, at that level of indentation, after the open line `w`. -/
def textLines (level : Int) (w : List Char) : List (Kind × List Char) → List (List Char)
  | [] => flushText level w
  | (k, text) :: r =>
    let m := manner k
    let next := levelAfter m level
    if m = .closesBlock then
      flushText level w ++
        (if r.head?.any (·.1 = .kwElse) then textLines next text r
          else makeLine [text] next :: textLines next [] r)
    else if breaks m then flushText level (joined m w text) ++ textLines next [] r
    else textLines next (joined m w text) r

/-! ## Blanks that the layout writes -/

theorem allBlank_of_spaces {g : List Char} (h : ∀ c ∈ g, c = ' ') : AllBlank g :=
  fun c hc => by rw [h c hc]; decide

theorem mem_indentationOf {level : Int} (h : c ∈ indentationOf level) : c = ' ' := by
  obtain ⟨i, hi, hc⟩ := List.mem_flatten.1 h
  rw [List.eq_of_mem_replicate hi] at hc
  simpa [indentation] using hc

theorem mem_after {m : Manner} (h : c ∈ after m) : c = ' ' := by
  cases m <;> simp_all [after]

theorem after_eq (m : Manner) : after m = [] ∨ after m = [' '] := by cases m <;> simp [after]

/-! ## Spellings as `linesOf` writes them -/

/-- A lexeme with a spelling that is not blank, and with the fixed spelling of its kind where the
layout writes one. -/
structure Proper (l : Kind × List Char) : Prop where
  ink : ¬ AllBlank l.2
  lbrace : l.1 = .lbrace → l.2 = ['\x7b']
  rbrace : l.1 = .rbrace → l.2 = ['\x7d']
  semicolon : l.1 = .semicolon → l.2 = [';']
  comma : l.1 = .comma → l.2 = [',']

theorem not_allBlank_cons (h : isBlank c = false) (r : List Char) : ¬ AllBlank (c :: r) := by
  intro hb
  rw [allBlank_cons, h] at hb
  exact Bool.noConfusion hb.1

theorem proper_of_spelled {k : Kind} {w : List Char} (h : Spelled k w) : Proper (k, w) where
  ink := by
    cases w with
    | nil => exact absurd rfl h.ne_nil
    | cons c r => exact not_allBlank_cons h.head r
  lbrace hk := h.eq_of_mark? (by rw [show k = .lbrace from hk]; rfl)
  rbrace hk := h.eq_of_mark? (by rw [show k = .rbrace from hk]; rfl)
  semicolon hk := h.eq_of_mark? (by rw [show k = .semicolon from hk]; rfl)
  comma hk := h.eq_of_mark? (by rw [show k = .comma from hk]; rfl)

theorem proper_of_mem_lexemes {cs : List Char} {l : Kind × List Char} (h : l ∈ lexemes .body cs) :
    Proper l := by
  obtain ⟨k, w⟩ := l
  obtain ⟨c, r, v, rfl, hf⟩ := exists_front_of_mem_lexemes h
  rcases spelled_or_unclosed hf with hs | ⟨rfl, hq⟩
  · exact proper_of_spelled hs
  · have hc : isBlank c = false := by rcases hq with rfl | rfl <;> decide
    exact ⟨not_allBlank_cons hc v, nofun, nofun, nofun, nofun⟩

/-! ## Parts and texts -/

/-- Parts of a line, the last one first, of which none is empty and the last one is not blank. -/
def PartsOk (parts : List (List Char)) : Prop :=
  (∀ p ∈ parts, p ≠ []) ∧ ∀ p ∈ parts.head?, ¬ AllBlank p

theorem partsOk_nil : PartsOk [] := by simp [PartsOk]

theorem partsOk_cons {p : List Char} {ps : List (List Char)} (hp : ¬ AllBlank p)
    (h : ∀ q ∈ ps, q ≠ []) : PartsOk (p :: ps) := by
  refine ⟨?_, by simpa using hp⟩
  intro q hq
  rcases List.mem_cons.1 hq with rfl | hq
  · rintro rfl
    exact hp allBlank_nil
  · exact h q hq

/-- The text of the parts of a line, the last one first. -/
def partsText (parts : List (List Char)) : List Char := parts.reverse.flatten

@[simp] theorem partsText_nil : partsText [] = [] := rfl

@[simp] theorem partsText_cons (p : List Char) (ps : List (List Char)) :
    partsText (p :: ps) = partsText ps ++ p := by
  simp [partsText]

theorem getLast?_partsText (h : PartsOk parts) :
    (partsText parts).getLast? = parts.head?.bind List.getLast? := by
  cases parts with
  | nil => rfl
  | cons p ps =>
    rw [partsText_cons, List.getLast?_append_of_ne_nil _ (h.1 p (by simp)), List.head?_cons,
      Option.bind_some]

theorem partsText_spaced (h : PartsOk parts) :
    partsText (spaced parts) = spacedText (partsText parts) ∧ ∀ q ∈ spaced parts, q ≠ [] := by
  rw [spacedText, getLast?_partsText h]
  cases parts with
  | nil => exact ⟨rfl, by simp [spaced]⟩
  | cons p ps =>
    have hp := h.1 p (by simp)
    obtain ⟨c, hc⟩ : ∃ c, p.getLast? = some c := ⟨_, List.getLast?_eq_some_getLast hp⟩
    rw [spaced, List.head?_cons, Option.bind_some, hc, Option.any_some, Option.all_some]
    split
    · exact ⟨rfl, h.1⟩
    · refine ⟨by simp, fun q hq => ?_⟩
      rcases List.mem_cons.1 hq with rfl | hq
      · simp
      · exact h.1 q hq

theorem partsText_tightened (h : PartsOk parts) :
    partsText (tightened parts) = tightText (partsText parts) ∧ ∀ q ∈ tightened parts, q ≠ [] := by
  rw [tightText, getLast?_partsText h]
  cases parts with
  | nil => exact ⟨rfl, by simp [tightened]⟩
  | cons p ps =>
    have hp : ¬ AllBlank p := h.2 p rfl
    have hne : trimRight p ≠ [] := by
      intro hc
      exact hp (trim_eq_nil_iff.1 (by rw [← trim_trimRight, hc]; rfl))
    rw [tightened, List.head?_cons, Option.bind_some]
    by_cases hsp : (p.getLast? == some ' ') = true
    · rw [if_pos hsp, if_pos hsp]
      refine ⟨by rw [partsText_cons, partsText_cons, trimRight_append_of_ink _ hp], fun q hq => ?_⟩
      rcases List.mem_cons.1 hq with rfl | hq
      · exact hne
      · exact h.1 q (by simp [hq])
    · rw [if_neg hsp, if_neg hsp]
      exact ⟨rfl, h.1⟩

theorem makeLine_flatten (parts : List (List Char)) (level : Int) :
    makeLine parts level = makeLine [parts.flatten] level := by
  simp [makeLine]

theorem flush_eq (h : ∀ p ∈ parts, p ≠ []) (level : Int) :
    flush level parts = flushText level (partsText parts) := by
  rw [flush, flushText, makeLine_flatten, partsText]
  cases parts with
  | nil => rfl
  | cons p ps =>
    have hp := h p (by simp)
    simp [hp]

/-- A part of a token is not blank when its spelling is not. -/
theorem not_allBlank_around {t : List Char} (h : ¬ AllBlank t) (a b : List Char) :
    ¬ AllBlank (a ++ t ++ b) := by
  intro hc
  exact h (allBlank_append.1 (allBlank_append.1 hc).1).2

/-- The parts of the open line do not matter, only their text. -/
theorem linesOf_eq_textLines (ts : List Token) (hts : ∀ t ∈ ts, Proper t.lexeme) (level : Int)
    (h : PartsOk parts) :
    linesOf level parts ts = textLines level (partsText parts) (ts.map Token.lexeme) := by
  induction ts generalizing level parts with
  | nil => exact flush_eq h.1 level
  | cons t r ih =>
    have ht := hts t (by simp)
    have hink : ¬ AllBlank t.text.toList := ht.ink
    have ih' : ∀ (level : Int) {parts : List (List Char)}, PartsOk parts →
        linesOf level parts r = textLines level (partsText parts) (r.map Token.lexeme) :=
      fun level parts hp => ih (fun t ht => hts t (by simp [ht])) level hp
    have hhead :
        (r.map Token.lexeme).head?.any (·.1 = .kwElse) = r.head?.any (·.kind = .kwElse) := by
      cases r <;> rfl
    obtain ⟨hsp, hsp'⟩ := partsText_spaced h
    obtain ⟨hti, hti'⟩ := partsText_tightened h
    have hmark : ∀ {w : List Char}, w ≠ [] → ∀ q ∈ w :: parts, q ≠ [] := by
      intro w hw q hq
      rcases List.mem_cons.1 hq with rfl | hq
      · exact hw
      · exact h.1 q hq
    -- a kind that the layout writes itself is known from its manner
    have hkind : ∀ {m : Manner} {k : Kind}, manner t.kind = m →
        (∀ k', manner k' = m → k' = k) → t.kind = k :=
      fun hm hk => hk _ hm
    simp only [linesOf, List.map_cons, Token.lexeme, textLines]
    cases hm : manner t.kind with
    | opensBlock =>
      have hb : t.text.toList = ['\x7b'] := ht.lbrace (hkind hm (by intro k; cases k <;> decide))
      rw [ih' (level + 1) partsOk_nil, flush_eq (hmark (w := [' ', '\x7b']) (by simp))]
      simp [breaks, joined, before, after, levelAfter, hb]
    | closesBlock =>
      have hb : t.text.toList = ['\x7d'] := ht.rbrace (hkind hm (by intro k; cases k <;> decide))
      have hp : PartsOk [['\x7d']] := partsOk_cons (not_allBlank_cons (by decide) []) (by simp)
      rw [flush_eq h.1, hhead, ih' (level - 1) partsOk_nil, ih' (level - 1) hp]
      simp [levelAfter, hb]
    | endsStatement =>
      have hb : t.text.toList = [';'] := ht.semicolon (hkind hm (by intro k; cases k <;> decide))
      rw [ih' level partsOk_nil, flush_eq (hmark (w := [';']) (by simp))]
      simp [breaks, joined, before, after, levelAfter, hb]
    | remark =>
      rw [ih' level partsOk_nil, flush_eq (partsOk_cons hink hsp').1]
      simp [breaks, joined, before, after, levelAfter, hsp]
    | headword =>
      rw [ih' level (partsOk_cons (by simpa using not_allBlank_around hink [] [' ']) hsp')]
      simp [breaks, joined, before, after, levelAfter, hsp]
    | operator =>
      rw [ih' level (partsOk_cons (by simpa using not_allBlank_around hink [' '] [' ']) h.1)]
      simp [breaks, joined, before, after, levelAfter]
    | separator =>
      have hb : t.text.toList = [','] := ht.comma (hkind hm (by intro k; cases k <;> decide))
      rw [ih' level (partsOk_cons (not_allBlank_cons (by decide) [' ']) h.1)]
      simp [breaks, joined, before, after, levelAfter, hb]
    | opener =>
      rw [ih' level (partsOk_cons hink h.1)]
      simp [breaks, joined, before, after, levelAfter]
    | closer =>
      rw [ih' level (partsOk_cons hink hti')]
      simp [breaks, joined, before, after, levelAfter, hti]
    | word =>
      rw [ih' level (partsOk_cons hink hsp')]
      simp [breaks, joined, before, after, levelAfter, hsp]

/-- The lines of some statements, from the lexemes of their text. -/
theorem statements_eq (level : Int) (content : List Char) :
    statements level content = textLines level [] (lexemes .body content) := by
  rw [statements, ← map_lexeme_tokens .body ⟨1, 1⟩ content]
  refine linesOf_eq_textLines _ (fun t ht => ?_) level partsOk_nil
  have hmem := List.mem_map_of_mem (f := Token.lexeme) ht
  rw [map_lexeme_tokens] at hmem
  exact proper_of_mem_lexemes hmem

end Partitura.Layout
