import Mathlib.Data.List.Chain
import Partitura.Proofs.Layout.Rows
import Partitura.Proofs.Text.Lines

/-!
# Laid out code, read again

The lines of some lexemes are read as the same lexemes, with two exceptions that `neat` and `fused`
state: a comment loses the blanks at its end, and a number grows together with a point, or, after a
point of its own, with the digits right behind it (`Rows.lexemes_eq`). Neither changes how the
lexemes are laid out (`textLines_neat`, `textLines_fused`), so that a second layout changes nothing
(`statements_trim_unlines_statements`). Code in which no number can grow, and only such code, has
the same tokens when it is laid out (`map_neat_statements_iff`).

The proof follows the open line: `Pending us t w` says that `w` is read as the lexemes `us` and a
last one, `t`, which what follows may still make longer.
-/

namespace Partitura.Layout

open ManuScript ManuScript.Lexer Text

variable {l t a : Kind × List Char} {k : Kind} {w content : List Char}
  {us r ls : List (Kind × List Char)}

/-- A lexeme as a line keeps it: a comment has no blanks at its end. -/
def neat (l : Kind × List Char) : Kind × List Char :=
  if l.1 = .comment then (l.1, trimRight l.2) else l

/-- A number that `b` makes longer when it stands right behind it. -/
def glues (a b : Kind × List Char) : Bool :=
  a.1 = .number &&
    (b.1 = .dot || (b.1 = .number && a.2.getLast? == some '.' && b.2.head? != some '-'))

/-- The lexeme `a` and those behind it, as they are read when numbers grow together with what is
laid out right behind them. -/
def fusedFrom (a : Kind × List Char) : List (Kind × List Char) → List (Kind × List Char)
  | [] => [a]
  | b :: r => if glues a b then fusedFrom (.number, a.2 ++ b.2) r else a :: fusedFrom b r

/-- Lexemes as they are read when numbers grow together with what is laid out right behind them. -/
def fused : List (Kind × List Char) → List (Kind × List Char)
  | [] => []
  | a :: r => fusedFrom a r

theorem neat_fst (l : Kind × List Char) : (neat l).1 = l.1 := by
  rw [neat]
  split <;> rfl

theorem neat_of_ne_comment (h : l.1 ≠ .comment) : neat l = l := if_neg h

theorem spelled_neat (h : Spelled l.1 l.2) : Spelled (neat l).1 (neat l).2 := by
  by_cases hc : l.1 = .comment
  · rw [neat, if_pos hc, hc]
    rw [hc] at h
    obtain ⟨v, hl, hv⟩ := h.exists_of_comment
    obtain ⟨b, hb, hvb⟩ := exists_trimRight_append_allBlank v
    rw [hl, show '/' :: '/' :: v = ['/', '/'] ++ v from rfl,
      trimRight_append_of_left (by simp; decide)]
    refine .comment fun hmem => hv ?_
    rw [hvb]
    exact List.mem_append_left _ hmem
  · rwa [neat_of_ne_comment hc]

/-! ## What stands between two lexemes of a line -/

/-- The marks that are put right behind what is before them. -/
theorem exists_mark_of_manner (h : Spelled k w)
    (hm : manner k ∈ [Manner.closesBlock, .endsStatement, .separator, .opener, .closer]) :
    ∃ c ∈ "\x7d;,([)].".toList, w = [c] ∧ (c = '.' → k = .dot) := by
  have hk : ∃ c ∈ "\x7d;,([)].".toList, k.mark? = some c ∧ (c = '.' → k = .dot) := by
    cases k <;> first | (exact absurd hm (by decide)) | exact ⟨_, by decide, rfl, by decide⟩
  obtain ⟨c, hc, hk, hd⟩ := hk
  exact ⟨c, hc, h.eq_of_mark? hk, hd⟩

theorem mayFollow_mark (hk : k ≠ .comment) {x : Char} (hx : x ∈ "\x7d;,([)].".toList)
    (hn : k = .number → x ≠ '.') : mayFollow k x = true := by
  cases k
  case comment => exact absurd rfl hk
  case number =>
    have hall : ∀ x ∈ "\x7d;,([)].".toList, x ≠ '.' → mayFollow .number x = true :=
      forall_mem_of_all (by decide)
    exact hall x hx (hn rfl)
  all_goals
    exact List.all_eq_true.1 (show "\x7d;,([)].".toList.all (mayFollow _) = true by decide) x hx

/-- Only numbers and the point start with a character that a number may go on with. -/
theorem kind_of_isNumberChar {x : Char} {r : List Char} (h : Spelled k (x :: r))
    (hx : isNumberChar x = true) : k = .dot ∨ (k = .number ∧ x ≠ '-') := by
  cases h with
  | comment => exact absurd hx (by decide)
  | string hq => rcases hq with rfl | rfl <;> exact absurd hx (by decide)
  | number => exact .inr ⟨rfl, ne_of_class hx (by decide)⟩
  | word hc =>
    rcases hc with hc | rfl
    · rw [isNumberChar, Text.not_isDigit_of_isLetter hc, Bool.false_or, beq_iff_eq] at hx
      rw [hx] at hc
      exact absurd hc (by decide)
    · exact absurd hx (by decide)
  | pair hp =>
    rcases pair?_eq hp with ⟨rfl, -, -⟩ | ⟨rfl, -, -⟩ | ⟨rfl, -, -⟩ <;> exact absurd hx (by decide)
  | single hs =>
    have hdot : ∀ c ∈ "=+*%&<>.:()\x7b\x7d[],;!".toList, isNumberChar c = true → c = '.' :=
      forall_mem_of_all (by decide)
    rcases single?_cases hs with hc | hc | hc
    · cases hc
      exact absurd hx (by decide)
    · cases hc
      exact absurd hx (by decide)
    · rw [hdot x hc hx] at hs
      cases hs
      exact .inl rfl

/-- A number in front of a lexeme that does not make it longer: it does not end with a point, or the
lexeme is no number. -/
theorem mayFollow_number_of_joinsNext (hw : Spelled .number w) (hl : Spelled l.1 l.2) {c : Char}
    (hlast : w.getLast? = some c) (hjoin : joinsNext c = true) (hg : glues (.number, w) l = false) :
    ∀ x ∈ l.2.head?, mayFollow .number x = true := by
  obtain ⟨d, r, rfl, hd, hr⟩ := hw.exists_of_number
  have hn : isNumberChar c = true := by
    cases r with
    | nil =>
      cases hlast
      rcases hd with hd | hd
      · simp [isNumberChar, hd]
      · simp at hd
    | cons y r => exact hr c (List.mem_of_getLast? (by simpa using hlast))
  have hdot : c = '.' := by
    have hcs : c = ' ' ∨ c = '(' ∨ c = '.' ∨ c = '[' := by simpa [joinsNext, or_assoc] using hjoin
    rcases hcs with rfl | rfl | rfl | rfl
    · exact absurd hn (by decide)
    · exact absurd hn (by decide)
    · rfl
    · exact absurd hn (by decide)
  intro x hx
  obtain ⟨v, hv⟩ : ∃ v, l.2 = x :: v := List.head?_eq_some_iff.1 hx
  rw [hv] at hl
  show (!isNumberChar x) = true
  by_contra hfollow
  rw [Bool.not_eq_true, Bool.not_eq_false'] at hfollow
  rcases kind_of_isNumberChar hl hfollow with hk | ⟨hk, hneg⟩
  · simp [glues, hk] at hg
  · simp [glues, hk, hlast, hdot, hv, hneg] at hg

/-- A spelling that no blank is put behind is a bracket, a point, or a number that ends with a
point. -/
theorem mayFollow_of_joinsNext (ht : Spelled t.1 t.2) (hl : Spelled l.1 l.2)
    (hc : t.1 ≠ .comment) {c : Char} (hlast : t.2.getLast? = some c) (hjoin : joinsNext c = true)
    (hg : glues t l = false) : ∀ x ∈ l.2.head?, mayFollow t.1 x = true := by
  obtain ⟨k, w⟩ := t
  have hcs : c = ' ' ∨ c = '(' ∨ c = '.' ∨ c = '[' := by simpa [joinsNext, or_assoc] using hjoin
  have hlast : w.getLast? = some c := hlast
  cases ht with
  | comment => exact absurd rfl hc
  | string hq hs =>
    rw [List.getLast?_cons, getLast?_stringRest hs] at hlast
    cases hlast
    rcases hq with rfl | rfl <;> exact absurd hjoin (by decide)
  | number hd hr => exact mayFollow_number_of_joinsNext (.number hd hr) hl hlast hjoin hg
  | word hd hr =>
    rcases List.mem_cons.1 (List.mem_of_getLast? hlast) with rfl | hmem
    · rcases hcs with rfl | rfl | rfl | rfl <;> exact absurd hd (by decide)
    · have hword := hr c hmem
      rcases hcs with rfl | rfl | rfl | rfl <;> exact absurd hword (by decide)
  | @pair d e k hp =>
    have hd : e = '=' := by
      rcases pair?_eq hp with ⟨-, h, -⟩ | ⟨-, h, -⟩ | ⟨-, h, -⟩ <;> exact h
    have hce : e = c := by simpa using hlast
    rw [← hce, hd] at hjoin
    exact absurd hjoin (by decide)
  | single hs =>
    cases hlast
    intro x _
    rcases hcs with rfl | rfl | rfl | rfl <;> cases hs <;> rfl

/-- A mark that is put right behind a lexeme does not make it longer, unless it is the point behind
a number. -/
theorem mayFollow_of_manner (hl : Spelled l.1 l.2) (hc : t.1 ≠ .comment) (hg : glues t l = false)
    (hm : manner l.1 ∈ [Manner.closesBlock, .endsStatement, .separator, .opener, .closer]) :
    ∀ x ∈ l.2.head?, mayFollow t.1 x = true := by
  intro x hx
  obtain ⟨c, hmem, hw, hd⟩ := exists_mark_of_manner hl hm
  rw [hw] at hx
  cases hx
  refine mayFollow_mark hc hmem fun hk hdot => ?_
  simp [glues, hk, hd hdot] at hg

theorem getLast?_append_spelled (ht : Spelled t.1 t.2) (hc : t.1 ≠ .comment) (u : List Char) :
    ∃ z, t.2.getLast? = some z ∧ (u ++ t.2).getLast? = some z ∧ isBlank z = false := by
  obtain ⟨z, hz⟩ : ∃ z, t.2.getLast? = some z := ⟨_, List.getLast?_eq_some_getLast ht.ne_nil⟩
  exact ⟨z, hz, by rw [List.getLast?_append_of_ne_nil _ ht.ne_nil, hz], ht.last hc z hz⟩

/-- A blank at the end of the line is the one behind the last lexeme. -/
theorem tightText_append_after (ht : Spelled t.1 t.2) (hc : t.1 ≠ .comment) (u : List Char) :
    tightText (u ++ t.2 ++ after (manner t.1)) = u ++ t.2 := by
  obtain ⟨z, -, hlast, hblank⟩ := getLast?_append_spelled ht hc u
  rcases after_eq (manner t.1) with h | h
  · have hsp : z ≠ ' ' := by
      rintro rfl
      exact absurd hblank (by decide)
    rw [h, List.append_nil, tightText, hlast, if_neg (by simpa using hsp)]
  · rw [h, tightText, List.getLast?_concat, if_pos (by decide),
      trimRight_append_of_allBlank _ (by decide)]
    exact trimRight_of_last fun c hc => by cases hlast.symm.trans hc; exact hblank

theorem exists_spacedText_eq (ht : Spelled t.1 t.2) (hl : Spelled l.1 l.2) (hc : t.1 ≠ .comment)
    (hg : glues t l = false) (u : List Char) :
    ∃ g, (∀ c ∈ g, c = ' ') ∧ spacedText (u ++ t.2 ++ after (manner t.1)) = u ++ t.2 ++ g ∧
      (g = [] → ∀ x ∈ l.2.head?, mayFollow t.1 x = true) := by
  obtain ⟨z, hz, hlast, -⟩ := getLast?_append_spelled ht hc u
  rcases after_eq (manner t.1) with h | h
  · rw [h, List.append_nil, spacedText, hlast, Option.all_some]
    by_cases hj : joinsNext z = true
    · exact ⟨[], by simp, by simp [hj], fun _ => mayFollow_of_joinsNext ht hl hc hz hj hg⟩
    · exact ⟨[' '], by simp, by simp [hj], by simp⟩
  · exact ⟨[' '], by simp, by simp [h, spacedText, joinsNext], by simp⟩

/-- Between two lexemes of a line there are blanks, or nothing where the second one does not make
the first one longer. -/
theorem exists_before_eq (ht : Spelled t.1 t.2) (hl : Spelled l.1 l.2) (hc : t.1 ≠ .comment)
    (hg : glues t l = false) (u : List Char) :
    ∃ g, (∀ c ∈ g, c = ' ') ∧ before (manner l.1) (u ++ t.2 ++ after (manner t.1)) = u ++ t.2 ++ g ∧
      (g = [] → ∀ x ∈ l.2.head?, mayFollow t.1 x = true) := by
  cases hm : manner l.1 with
  | opensBlock | operator =>
    refine ⟨after (manner t.1) ++ [' '], ?_, by simp [before], by simp⟩
    intro c hc
    rcases List.mem_append.1 hc with hc | hc
    · exact mem_after hc
    · exact List.mem_singleton.1 hc
  | closesBlock | endsStatement | separator | opener =>
    exact ⟨after (manner t.1), fun _ => mem_after, rfl,
      fun _ => mayFollow_of_manner hl hc hg (by rw [hm]; decide)⟩
  | closer =>
    refine ⟨[], by simp, ?_, fun _ => mayFollow_of_manner hl hc hg (by rw [hm]; decide)⟩
    rw [List.append_nil]
    exact tightText_append_after ht hc u
  | remark | headword | word => exact exists_spacedText_eq ht hl hc hg u

/-! ## The open line -/

/-- The open line `w` is read as the lexemes `us` and a last one, `t`, which what follows may still
make longer. -/
def Pending (us : List (Kind × List Char)) (t : Kind × List Char) (w : List Char) : Prop :=
  Spelled t.1 t.2 ∧ ∃ s v, (∀ c ∈ s, c = ' ') ∧ w = s ++ (v ++ t.2) ++ after (manner t.1) ∧
    (∀ c ∈ (v ++ t.2).head?, isBlank c = false) ∧
    ∀ x, x.head? = t.2.head? → lexemes .body (v ++ x) = us ++ lexemes .body x

theorem Spelled.head? (h : Spelled k w) : ∀ c ∈ w.head?, isBlank c = false := by
  cases w with
  | nil => simp
  | cons c r => simpa using h.head

theorem lexemes_spaces {g : List Char} (h : ∀ c ∈ g, c = ' ') (rest : List Char) :
    lexemes .body (g ++ rest) = lexemes .body rest :=
  lexemes_gaps .body (fun c hc => by rw [h c hc]; decide) rest

theorem pending_first (h : Spelled l.1 l.2) : Pending [] l (joined (manner l.1) [] l.2) := by
  refine ⟨h, before (manner l.1) [], [],
    ?_, by simp [joined], by simpa using Spelled.head? h, fun x _ => rfl⟩
  cases manner l.1 <;> simp [before, spacedText, tightText]

theorem Pending.next (h : Pending us t w) (hl : Spelled l.1 l.2) (hc : t.1 ≠ .comment)
    (hg : glues t l = false) : Pending (us ++ [t]) l (joined (manner l.1) w l.2) := by
  obtain ⟨ht, s, v, hs, rfl, hhead, hlex⟩ := h
  obtain ⟨g, hgap, hbefore, hfollow⟩ := exists_before_eq ht hl hc hg (s ++ v)
  have hne := ht.ne_nil
  refine ⟨hl, s, v ++ t.2 ++ g, hs, ?_, ?_, ?_⟩
  · rw [joined, ← List.append_assoc s v, hbefore]
    simp
  · rwa [List.append_assoc, List.head?_append_of_ne_nil _ (by simp [hne])]
  · intro x hx
    have hends : Ends t.1 (g ++ x) := by
      cases g with
      | nil =>
        rw [List.nil_append, Ends, hx]
        exact hfollow rfl
      | cons c g =>
        rw [List.cons_append, hgap c (by simp)]
        exact ends_cons.2 (mayFollow_space hc)
    rw [List.append_assoc, List.append_assoc, hlex _ (List.head?_append_of_ne_nil _ hne),
      lexemes_spelled ht hends, lexemes_spaces hgap]
    simp

theorem glues_iff {b : Kind × List Char} : glues a b = true ↔
    a.1 = .number ∧
      (b.1 = .dot ∨ (b.1 = .number ∧ a.2.getLast? = some '.' ∧ b.2.head? ≠ some '-')) := by
  simp [glues, and_assoc]

/-- What makes a number longer makes it a number, and is put right behind it. -/
theorem spelled_of_glues (ht : Spelled t.1 t.2) (hl : Spelled l.1 l.2) (hg : glues t l = true) :
    Spelled .number (t.2 ++ l.2) ∧ ∀ u, joined (manner l.1) (u ++ t.2) l.2 = u ++ (t.2 ++ l.2) := by
  obtain ⟨hk, hg⟩ := glues_iff.1 hg
  rw [hk] at ht
  obtain ⟨c, r, hw, hc, hr⟩ := ht.exists_of_number
  have hnumber : (∀ x ∈ l.2, isNumberChar x = true) → Spelled .number (t.2 ++ l.2) := by
    intro hn
    rw [hw, List.cons_append]
    refine .number ?_ fun x hx => ?_
    · rcases hc with hc | ⟨hc, hd⟩
      · exact .inl hc
      · cases r with
        | nil => simp at hd
        | cons y r => exact .inr ⟨hc, by simpa using hd⟩
    · rcases List.mem_append.1 hx with hx | hx
      · exact hr x hx
      · exact hn x hx
  rcases hg with hd | ⟨hd, hdot, hneg⟩
  · have hl2 : l.2 = ['.'] := hl.eq_of_mark? (by rw [hd]; rfl)
    refine ⟨hnumber (by rw [hl2]; exact forall_mem_of_all (by decide)), fun u => ?_⟩
    have hlast : ((u ++ t.2).getLast? == some ' ') = false := by
      rw [List.getLast?_append_of_ne_nil _ ht.ne_nil]
      cases hz : t.2.getLast? with
      | none => rfl
      | some z =>
        have := ht.last (by decide) z hz
        simpa using ne_of_class (p := fun c => !isBlank c) (by simpa using this) (by decide)
    simp only [joined, hd, manner, before, after, tightText, hlast]
    simp
  · rw [hd] at hl
    obtain ⟨d, q, hl2, hd', hq⟩ := hl.exists_of_number
    have hdigit : Text.isDigit d = true := by
      rcases hd' with hd' | ⟨hd', -⟩
      · exact hd'
      · simp [hl2, hd'] at hneg
    refine ⟨hnumber fun x hx => ?_, fun u => ?_⟩
    · rw [hl2] at hx
      rcases List.mem_cons.1 hx with rfl | hx
      · simp [isNumberChar, hdigit]
      · exact hq x hx
    · have hlast : (u ++ t.2).getLast? = some '.' := by
        rw [List.getLast?_append_of_ne_nil _ ht.ne_nil, hdot]
      simp only [joined, hd, manner, before, after, spacedText, hlast, Option.all_some]
      simp [joinsNext]

theorem Pending.grow (h : Pending us t w) (hl : Spelled l.1 l.2) (hg : glues t l = true) :
    Pending us (.number, t.2 ++ l.2) (joined (manner l.1) w l.2) := by
  obtain ⟨ht, s, v, hs, rfl, hhead, hlex⟩ := h
  obtain ⟨hspelled, hjoined⟩ := spelled_of_glues ht hl hg
  have hk := (glues_iff.1 hg).1
  have hne := ht.ne_nil
  refine ⟨hspelled, s, v, hs, ?_, ?_, ?_⟩
  · have ha : after (manner t.1) = [] := by rw [hk]; rfl
    have ha' : after (manner .number) = [] := rfl
    rw [ha, ha', List.append_nil, List.append_nil, ← List.append_assoc, hjoined,
      ← List.append_assoc, ← List.append_assoc]
    simp
  · rwa [← List.append_assoc, List.head?_append_of_ne_nil _ (by simp [hne])]
  · intro x hx
    exact hlex x (by rw [hx, List.head?_append_of_ne_nil _ hne])

theorem head?_neat (ht : Spelled t.1 t.2) : (neat t).2.head? = t.2.head? := by
  by_cases hc : t.1 = .comment
  · have hn := spelled_neat ht
    rw [neat_fst, hc] at hn
    rw [hc] at ht
    obtain ⟨v, hv, -⟩ := ht.exists_of_comment
    obtain ⟨v', hv', -⟩ := hn.exists_of_comment
    rw [hv, hv']
    rfl
  · rw [neat_of_ne_comment hc]

/-- A line that ends with a lexeme loses the blanks behind it. -/
theorem trimRight_append_neat (ht : Spelled t.1 t.2) (v : List Char) :
    trimRight (v ++ t.2) = v ++ (neat t).2 := by
  by_cases hc : t.1 = .comment
  · rw [trimRight_append_of_ink _ (proper_of_spelled ht).ink, neat, if_pos hc]
  · rw [trimRight_append_of_last _ ht.ne_nil (ht.last hc), neat_of_ne_comment hc]

theorem Pending.flush_eq (h : Pending us t w) (level : Int) :
    ∃ v, flushText level w = [indentationOf level ++ (v ++ (neat t).2)] ∧
      ∀ x, x.head? = t.2.head? → lexemes .body (v ++ x) = us ++ lexemes .body x := by
  obtain ⟨ht, s, v, hs, rfl, hhead, hlex⟩ := h
  have hne := ht.ne_nil
  have htrim : trim (s ++ (v ++ t.2) ++ after (manner t.1)) = v ++ (neat t).2 := by
    have hafter : AllBlank (after (manner t.1)) := by
      rcases after_eq (manner t.1) with h | h
      · simp [h]
      · rw [h]
        exact allBlank_of_spaces (by simp)
    rw [trim_append_of_allBlank _ hafter, trim_allBlank_append (allBlank_of_spaces hs), trim,
      trimLeft_of_head hhead, trimRight_append_neat ht]
  have hink : (v ++ (neat t).2).isEmpty = false := by simp [(spelled_neat ht).ne_nil]
  refine ⟨v, ?_, hlex⟩
  rw [flushText, if_neg (by simp [hne]), makeLine, List.flatten_singleton, htrim, hink]
  rfl

theorem unlines_cons_ends (l : List Char) (ls : List (List Char)) :
    ∃ rest, unlines (l :: ls) = l ++ rest ∧ (∀ k, Ends k rest) ∧
      lexemes .body rest = lexemes .body (unlines ls) := by
  by_cases h : ls = []
  · exact ⟨[], by simp [h], ends_nil, by simp [h]⟩
  · exact ⟨'\n' :: unlines ls, unlines_cons h, fun k => ends_cons.2 (mayFollow_newline k),
      lexemes_gap _ (by decide) _⟩

theorem Pending.lexemes_flush (h : Pending us t w) (level : Int) (ls : List (List Char)) :
    lexemes .body (unlines (flushText level w ++ ls)) =
      us ++ neat t :: lexemes .body (unlines ls) := by
  obtain ⟨v, hflush, hlex⟩ := h.flush_eq level
  have hn := spelled_neat h.1
  rw [hflush, List.singleton_append]
  obtain ⟨rest, hrest, hends, hls⟩ :=
    unlines_cons_ends (indentationOf level ++ (v ++ (neat t).2)) ls
  rw [hrest, List.append_assoc, lexemes_spaces (fun _ => mem_indentationOf), List.append_assoc,
    hlex, lexemes_spelled hn (hends _), hls]
  rw [List.head?_append_of_ne_nil _ hn.ne_nil, head?_neat h.1]

/-! ## Reading lines back -/

theorem glues_neat (a b : Kind × List Char) : glues a (neat b) = glues a b := by
  by_cases h : b.1 = .comment
  · simp [glues, neat_fst, h]
  · rw [neat_of_ne_comment h]

/-- A lexeme that does not grow together with a number. -/
theorem glues_eq_false (hd : l.1 ≠ .dot) (hn : l.1 ≠ .number) : glues t l = false := by
  rw [Bool.eq_false_iff]
  intro hg
  rcases (glues_iff.1 hg).2 with hk | ⟨hk, -⟩
  · exact hd hk
  · exact hn hk

/-- What stands behind the open line is put to it, lexeme by lexeme: the next one grows together
with the last or stands apart. -/
theorem Pending.exists_foldl (hp : Pending us t w) (hr : ∀ l ∈ r, Spelled l.1 l.2)
    (hc : ∀ l ∈ (t :: r).dropLast, l.1 ≠ .comment) :
    ∃ us' t', Pending us' t' (r.foldl (fun w l => joined (manner l.1) w l.2) w) ∧
      us' ++ [neat t'] = us ++ fusedFrom (neat t) (r.map neat) := by
  induction r generalizing us t w with
  | nil => exact ⟨us, t, hp, rfl⟩
  | cons l r ih =>
    obtain ⟨hl, hr⟩ := List.forall_mem_cons.1 hr
    rw [List.dropLast_cons_of_ne_nil (by simp), List.forall_mem_cons] at hc
    rw [List.map_cons, neat_of_ne_comment hc.1, fusedFrom, glues_neat]
    by_cases hg : glues t l = true
    · have hk : l.1 ≠ .comment := by
        rcases (glues_iff.1 hg).2 with hk | ⟨hk, -⟩ <;> rw [hk] <;> decide
      rw [if_pos hg, neat_of_ne_comment hk]
      refine ih (hp.grow hl hg) hr fun x hx => ?_
      cases r with
      | nil => cases hx
      | cons =>
        rcases List.mem_cons.1 hx with rfl | hx
        · exact Kind.noConfusion
        · exact hc.2 x (List.mem_cons_of_mem _ hx)
    · obtain ⟨us', t', hp', h⟩ := ih (hp.next hl hc.1 (by simpa using hg)) hr hc.2
      exact ⟨us', t', hp', by rw [h, if_neg hg, List.append_assoc, List.singleton_append]⟩

/-- A row is read as its lexemes. -/
theorem Row.lexemes_makeLine {row : List (Kind × List Char)} (h : Row row)
    (hrow : ∀ l ∈ row, Spelled l.1 l.2) (level : Int) (more : List (List Char)) :
    lexemes .body (unlines (makeLine [rowText row] level :: more)) =
      fused (row.map neat) ++ lexemes .body (unlines more) := by
  obtain ⟨t, r, rfl⟩ := List.exists_cons_of_ne_nil h.ne_nil
  obtain ⟨ht, hr⟩ := List.forall_mem_cons.1 hrow
  have hc : ∀ l ∈ (t :: r).dropLast, l.1 ≠ .comment := fun l hl hk => by
    have hquiet := h.last l hl
    rw [hk] at hquiet
    cases hquiet
  obtain ⟨us, t', hp, hread⟩ := (pending_first ht).exists_foldl hr hc
  have hline := flushText_rowText h.ne_nil (fun l hl => (hrow l hl).ne_nil) level
  have hflush := hp.lexemes_flush level more
  rwa [← List.singleton_append, ← List.append_assoc, hread, List.nil_append, ← List.foldl_cons,
    ← rowText, hline] at hflush

theorem kind_of_ends (h : breaks (manner l.1) = true ∨ closes l = true) :
    l.1 ≠ .number ∧ l.1 ≠ .dot := by
  constructor <;>
  · intro hk
    simp [closes, hk, breaks, manner] at h

/-- Numbers do not grow over the end of a row. -/
theorem fusedFrom_append
    (h : ∀ x ∈ (a :: r).getLast?, ∀ b ∈ ls.head?, (x.1 ≠ .number ∧ x.1 ≠ .dot) ∨
      (b.1 ≠ .number ∧ b.1 ≠ .dot)) :
    fusedFrom a (r ++ ls) = fusedFrom a r ++ fused ls := by
  induction r generalizing a with
  | nil =>
    cases ls with
    | nil => rfl
    | cons b q =>
      have hg : glues a b = false := by
        rcases h a rfl b rfl with ⟨hn, -⟩ | ⟨hn, hd⟩
        · simp [glues, hn]
        · exact glues_eq_false hd hn
      simp [fusedFrom, fused, hg]
  | cons c r ih =>
    rw [List.getLast?_cons_cons] at h
    rw [List.cons_append, fusedFrom, fusedFrom]
    split
    · next hg =>
      refine ih fun x hx b hb => ?_
      cases r with
      | nil =>
        have hc := h c rfl b hb
        rcases (glues_iff.1 hg).2 with hk | ⟨hk, -⟩ <;> exact .inr (hc.resolve_left (by simp [hk]))
      | cons => exact h x hx b hb
    · rw [ih h, List.cons_append]

/-- Lines are read as the lexemes that they were laid out from, up to the ends of comments and to
numbers that grow together with what is right behind them. -/
theorem Rows.lexemes_eq {level : Int} {lines : List (List Char)} (h : Rows level ls lines)
    (hls : ∀ l ∈ ls, Spelled l.1 l.2) (more : List (List Char)) :
    lexemes .body (unlines (lines ++ more)) =
      fused (ls.map neat) ++ lexemes .body (unlines more) := by
  induction h with
  | nil => rfl
  | cons hrow hend _ ih =>
    obtain ⟨hspelled, hrest⟩ := List.forall_mem_append.1 hls
    rw [List.cons_append, hrow.lexemes_makeLine hspelled, ih hrest, ← List.append_assoc,
      List.map_append]
    obtain ⟨a, r, rfl⟩ := List.exists_cons_of_ne_nil hrow.ne_nil
    congr 1
    refine (fusedFrom_append fun x hx b hb => ?_).symm
    rw [← List.map_cons, List.getLast?_map] at hx
    rw [List.head?_map] at hb
    obtain ⟨y, hy, rfl⟩ := Option.map_eq_some_iff.1 hx
    obtain ⟨c, hc, rfl⟩ := Option.map_eq_some_iff.1 hb
    rw [neat_fst, neat_fst]
    rcases hend y hy c hc with h | h | h
    · exact .inl (kind_of_ends (.inl h))
    · exact .inl (kind_of_ends (.inr h))
    · exact .inr (kind_of_ends (.inr h))

/-! ## Laying out again -/

theorem textLines_cons_congr {xs ys : List (Kind × List Char)}
    (hkind : xs.head?.map (·.1) = ys.head?.map (·.1))
    (h : ∀ level w, textLines level w xs = textLines level w ys) (l : Kind × List Char)
    (level : Int) (w : List Char) : textLines level w (l :: xs) = textLines level w (l :: ys) := by
  have helse : xs.head?.any (·.1 = .kwElse) = ys.head?.any (·.1 = .kwElse) := by
    have := congrArg (Option.any (· = Kind.kwElse)) hkind
    simpa [Option.any_map, Function.comp_def] using this
  simp only [textLines, helse, h]

/-- The blanks at the end of a comment do not matter. -/
theorem textLines_neat (h : ∀ l ∈ ls, Spelled l.1 l.2) (level : Int) (w : List Char) :
    textLines level w (ls.map neat) = textLines level w ls := by
  induction ls generalizing level w with
  | nil => rfl
  | cons l r ih =>
    have hl := h l (by simp)
    have hkind : (r.map neat).head?.map (·.1) = r.head?.map (·.1) := by cases r <;> simp [neat_fst]
    rw [List.map_cons,
      textLines_cons_congr hkind (fun level w => ih (fun t ht => h t (by simp [ht])) level w)]
    by_cases hc : l.1 = .comment
    · have hflush :
          flushText level (joined .remark w (neat l).2) =
            flushText level (joined .remark w l.2) := by
        have hn := (spelled_neat hl).ne_nil
        obtain ⟨b, hb, hlb⟩ := exists_trimRight_append_allBlank l.2
        have htrim : trim (spacedText w ++ (neat l).2) = trim (spacedText w ++ l.2) := by
          rw [neat, if_pos hc]
          conv_rhs => rw [hlb, ← List.append_assoc, trim_append_of_allBlank _ hb]
        simp [flushText, makeLine, joined, before, after, hn, hl.ne_nil, htrim]
      have hk : manner l.1 = .remark := by rw [hc]; rfl
      simp [textLines, neat_fst, hk, breaks, hflush]
    · rw [neat_of_ne_comment hc]

theorem head?_fusedFrom (a : Kind × List Char) (r : List (Kind × List Char)) :
    (fusedFrom a r).head?.map (·.1) = some a.1 := by
  induction r generalizing a with
  | nil => rfl
  | cons b r ih =>
    rw [fusedFrom]
    split
    · next hg => rw [ih, (glues_iff.1 hg).1]
    · rfl

theorem textLines_fusedFrom (h : ∀ l ∈ r, Spelled l.1 l.2) (ha : Spelled a.1 a.2) (level : Int)
    (w : List Char) : textLines level w (fusedFrom a r) = textLines level w (a :: r) := by
  induction r generalizing a level w with
  | nil => rfl
  | cons b r ih =>
    have hb := h b (by simp)
    have hr : ∀ l ∈ r, Spelled l.1 l.2 := fun t ht => h t (by simp [ht])
    rw [fusedFrom]
    split
    · next hg =>
      obtain ⟨hspelled, hjoined⟩ := spelled_of_glues ha hb hg
      have hm : manner a.1 = .word := by rw [(glues_iff.1 hg).1]; rfl
      have hmb : manner b.1 = .closer ∨ manner b.1 = .word := by
        rcases (glues_iff.1 hg).2 with hk | ⟨hk, -⟩ <;> rw [hk] <;> decide
      have htwo : joined (manner b.1) (joined .word w a.2) b.2 = joined .word w (a.2 ++ b.2) := by
        simp [joined, before, after] at hjoined ⊢
        rw [hjoined]
      rw [ih hr hspelled]
      simp only [textLines, hm, show manner .number = Manner.word from rfl, breaks,
        levelAfter, ← htwo]
      rcases hmb with hmb | hmb <;> simp [hmb]
    · refine textLines_cons_congr ?_ (fun level w => ih hr hb level w) a level w
      rw [head?_fusedFrom]
      rfl

/-- Numbers that grow together are laid out as they were apart. -/
theorem textLines_fused (h : ∀ l ∈ ls, Spelled l.1 l.2) (level : Int) (w : List Char) :
    textLines level w (fused ls) = textLines level w ls := by
  cases ls with
  | nil => rfl
  | cons a r => exact textLines_fusedFrom (fun l hl => h l (by simp [hl])) (h a (by simp)) level w

/-! ## The ends of lines -/

/-- A line that was laid out: an indentation and a text with no blanks around it. -/
def Laid (line : List Char) : Prop :=
  ∃ level y, line = indentationOf level ++ y ∧ y ≠ [] ∧ Trimmed y

theorem makeLine_eq (h : ¬ AllBlank w) (level : Int) :
    makeLine [w] level = indentationOf level ++ trim w ∧ trim w ≠ [] := by
  have hne : trim w ≠ [] := fun hc => h (trim_eq_nil_iff.1 hc)
  exact ⟨by rw [makeLine, List.flatten_singleton, if_neg (by simpa using hne)], hne⟩

theorem Row.not_allBlank_rowText {row : List (Kind × List Char)} (h : Row row)
    (hrow : ∀ l ∈ row, ¬ AllBlank l.2) : ¬ AllBlank (rowText row) := by
  obtain ⟨init, l, rfl⟩ := (List.eq_nil_or_concat' row).resolve_left h.ne_nil
  rw [rowText_concat]
  exact not_allBlank_around (hrow l (by simp)) _ _

theorem last_unlines_of_laid {ls : List (List Char)} (h : ∀ l ∈ ls, Laid l) :
    ∀ c ∈ (unlines ls).getLast?, isBlank c = false := by
  induction ls with
  | nil => simp
  | cons l r ih =>
    obtain ⟨n, y, hl, hne, hy⟩ := h l (by simp)
    by_cases hr : r = []
    · rw [hr, unlines_singleton, hl, List.getLast?_append_of_ne_nil _ hne]
      exact hy.2
    · have hrest : unlines r ≠ [] := by
        obtain ⟨m, q, rfl⟩ := List.exists_cons_of_ne_nil hr
        obtain ⟨n', y', hm, hne', -⟩ := h m (by simp)
        obtain ⟨rest, hrest, -⟩ := unlines_cons_ends m q
        rw [hrest, hm]
        simp [hne']
      rw [unlines_cons hr, List.getLast?_append_of_ne_nil _ (by simp),
        List.getLast?_cons_of_ne_nil hrest]
      exact ih fun l hl => h l (by simp [hl])

/-- Of laid out lines only the first indentation is trimmed. -/
theorem exists_spaces_append_trim {ls : List (List Char)} (h : ∀ l ∈ ls, Laid l) :
    ∃ g, (∀ c ∈ g, c = ' ') ∧ unlines ls = g ++ trim (unlines ls) := by
  cases ls with
  | nil => exact ⟨[], by simp, rfl⟩
  | cons l r =>
    obtain ⟨n, y, hl, hne, hy⟩ := h l (by simp)
    obtain ⟨rest, hrest, -⟩ := unlines_cons_ends l r
    have hlast := last_unlines_of_laid h
    rw [hrest, hl, List.append_assoc] at hlast ⊢
    have hne' : y ++ rest ≠ [] := by simp [hne]
    have htrimmed : Trimmed (y ++ rest) := by
      refine ⟨?_, ?_⟩
      · rw [List.head?_append_of_ne_nil _ hne]
        exact hy.1
      · rwa [List.getLast?_append_of_ne_nil _ hne'] at hlast
    refine ⟨indentationOf n, fun _ => mem_indentationOf, ?_⟩
    rw [trim_allBlank_append (allBlank_of_spaces fun _ => mem_indentationOf),
      trim_of_trimmed htrimmed]

theorem laid_of_mem_statements {level : Int} {line : List Char}
    (h : line ∈ statements level content) : Laid line := by
  obtain ⟨row, n, hrow, hsub, rfl⟩ := (rows_statements level content).exists_row h
  obtain ⟨hline, hne⟩ :=
    makeLine_eq (hrow.not_allBlank_rowText fun l hl => (proper_of_mem_lexemes (hsub hl)).ink) n
  exact ⟨n, _, hline, hne, trimmed_trim _⟩

/-- The lexemes of code that was laid out, and of the lines behind it. -/
theorem lexemes_statements (h : ∀ l ∈ lexemes .body content, l.1 ≠ .invalid) (level : Int)
    (more : List (List Char)) : lexemes .body (unlines (statements level content ++ more)) =
      fused ((lexemes .body content).map neat) ++ lexemes .body (unlines more) := by
  exact (rows_statements level content).lexemes_eq
    (fun l hl => spelled_of_mem_lexemes hl (h l hl)) more

theorem lexemes_trim_statements (h : ∀ l ∈ lexemes .body content, l.1 ≠ .invalid) (level : Int) :
    lexemes .body (trim (unlines (statements level content))) =
      fused ((lexemes .body content).map neat) := by
  have hlaid : ∀ l ∈ statements level content, Laid l := fun l hl => laid_of_mem_statements hl
  obtain ⟨g, hg, htrim⟩ := exists_spaces_append_trim hlaid
  have hlex := lexemes_statements h level []
  rw [List.append_nil, unlines_nil, lexemes_nil, List.append_nil] at hlex
  rw [← lexemes_spaces hg, ← htrim, hlex]

/-- Code that was laid out stays as it is when it is laid out again. -/
theorem statements_trim_unlines_statements (h : ∀ l ∈ lexemes .body content, l.1 ≠ .invalid)
    (level level' : Int) :
    statements level (trim (unlines (statements level' content))) = statements level content := by
  have hspelled : ∀ l ∈ lexemes .body content, Spelled l.1 l.2 :=
    fun l hl => spelled_of_mem_lexemes hl (h l hl)
  have hneat : ∀ l ∈ (lexemes .body content).map neat, Spelled l.1 l.2 := by
    intro l hl
    obtain ⟨t, ht, rfl⟩ := List.mem_map.1 hl
    exact spelled_neat (hspelled t ht)
  rw [statements_eq, lexemes_trim_statements h, textLines_fused hneat,
    textLines_neat hspelled, statements_eq]

/-! ## Code that keeps its tokens -/

/-- No number is directly followed by a point, and none that ends with a point by a number without a
sign. -/
def NumbersClear (ls : List (Kind × List Char)) : Prop :=
  ls.IsChain fun a b => a.1 = .number →
    b.1 ≠ .dot ∧ ¬ (a.2.getLast? = some '.' ∧ b.1 = .number ∧ b.2.head? ≠ some '-')

instance (ls : List (Kind × List Char)) : Decidable (NumbersClear ls) :=
  inferInstanceAs (Decidable (List.IsChain _ ls))

theorem numbersClear_iff : NumbersClear ls ↔ ls.IsChain fun a b => glues a b = false := by
  refine List.IsChain.iff fun a b => ?_
  rw [← Bool.not_eq_true, glues_iff]
  tauto

theorem numbersClear_map_neat : NumbersClear (ls.map neat) ↔ NumbersClear ls := by
  rw [numbersClear_iff, numbersClear_iff, List.isChain_map]
  refine List.IsChain.iff fun a b => ?_
  by_cases hc : a.1 = .comment
  · simp [glues, neat_fst, hc]
  · rw [neat_of_ne_comment hc, glues_neat]

theorem length_fusedFrom_le (a : Kind × List Char) (r : List (Kind × List Char)) :
    (fusedFrom a r).length ≤ r.length + 1 := by
  induction r generalizing a with
  | nil => rfl
  | cons b r ih =>
    rw [fusedFrom]
    split
    · exact (ih _).trans (Nat.le_succ _)
    · exact Nat.succ_le_succ (ih b)

/-- As many lexemes are left if and only if none of them grows. -/
theorem length_fused_eq_iff (ls : List (Kind × List Char)) :
    (fused ls).length = ls.length ↔ NumbersClear ls := by
  rw [numbersClear_iff]
  cases ls with
  | nil => simp [fused]
  | cons a r =>
    rw [fused]
    induction r generalizing a with
    | nil => simp [fusedFrom]
    | cons b r ih =>
      rw [fusedFrom, List.isChain_cons_cons, ← ih b]
      split
      · next hg =>
        have hle := length_fusedFrom_le (.number, a.2 ++ b.2) r
        simp only [List.length_cons, hg, Bool.true_eq_false, false_and, iff_false]
        omega
      · next hg => simp [hg]

theorem fused_of_numbersClear (h : NumbersClear ls) : fused ls = ls := by
  rw [numbersClear_iff] at h
  cases ls with
  | nil => rfl
  | cons a r =>
    rw [fused]
    induction r generalizing a with
    | nil => rfl
    | cons b r ih =>
      obtain ⟨hg, hr⟩ := List.isChain_cons_cons.1 h
      rw [fusedFrom, hg, ih b hr]
      rfl

theorem neat_neat (l : Kind × List Char) : neat (neat l) = neat l := by
  by_cases hc : l.1 = .comment
  · rw [neat, if_pos (by rw [neat_fst, hc]), neat, if_pos hc]
    exact congrArg (Prod.mk l.1) (trimRight_of_last (last_trimRight l.2))
  · rw [neat_of_ne_comment hc, neat_of_ne_comment hc]

/-- **Laying out keeps the tokens.** Code without unclosed strings has the same tokens before and
after it is laid out, at any depth of indentation and up to the blanks at the ends of comments, if
and only if no number in it is directly followed by a point, and none that ends with a point by a
number without a sign. -/
theorem map_neat_statements_iff {p : Position} {content : List Char}
    (h : ∀ t ∈ (lex .body p content).tokens, t.kind ≠ .invalid) (level : Int) (q : Position) :
    ((lex .body q (unlines (statements level content))).all.map fun t => neat t.lexeme) =
        ((lex .body p content).all.map fun t => neat t.lexeme) ↔
      NumbersClear ((lex .body p content).tokens.map Token.lexeme) := by
  have hkinds : ∀ l ∈ lexemes .body content, l.1 ≠ .invalid := by
    rw [← map_lexeme_tokens .body p]
    exact List.forall_mem_map.2 h
  have hlaid :
      lexemes .body (unlines (statements level content)) =
        fused ((lexemes .body content).map neat) := by
    simpa using lexemes_statements hkinds level []
  have hall : ∀ p cs, ((lex .body p cs).all.map fun t => neat t.lexeme) =
      (lexemes .body cs ++ [(Kind.fin, [])]).map neat := by
    intro p cs
    rw [← map_lexeme_all .body p, List.map_map]
    rfl
  rw [hall, hall, hlaid, map_lexeme_tokens, List.map_append, List.map_append,
    List.append_cancel_right_eq, ← numbersClear_map_neat]
  constructor
  · intro hsame
    have hlength := congrArg List.length hsame
    rw [List.length_map] at hlength
    exact (length_fused_eq_iff _).1 hlength
  · intro hclear
    rw [fused_of_numbersClear hclear, List.map_map]
    exact List.map_congr_left fun l _ => neat_neat l

/-- Code with a string over two lines, signs, and numbers with points at their ends. -/
def thickCode : List Char :=
  "if(x<-1.)\x7by=a .b[ 2 ]-  -3;s='it\\'s\\\n';\x7d// done\t\nelse \x7b z=1. -2./ 3 ;$ \x7d".toList

theorem map_neat_statements_thickCode :
    (∀ t ∈ (lex .body ⟨1, 1⟩ thickCode).tokens, t.kind ≠ .invalid) ∧
    NumbersClear ((lex .body ⟨1, 1⟩ thickCode).tokens.map Token.lexeme) ∧
    ((lex .body ⟨1, 1⟩ (unlines (statements 2 thickCode))).all.map fun t => neat t.lexeme) =
      (lex .body ⟨1, 1⟩ thickCode).all.map fun t => neat t.lexeme := by
  have hkinds : ∀ t ∈ (lex .body ⟨1, 1⟩ thickCode).tokens, t.kind ≠ .invalid := by decide +kernel
  have hclear : NumbersClear ((lex .body ⟨1, 1⟩ thickCode).tokens.map Token.lexeme) := by
    decide +kernel
  exact ⟨hkinds, hclear, (map_neat_statements_iff hkinds 2 ⟨1, 1⟩).2 hclear⟩

end Partitura.Layout
