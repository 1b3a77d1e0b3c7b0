import Partitura.Proofs.Score.PluginCode

/-!
# The tokens of the import plugin

No line of the plugin has a lexical fault, whatever the sizes of the page are (`Passage.faultless`),
and a text of the score is a token of its own: the tokens around it are the same whatever it is
(`lexemes_call_literal`). A size may be more than one token, such as `1e+20`, but numerals have no
faults and start no comment (`clean_of_isNumeral`).
-/

namespace Partitura.ManuScript

open Lexer

variable {s t : String} {c : Char}

/-! ## Texts without faults and comments -/

/-- The text has neither faults nor comments. -/
def Clean (s : String) : Prop := Faultless .body s.toList ∧ .comment ∉ kinds s.toList

instance (s : String) : Decidable (Clean s) :=
  inferInstanceAs (Decidable (Faultless .body s.toList ∧ .comment ∉ kinds s.toList))

/-- Marks after which something is to follow, and that it cannot make longer. -/
def opening : List Kind := [.lparen, .lbracket, .comma, .assign, .dot]

/-- The text has neither faults nor comments, and something is to follow. -/
def Open (s : String) : Prop := Clean s ∧ (kinds s.toList).getLast?.any (· ∈ opening) = true

instance (s : String) : Decidable (Open s) :=
  inferInstanceAs (Decidable (Clean s ∧ (kinds s.toList).getLast?.any (· ∈ opening) = true))

theorem Says.clean {ks : List Kind} (h : Says s ks) (hks : .comment ∉ ks) : Clean s :=
  ⟨h.1, h.2 ▸ hks⟩

theorem clean_spelled {k : Kind} (h : Spelled k s.toList) (hk : k ≠ .invalid)
    (hcomment : k ≠ .comment) : Clean s :=
  (says_spelled h hk).clean (by simpa using hcomment.symm)

/-- The tokens of two texts side by side. -/
theorem Clean.beside (hs : Clean s) (ht : Clean t)
    (h : ∀ k ∈ (kinds s.toList).getLast?, Ends k t.toList) :
    Clean (s ++ t) ∧
      lexemes .body (s ++ t).toList = lexemes .body s.toList ++ lexemes .body t.toList := by
  have hlast : ∀ l ∈ (lexemes .body s.toList).getLast?, Ends l.1 t.toList := by
    intro l hl
    refine h l.1 ?_
    rw [kinds, List.getLast?_map, Option.mem_def.1 hl]
    rfl
  obtain ⟨hok, hlex⟩ := lexemes_append hs.1 ht.1 hlast
  rw [← String.toList_append] at hok hlex
  refine ⟨⟨hok, ?_⟩, hlex⟩
  rw [kinds, hlex, List.map_append, List.mem_append, not_or]
  exact ⟨hs.2, ht.2⟩

/-- The second text starts with a character that ends the tokens of the first. -/
theorem Clean.append (hs : Clean s) (ht : Clean t) (hc : c ∈ breaks)
    (hhead : t.toList.head? = some c) :
    Clean (s ++ t) ∧
      lexemes .body (s ++ t).toList = lexemes .body s.toList ++ lexemes .body t.toList := by
  refine hs.beside ht fun k hk x hx => ?_
  rw [hhead] at hx
  cases hx
  exact mayFollow_break (fun h => hs.2 (h ▸ List.mem_of_getLast? hk)) hc

theorem Open.append (hs : Open s) (ht : Clean t) :
    Clean (s ++ t) ∧
      lexemes .body (s ++ t).toList = lexemes .body s.toList ++ lexemes .body t.toList := by
  refine hs.1.beside ht fun k hk x _ => ?_
  have hopening := hs.2
  rw [Option.mem_def.1 hk, Option.any_some, decide_eq_true_eq] at hopening
  simp only [opening, List.mem_cons, List.not_mem_nil, or_false] at hopening
  rcases hopening with rfl | rfl | rfl | rfl | rfl <;> rfl

/-- What is to follow the second text is to follow both. -/
theorem Clean.append_open (hs : Clean s) (ht : Open t) (hc : c ∈ breaks)
    (hhead : t.toList.head? = some c) : Open (s ++ t) := by
  obtain ⟨hclean, hlex⟩ := hs.append ht.1 hc hhead
  have hkinds : kinds (s ++ t).toList = kinds s.toList ++ kinds t.toList := by
    rw [kinds, hlex, List.map_append, kinds, kinds]
  refine ⟨hclean, ?_⟩
  rw [hkinds, List.getLast?_append]
  have hlast := ht.2
  cases h : (kinds t.toList).getLast? with
  | none =>
    rw [h] at hlast
    cases hlast
  | some k => rwa [h] at hlast

theorem Clean.gap (h : Clean s) {g : String} (hg : g.toList = [c]) (hc : isGap c = true) :
    Clean (g ++ s) :=
  (Says.gap ⟨h.1, rfl⟩ hg hc).clean h.2

/-! ## Numerals -/

/-- A mark that a numeral may have. -/
theorem mark_of_isNumeral (hc : c ∈ ['.', '-', '+']) (r : List Char) :
    ∃ k, mark .body c r = .token k c [] ∧ k ≠ .invalid ∧ k ≠ .comment := by
  simp only [List.mem_cons, List.not_mem_nil, or_false] at hc
  have hpair : r.head?.bind (pair? c) = none := by
    rw [Option.bind_eq_none_iff]
    intro e _
    rcases hc with rfl | rfl | rfl <;> rfl
  rcases hc with rfl | rfl | rfl
  · exact ⟨.dot, mark_of_not_pair rfl hpair, by decide, by decide⟩
  · exact ⟨.minus, mark_of_not_pair rfl hpair, by decide, by decide⟩
  · exact ⟨.plus, mark_of_not_pair rfl hpair, by decide, by decide⟩

theorem front_of_isNumeral (hc : Number.isNumeral c = true) (r : List Char) :
    ∃ k v, front .body c r = .token k c v ∧ k ≠ .invalid ∧ k ≠ .comment := by
  rw [front_of_plain (ne_of_mem_of_class hc (by decide))]
  split
  · exact ⟨.number, _, rfl, by decide, by decide⟩
  next hnumber =>
  split
  · exact ⟨_, _, rfl, Kind.ofWord_ne rfl _, Kind.ofWord_ne rfl _⟩
  next hletter =>
  -- what is neither a digit nor a letter is a mark
  have hmark : c ∈ ['.', '-', '+'] := by
    rw [Number.isNumeral, Bool.or_eq_true, decide_eq_true_eq] at hc
    rcases hc with hdigit | hc
    · simp [Text.isDigit_of_ascii hdigit] at hnumber
    · have hall : ∀ c ∈ ".-+einfa".toList, c ∈ ['.', '-', '+'] ∨ Text.isLetter c = true :=
        Text.forall_mem_of_all (by decide)
      rcases hall c hc with hmark | hc
      · exact hmark
      · simp [hc] at hletter
  obtain ⟨k, hfront, hk⟩ := mark_of_isNumeral hmark r
  exact ⟨k, [], hfront, hk⟩

theorem clean_of_isNumeral (h : ∀ c ∈ s.toList, Number.isNumeral c = true) : Clean s := by
  have hclean (n : Nat) : ∀ cs : List Char, cs.length ≤ n → (∀ c ∈ cs, Number.isNumeral c = true) →
      Faultless .body cs ∧ .comment ∉ kinds cs := by
    induction n with
    | zero =>
      intro cs hlen _
      rw [List.eq_nil_of_length_eq_zero (Nat.le_zero.1 hlen), kinds, lexemes_nil]
      exact ⟨faultless_nil .body, by simp⟩
    | succ n ih =>
      intro cs hlen hcs
      cases cs with
      | nil => exact ⟨faultless_nil .body, by rw [kinds, lexemes_nil]; simp⟩
      | cons c r =>
        obtain ⟨k, v, hfront, hk, hcomment⟩ := front_of_isNumeral (hcs c List.mem_cons_self) r
        obtain ⟨hok, hkinds⟩ := ih ((c :: r).drop (c :: v).length) (by simp at hlen ⊢; omega)
          fun x hx => hcs x (List.mem_of_mem_drop hx)
        refine ⟨faultless_cons.2
          ⟨by rw [hfront]; simpa [isFaulty] using hk, by rw [hfront]; exact hok⟩, ?_⟩
        rw [kinds, lexemes_of_front_token hfront, List.map_cons, List.mem_cons, not_or]
        exact ⟨hcomment.symm, hkinds⟩
  exact hclean s.toList.length s.toList le_rfl h

end Partitura.ManuScript

namespace Partitura.Score.ImportPlugin

open ManuScript ManuScript.Lexer
open Number (Binary64)

variable {s : String} {as : List String}

/-! ## Lines -/

theorem open_marks : Open "(" ∧ Open " = " ∧ Open ", " ∧ Open "]." ∧ Open "staves[" := by
  decide +kernel

theorem clean_ends : Clean ";" ∧ Clean ");" ∧ Clean "docSetup = score.DocumentSetup;" := by
  decide +kernel

theorem clean_path {n : Nat} (h : Says s (path n)) : Clean s :=
  h.clean (fits_path n).comment_not_mem

theorem open_assignment (h : Clean s) : Open (s ++ " = ") :=
  h.append_open open_marks.2.1 (c := ' ') (by decide) (by simp)

theorem open_call (h : Clean s) : Open (s ++ "(") :=
  h.append_open open_marks.1 (c := '(') (by decide) (by simp)

/-- The fixed parts of sentences. -/
theorem open_parts :
    (∀ m ∈ methods, Open (m ++ "(")) ∧ (∀ p ∈ fetches, Open (p.1 ++ " = " ++ p.2 ++ "(")) ∧
    (∀ m ∈ members, Open (m ++ " = ")) ∧ ∀ m ∈ staffMembers, Open ("]." ++ m ++ " = ") := by
  refine ⟨fun m hm => open_call (clean_path ((vocabulary).methods m hm)), fun p hp => ?_,
    fun m hm => open_assignment (clean_path ((vocabulary).members m hm)), fun m hm => ?_⟩
  · obtain ⟨hx, n, -, hm⟩ := (vocabulary).fetches p hp
    exact open_call ((open_assignment (clean_path hx)).append (clean_path hm)).1
  · have hmember : Clean m := ((vocabulary).staffMembers m hm).clean (by decide)
    exact open_assignment (open_marks.2.2.2.1.append hmember).1

theorem clean_number (n : Int) : Clean (toString n) :=
  clean_of_isNumeral (Number.isNumeral_of_mem_toString n)

theorem clean_literal {t : String} (h : '\n' ∉ t.toList) : Clean (literal t) :=
  clean_spelled (spelled_literal h) (by decide) (by decide)

/-- What stands between the parentheses of a call, and what closes it. -/
theorem clean_arguments (h : ∀ a ∈ as, Clean a) : Clean (Text.join ", " as ++ ");") := by
  induction as with
  | nil => decide +kernel
  | cons a as ih =>
    have ha := h a List.mem_cons_self
    have ih := ih fun b hb => h b (List.mem_cons_of_mem a hb)
    cases as with
    | nil =>
      have htext : Text.join ", " [a] ++ ");" = a ++ ");" := by simp [Text.join]
      exact htext ▸ (ha.append clean_ends.2.1 (c := ')') (by decide) (by simp)).1
    | cons b as =>
      have htext :
          Text.join ", " (a :: b :: as) ++ ");" =
            a ++ (", " ++ (Text.join ", " (b :: as) ++ ");")) :=
        String.toList_injective (by simp [Text.join])
      have hrest : Clean (", " ++ (Text.join ", " (b :: as) ++ ");")) :=
        (open_marks.2.2.1.append ih).1
      exact htext ▸ (ha.append hrest (c := ',') (by decide) (by simp)).1

theorem call_eq (m : String) (as : List String) :
    call m as = m ++ "(" ++ (Text.join ", " as ++ ");") :=
  String.toList_injective (by simp [call])

theorem clean_call {m : String} (hm : Open (m ++ "(")) (has : ∀ a ∈ as, Clean a) :
    Clean (call m as) := by
  rw [call_eq]
  exact (hm.append (clean_arguments has)).1

section

variable {ts : List String} {xs : List Binary64} (ht : ∀ t ∈ ts, '\n' ∉ t.toList)
include ht

theorem Argument.clean {a : String} (ha : Argument ts xs a) : Clean a := by
  cases ha with
  | number n => exact clean_number n
  | word hw =>
    obtain ⟨k, hk, hsays⟩ := (vocabulary).words a hw
    have hall : ∀ k ∈ Grammar.atoms, k ≠ .comment := by decide
    exact hsays.clean (by simpa using (hall k hk).symm)
  | quoted hw =>
    rw [← literal_of_plain hw]
    exact clean_literal (hw.not_mem newline_mem_outer)
  | text h => exact clean_literal (ht _ h)
  | size => exact clean_of_isNumeral (Number.isNumeral_of_mem_render _)

theorem Sentence.clean {l : String} (hl : Sentence ts xs l) : Clean l := by
  obtain ⟨hmethods, hfetches, hmembers, hstaff⟩ := open_parts
  induction hl with
  | call hm has => exact clean_call (hmethods _ hm) fun a ha => (has a ha).clean ht
  | @fetch x m as hm has =>
    have hfetch : Open (x ++ " = " ++ m ++ "(") := hfetches (x, m) hm
    exact clean_call hfetch fun a ha => (has a ha).clean ht
  | @set m a hm ha =>
    have hvalue : Clean (a ++ ";") :=
      ((ha.clean ht).append clean_ends.1 (c := ';') (by decide) (by simp)).1
    rw [String.append_assoc]
    exact ((hmembers m hm).append hvalue).1
  | @setStaff m a i hm ha =>
    have hvalue : Clean (a ++ ";") :=
      ((ha.clean ht).append clean_ends.1 (c := ';') (by decide) (by simp)).1
    have hmember : Clean ("]." ++ m ++ " = " ++ (a ++ ";")) := ((hstaff m hm).append hvalue).1
    have hindex : Clean (toString i ++ ("]." ++ m ++ " = " ++ (a ++ ";"))) :=
      ((clean_number i).append hmember (c := ']') (by decide) (by simp)).1
    have htext : "staves[" ++ toString i ++ "]." ++ m ++ " = " ++ a ++ ";" =
        "staves[" ++ (toString i ++ ("]." ++ m ++ " = " ++ (a ++ ";"))) :=
      String.toList_injective (by simp)
    exact htext ▸ (open_marks.2.2.2.2.append hindex).1
  | indented _ ih => exact ih.gap rfl (by decide)

/-- No line of a passage has a lexical fault, if no text of the score has a line feed. -/
theorem Passage.faultless {ls : List String} (h : Passage ts xs ls) :
    ∀ l ∈ ls, Faultless .body l.toList := by
  induction h with
  | nil => exact List.forall_mem_nil _
  | append _ _ ih ih' => exact List.forall_mem_append.2 ⟨ih, ih'⟩
  | blank => exact List.forall_mem_singleton.2 (faultless_nil .body)
  | remark hl hplain => exact (Listing.remark hl (hplain.not_mem newline_mem_outer)).faultless
  | sentence hl => exact List.forall_mem_singleton.2 (hl.clean ht).1
  | adorned hls =>
    refine List.forall_mem_append.2
      ⟨List.forall_mem_append.2 ⟨?_, fun l hl => ((hls l hl).clean ht).1⟩, ?_⟩
    · exact List.forall_mem_singleton.2 (vocabulary).ifNote.1
    · exact List.forall_mem_singleton.2 (vocabulary).closed.1
  | entering => exact listing_entering.faultless
  | missingBars n => exact (listing_missingBars n).faultless
  | collecting => exact listing_collecting.faultless
  | setup => exact List.forall_mem_singleton.2 clean_ends.2.2.1
  | finding total index hs => exact (listing_finding (ht _ hs) total index).faultless
  | leaving => exact List.forall_mem_singleton.2 (vocabulary).returnTrue.1

end

/-! ## Texts among other tokens -/

/-- Arguments before another one. -/
def leading (as : List String) : String := as.foldr (fun a r => a ++ ", " ++ r) ""

/-- Arguments after another one, and what closes the call. -/
def trailing : List String → String
  | [] => ");"
  | b :: bs => ", " ++ (Text.join ", " (b :: bs) ++ ");")

theorem join_append_cons (as : List String) (x : String) (bs : List String) :
    Text.join ", " (as ++ x :: bs) ++ ");" = leading as ++ (x ++ trailing bs) := by
  induction as with
  | nil => cases bs <;> exact String.toList_injective (by simp [Text.join, leading, trailing])
  | cons a as ih =>
    have hne : ∃ y ys, as ++ x :: bs = y :: ys := List.exists_cons_of_ne_nil (by simp)
    obtain ⟨y, ys, hys⟩ := hne
    have hjoin :
        Text.join ", " (a :: y :: ys) ++ ");" = a ++ ", " ++ (Text.join ", " (y :: ys) ++ ");") :=
      String.toList_injective (by simp [Text.join])
    have hleading : leading (a :: as) = a ++ ", " ++ leading as := rfl
    rw [List.cons_append, hys, hjoin, ← hys, ih, hleading]
    exact String.append_assoc.symm

theorem open_leading (hs : Open s) (has : ∀ a ∈ as, Clean a) : Open (s ++ leading as) := by
  induction as generalizing s with
  | nil =>
    have htext : s ++ leading [] = s := String.append_empty
    rwa [htext]
  | cons a as ih =>
    have hfirst : Open (s ++ a ++ ", ") :=
      (hs.append (has a List.mem_cons_self)).1.append_open open_marks.2.2.1 (c := ',')
        (by decide) (by simp)
    have htext : s ++ leading (a :: as) = s ++ a ++ ", " ++ leading as :=
      String.toList_injective (by simp [leading])
    exact htext ▸ ih hfirst fun b hb => has b (List.mem_cons_of_mem a hb)

theorem clean_trailing {bs : List String} (h : ∀ b ∈ bs, Clean b) :
    Clean (trailing bs) ∧ ∃ c ∈ breaks, (trailing bs).toList.head? = some c := by
  cases bs with
  | nil => exact ⟨by decide +kernel, ')', by decide, rfl⟩
  | cons b bs =>
    exact ⟨(open_marks.2.2.1.append (clean_arguments h)).1, ',', by decide, by simp [trailing]⟩

/-- A text of the score is a token of its own among the arguments of a call, and the tokens before
and after it are the same whatever it is. -/
theorem lexemes_call_literal {m : String} {bs : List String} (hm : Open (m ++ "("))
    (has : ∀ a ∈ as, Clean a) (hbs : ∀ b ∈ bs, Clean b) {t : String} (ht : '\n' ∉ t.toList) :
    lexemes .body (call m (as ++ literal t :: bs)).toList =
      lexemes .body (m ++ "(" ++ leading as).toList ++ (.string, (literal t).toList) ::
        lexemes .body (trailing bs).toList := by
  obtain ⟨htrailing, c, hc, hhead⟩ := clean_trailing hbs
  obtain ⟨hclean, hlex⟩ := (clean_literal ht).append htrailing hc hhead
  have hliteral : lexemes .body (literal t).toList = [(.string, (literal t).toList)] := by
    have := lexemes_spelled (spelled_literal ht) (ends_nil .string)
    rwa [List.append_nil, lexemes_nil] at this
  have htext :
      call m (as ++ literal t :: bs) = m ++ "(" ++ leading as ++ (literal t ++ trailing bs) := by
    rw [call_eq, join_append_cons]
    exact String.append_assoc.symm
  rw [htext, ((open_leading hm has).append hclean).2, hlex, hliteral, List.singleton_append]

end Partitura.Score.ImportPlugin
