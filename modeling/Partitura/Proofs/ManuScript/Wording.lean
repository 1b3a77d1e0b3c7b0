import Partitura.Proofs.ManuScript.Scripts
import Partitura.Proofs.Text.Lines

/-!
# Texts that are phrases

Code is put together from texts, so that it can be told from the parts what the whole is read as.
`Says s ks` says that the text `s` has no faults and tokens of the kinds `ks`. The tokens of two
texts side by side are those of both, if the last token of the first ends where the second starts
(`lexemes_append`); a line feed ends every token, so lines can be looked at one by one
(`lexemes_unlines`). `Wording σ s` says that the text is a phrase of the grammar, and for each rule
there is a lemma on how to write such a phrase. `Listing` says the like of lines.
-/

namespace Partitura.ManuScript

open Grammar Lexer

variable {k op : Kind} {s t head foot : String} {c : Char} {ks : List Kind} {n : Nat} {σ : Symbol}

/-! ## Texts side by side -/

namespace Lexer

/-- The tokens of two texts side by side are those of both, if the last token of the first ends
where the second starts. -/
theorem lexemes_append {a b : List Char} (ha : Faultless .body a) (hb : Faultless .body b)
    (h : ∀ l ∈ (lexemes .body a).getLast?, Ends l.1 b) :
    Faultless .body (a ++ b) ∧ lexemes .body (a ++ b) = lexemes .body a ++ lexemes .body b := by
  induction hn : a.length using Nat.strong_induction_on generalizing a with | _ n ih
  cases a with
  | nil => exact ⟨hb, by rw [lexemes_nil]; rfl⟩
  | cons c r =>
    rcases first_of_faultless ha with ⟨hgap, hr⟩ | ⟨k, v, t, rfl, hk, hspelled, hends, ht⟩
    · rw [lexemes_gap _ hgap] at h ⊢
      obtain ⟨hok, hlex⟩ := ih r.length (by rw [← hn, List.length_cons]; omega) hr h rfl
      rw [List.cons_append, lexemes_gap _ hgap]
      exact ⟨faultless_gap hgap hok, hlex⟩
    · rw [← List.cons_append, lexemes_spelled hspelled hends] at h ⊢
      have hlast : ∀ l ∈ (lexemes .body t).getLast?, Ends l.1 b := fun l hl => h l (by
        rw [List.getLast?_cons, Option.mem_def.1 hl]
        rfl)
      obtain ⟨hok, hlex⟩ :=
        ih t.length (by rw [← hn, List.length_cons, List.length_append]; omega) ht hlast rfl
      -- the first token is the last one as well, or ends inside of the first text
      have hends' : Ends k (t ++ b) := by
        cases t with
        | nil =>
          rw [lexemes_nil] at h
          exact h (k, c :: v) rfl
        | cons x t => exact hends
      rw [List.append_assoc, lexemes_spelled hspelled hends', hlex]
      exact ⟨faultless_spelled hspelled hk hends' hok, rfl⟩

/-- The tokens of lines are those of each line. -/
theorem lexemes_unlines {ls : List (List Char)} (h : ∀ l ∈ ls, Faultless .body l) :
    Faultless .body (Text.unlines ls) ∧
      lexemes .body (Text.unlines ls) = ls.flatMap (lexemes .body) := by
  induction ls with
  | nil => exact ⟨faultless_nil .body, lexemes_nil .body⟩
  | cons l ls ih =>
    obtain ⟨hok, hlex⟩ := ih fun m hm => h m (List.mem_cons_of_mem _ hm)
    have hl := h l List.mem_cons_self
    by_cases hls : ls = []
    · simpa [hls] using hl
    · rw [Text.unlines_cons hls, List.flatMap_cons, ← hlex,
        ← lexemes_gap .body (show isGap '\n' = true by decide) (Text.unlines ls)]
      exact lexemes_append hl (faultless_gap (by decide) hok) fun t _ =>
        ends_cons.2 (mayFollow_newline t.1)

end Lexer

/-- The text has no faults, and tokens of these kinds. -/
def Says (s : String) (ks : List Kind) : Prop := Faultless .body s.toList ∧ kinds s.toList = ks

instance (s : String) (ks : List Kind) : Decidable (Says s ks) :=
  inferInstanceAs (Decidable (Faultless .body s.toList ∧ kinds s.toList = ks))

theorem says_spelled (h : Spelled k s.toList) (hk : k ≠ .invalid) : Says s [k] := by
  have hok := faultless_spelled h hk (ends_nil k) (faultless_nil .body)
  have hlex := lexemes_spelled h (ends_nil k)
  rw [List.append_nil] at hok hlex
  exact ⟨hok, by rw [kinds, hlex, lexemes_nil]; rfl⟩

theorem says_empty : Says "" [] :=
  ⟨faultless_nil .body, by rw [kinds, String.toList_empty, lexemes_nil]; rfl⟩

/-- A token of one character. -/
theorem says_mark (hs : s.toList = [c]) (hc : single? .body c = some k) (hk : k ≠ .invalid) :
    Says s [k] :=
  says_spelled (hs ▸ .single hc) hk

theorem Says.gap (h : Says s ks) {g : String} (hg : g.toList = [c]) (hc : isGap c = true) :
    Says (g ++ s) ks := by
  rw [Says, String.toList_append, hg, List.singleton_append, kinds, lexemes_gap _ hc]
  exact ⟨faultless_gap hc h.1, h.2⟩

theorem Says.append {ls : List Kind} (hs : Says s ks) (ht : Says t ls)
    (h : ∀ k ∈ ks.getLast?, Ends k t.toList) : Says (s ++ t) (ks ++ ls) := by
  have hlast : ∀ l ∈ (lexemes .body s.toList).getLast?, Ends l.1 t.toList := fun l hl => h l.1 (by
    rw [← hs.2, kinds, List.getLast?_map, Option.mem_def.1 hl]
    rfl)
  obtain ⟨hok, hlex⟩ := lexemes_append hs.1 ht.1 hlast
  rw [Says, String.toList_append, kinds, hlex, List.map_append]
  exact ⟨hok, congrArg₂ _ hs.2 ht.2⟩

/-- The characters that end every token but a comment. -/
def breaks : List Char := "()[],; ".toList

theorem mayFollow_break (hk : k ≠ .comment) (hc : c ∈ breaks) : mayFollow k c = true := by
  have hall : ∀ k ∈ Kind.all, k ≠ .comment → breaks.all (mayFollow k) = true := by decide
  exact List.all_eq_true.1 (hall k (by cases k <;> decide) hk) c hc

/-- The second text starts with a character that ends the tokens of the first. -/
theorem Says.append_break {ls : List Kind} (hs : Says s ks) (hks : .comment ∉ ks) (ht : Says t ls)
    (hc : c ∈ breaks) (hhead : t.toList.head? = some c) : Says (s ++ t) (ks ++ ls) :=
  hs.append ht fun k hk x hx => by
    rw [hhead] at hx
    cases hx
    exact mayFollow_break (fun h => hks (h ▸ List.mem_of_getLast? hk)) hc

/-- The kinds of marks that no character makes longer. -/
def firm : List Kind := [.lparen, .lbracket, .rbracket, .comma, .dot]

theorem Says.after_mark {m : String} {ls : List Kind} (hm : Says m [k]) (hk : k ∈ firm)
    (ht : Says t ls) : Says (m ++ t) (k :: ls) :=
  hm.append ht fun j hj x _ => by
    cases hj
    simp only [firm, List.mem_cons, List.not_mem_nil, or_false] at hk
    rcases hk with rfl | rfl | rfl | rfl | rfl <;> rfl

/-- An operator with spaces around it. -/
theorem Says.operation {o : String} {ls : List Kind} (hs : Says s ks) (hks : .comment ∉ ks)
    (ho : Says o [k]) (hk : k ∈ operators n) (ht : Says t ls) :
    Says (s ++ (" " ++ o ++ (" " ++ t))) (ks ++ k :: ls) := by
  have hright : Says (" " ++ o ++ (" " ++ t)) ([k] ++ ls) :=
    (ho.gap rfl (by decide)).append_break (by simpa using (not_mem_linkKinds_of_operator hk).1.symm)
      (ht.gap rfl (by decide))
      (c := ' ') (by decide) (by simp)
  exact hs.append_break hks hright (c := ' ') (by decide) (by simp)

/-! ## Kinds that are phrases -/

/-- A phrase has no comments. -/
theorem Grammar.Derives.ne_comment {ts : List Token} (h : Derives σ ts) :
    ∀ t ∈ ts, t.kind ≠ .comment := by
  have hall : ∀ k ∈ signs ++ atoms, k ≠ .comment := by decide
  induction h with
  | atom ht =>
    intro t hmem
    rw [List.mem_singleton.1 hmem]
    exact hall _ (List.mem_append_right _ ht)
  | sign ht _ ih => exact List.forall_mem_cons.2 ⟨hall _ (List.mem_append_left _ ht), ih⟩
  | operation _ hop _ iha ihb =>
    exact List.forall_mem_append.2
      ⟨iha, List.forall_mem_cons.2 ⟨(not_mem_linkKinds_of_operator hop).1, ihb⟩⟩
  | _ => simp_all [or_imp, forall_and]

namespace Fits

variable {ls : List Kind}

theorem comment_not_mem (h : Fits σ ks) : .comment ∉ ks := by
  intro hmem
  have hderives := h (ks.map fun k => ⟨k, "", ⟨1, 1⟩⟩) (by rw [List.map_map]; exact List.map_id ks)
  exact hderives.ne_comment ⟨.comment, "", ⟨1, 1⟩⟩ (List.mem_map.2 ⟨_, hmem, rfl⟩) rfl

theorem atom (hk : k ∈ atoms) : Fits .chain [k] := by
  intro ts hts
  obtain ⟨t, rfl, rfl⟩ := List.map_eq_singleton_iff.1 hts
  exact .atom hk

/-- A token before what fits, and one behind it. -/
theorem enclosed {τ : Symbol} {k k' : Kind} (h : Fits σ ks)
    (hτ : ∀ {t t' : Token} {us : List Token}, t.kind = k → Derives σ us → t'.kind = k' →
      Derives τ (t :: (us ++ [t']))) :
    Fits τ (k :: (ks ++ [k'])) := by
  intro ts hts
  simp only [List.map_eq_append_iff, List.map_eq_cons_iff, List.map_eq_nil_iff] at hts
  obtain ⟨t, _, rfl, ht, us, _, rfl, hus, t', _, rfl, ht', rfl⟩ := hts
  exact hτ ht (h us hus) ht'

theorem member (h : Fits .chain ks) : Fits .chain (ks ++ [.dot, .identifier]) := by
  intro ts hts
  simp only [List.map_eq_append_iff, List.map_eq_cons_iff, List.map_eq_nil_iff] at hts
  obtain ⟨a, _, rfl, ha, d, _, rfl, hd, i, _, rfl, hi, rfl⟩ := hts
  exact .member (h a ha) hd hi

theorem index (h : Fits .chain ks) (h' : Fits (.expression 0) ls) :
    Fits .chain (ks ++ .lbracket :: (ls ++ [.rbracket])) := by
  intro ts hts
  simp only [List.map_eq_append_iff, List.map_eq_cons_iff, List.map_eq_nil_iff] at hts
  obtain ⟨a, _, rfl, ha, l, _, rfl, hl, b, _, rfl, hb, r, _, rfl, hr, rfl⟩ := hts
  exact .index (h a ha) hl (h' b hb) hr

theorem call (h : Fits .chain ks) (h' : Fits .arguments ls) :
    Fits .chain (ks ++ .lparen :: (ls ++ [.rparen])) := by
  intro ts hts
  simp only [List.map_eq_append_iff, List.map_eq_cons_iff, List.map_eq_nil_iff] at hts
  obtain ⟨a, _, rfl, ha, l, _, rfl, hl, b, _, rfl, hb, r, _, rfl, hr, rfl⟩ := hts
  exact .call (h a ha) hl (h' b hb) hr

theorem link (h : Fits .chain ks) (hn : n ≤ 5) : Fits (.expression n) ks :=
  fun ts hts => Derives.loosen hn le_rfl (.link (h ts hts))

theorem operation (h : Fits (.expression n) ks) (hop : op ∈ operators n)
    (h' : Fits (.expression (n + 1)) ls) : Fits (.expression n) (ks ++ op :: ls) := by
  intro ts hts
  simp only [List.map_eq_append_iff, List.map_eq_cons_iff] at hts
  obtain ⟨a, _, rfl, ha, o, b, rfl, rfl, hb⟩ := hts
  exact .operation (h a ha) hop (h' b hb)

/-- Two operands with a comparison or an assignment between them. -/
theorem comparison (h : Fits .chain ks) (hop : op ∈ operators 2) (h' : Fits (.expression 3) ls) :
    Fits (.expression 0) (ks ++ op :: ls) :=
  fun ts hts =>
    Derives.loosen (Nat.zero_le 2) (by decide) ((h.link (by decide)).operation hop h' ts hts)

theorem noArgument : Fits .arguments [] := fun _ hts => List.map_eq_nil_iff.1 hts ▸ .noArgument

theorem firstArgument (h : Fits (.expression 0) ks) (h' : Fits .moreArguments ls) :
    Fits .arguments (ks ++ ls) := by
  intro ts hts
  obtain ⟨a, b, rfl, ha, hb⟩ := List.map_eq_append_iff.1 hts
  exact .firstArgument (h a ha) (h' b hb)

theorem lastArgument : Fits .moreArguments [] :=
  fun _ hts => List.map_eq_nil_iff.1 hts ▸ .lastArgument

theorem nextArgument (h : Fits (.expression 0) ks) (h' : Fits .moreArguments ls) :
    Fits .moreArguments (.comma :: (ks ++ ls)) := by
  intro ts hts
  simp only [List.map_eq_append_iff, List.map_eq_cons_iff] at hts
  obtain ⟨c, _, rfl, hc, a, b, rfl, ha, hb⟩ := hts
  exact .nextArgument hc (h a ha) (h' b hb)

theorem simple (h : Fits (.expression 0) ks) : Fits .statement (ks ++ [.semicolon]) := by
  intro ts hts
  simp only [List.map_eq_append_iff, List.map_eq_cons_iff, List.map_eq_nil_iff] at hts
  obtain ⟨a, _, rfl, ha, c, _, rfl, hc, rfl⟩ := hts
  exact .simple (h a ha) hc

theorem returnValue (h : Fits (.expression 0) ks) :
    Fits .statement (.kwReturn :: (ks ++ [.semicolon])) := h.enclosed .returnValue

theorem noStatement : Fits .statements [] := fun _ hts => List.map_eq_nil_iff.1 hts ▸ .noStatement

theorem nextStatement (h : Fits .statement ks) (h' : Fits .statements ls) :
    Fits .statements (ks ++ ls) := by
  intro ts hts
  obtain ⟨a, b, rfl, ha, hb⟩ := List.map_eq_append_iff.1 hts
  exact .nextStatement (h a ha) (h' b hb)

theorem block (h : Fits .statements ks) : Fits .block (.lbrace :: (ks ++ [.rbrace])) :=
  h.enclosed .block

theorem ifThen (h : Fits (.expression 0) ks) (h' : Fits .block ls) :
    Fits .statement (.kwIf :: .lparen :: (ks ++ .rparen :: ls)) := by
  intro ts hts
  simp only [List.map_eq_append_iff, List.map_eq_cons_iff] at hts
  obtain ⟨k, _, rfl, hk, l, _, rfl, hl, a, _, rfl, ha, r, b, rfl, hr, hb⟩ := hts
  have hconditional := Derives.conditional hl (h a ha) hr (h' b hb) .noElse
  rw [List.append_nil] at hconditional
  exact .ifThen hk hconditional

theorem forEach (h : Fits (.expression 0) ks) (h' : Fits .block ls) :
    Fits .statement (.kwFor :: .kwEach :: .identifier :: .kwIn :: (ks ++ ls)) := by
  intro ts hts
  simp only [List.map_eq_append_iff, List.map_eq_cons_iff] at hts
  obtain ⟨k, _, rfl, hk, e, _, rfl, he, x, _, rfl, hx, i, _, rfl, hi, a, b, rfl, ha, hb⟩ := hts
  exact .forEach hk he hx hi (h a ha) (h' b hb)

end Fits

/-! ## Lines -/

/-- The lines have no faults, and the kinds of their tokens are as demanded. -/
structure Listing (P : List Kind → Prop) (ls : List String) : Prop where
  faultless : ∀ l ∈ ls, Faultless .body l.toList
  kinds : P (ls.flatMap fun l => kinds l.toList)

theorem Says.line {P : List Kind → Prop} (h : Says s ks) (hks : P ks) : Listing P [s] :=
  ⟨List.forall_mem_singleton.2 h.1, by rwa [List.flatMap_singleton, h.2]⟩

namespace Listing

variable {P Q R : List Kind → Prop} {ls ms : List String}

theorem append (h : Listing P ls) (h' : Listing Q ms) (happend : ∀ {a b}, P a → Q b → R (a ++ b)) :
    Listing R (ls ++ ms) :=
  ⟨List.forall_mem_append.2
    ⟨h.faultless, h'.faultless⟩, by rw [List.flatMap_append]; exact happend h.kinds h'.kinds⟩

theorem noStatement : Listing (Fits .statements) [] := ⟨List.forall_mem_nil _, .noStatement⟩

theorem nextStatement (h : Listing (Fits .statement) ls) (h' : Listing (Fits .statements) ms) :
    Listing (Fits .statements) (ls ++ ms) :=
  h.append h' Fits.nextStatement

/-- A block, from the line that opens it to the one that closes it. -/
theorem block (ks : List Kind) (hhead : Says head (ks ++ [.lbrace]))
    (h : Listing (Fits .statements) ls) (hfoot : Says foot [.rbrace])
    (hblock : ∀ {a}, Fits .block a → P (ks ++ a)) : Listing P (head :: (ls ++ [foot])) := by
  have hopened : Listing (fun a => a = ks ++ [.lbrace]) [head] := hhead.line rfl
  have hclosed : Listing (fun a => ∃ b, Fits .statements b ∧ a = b ++ [.rbrace]) (ls ++ [foot]) :=
    h.append (hfoot.line (P := (· = [.rbrace])) rfl) fun hb ha => ⟨_, hb, by rw [ha]⟩
  refine hopened.append hclosed ?_
  rintro _ _ rfl ⟨b, hb, rfl⟩
  rw [List.append_assoc]
  exact hblock hb.block

/-- An `if` that compares two operands, over several lines. -/
theorem ifThen {a b : Kind} (ha : a ∈ atoms) (hop : op ∈ operators 2) (hb : b ∈ atoms)
    (hhead : Says head [.kwIf, .lparen, a, op, b, .rparen, .lbrace])
    (h : Listing (Fits .statements) ls) (hfoot : Says foot [.rbrace]) :
    Listing (Fits .statement) (head :: (ls ++ [foot])) :=
  block [.kwIf, .lparen, a, op, b, .rparen] hhead h hfoot
    (((Fits.atom ha).comparison hop ((Fits.atom hb).link (by decide))).ifThen ·)

/-- A loop over what a variable holds, over several lines. -/
theorem forEach (hhead : Says head [.kwFor, .kwEach, .identifier, .kwIn, .identifier, .lbrace])
    (h : Listing (Fits .statements) ls) (hfoot : Says foot [.rbrace]) :
    Listing (Fits .statement) (head :: (ls ++ [foot])) :=
  block [.kwFor, .kwEach, .identifier, .kwIn, .identifier] hhead h hfoot
    (((Fits.atom (by decide)).link (by decide)).forEach ·)

theorem script (h : Listing (Fits .statement) ls) : Listing Script ls :=
  ⟨h.faultless, by simpa using Script.statement h.kinds .nil⟩

theorem empty : Listing Script [] := ⟨List.forall_mem_nil _, .nil⟩

theorem blank : Listing Script [""] := says_empty.line .nil

theorem remark (hs : "//".toList <+: s.toList) (hline : '\n' ∉ s.toList) : Listing Script [s] := by
  obtain ⟨r, hr⟩ := hs
  have hspelled : Spelled .comment s.toList := by
    rw [← hr] at hline ⊢
    exact .comment fun hmem => hline (List.mem_append_right _ hmem)
  exact (says_spelled hspelled (by decide)).line (.remark .nil)

theorem follow (h : Listing Script ls) (h' : Listing Script ms) : Listing Script (ls ++ ms) :=
  h.append h' Script.append

/-- Lines that are a script have no syntax error. -/
theorem checkBody (h : Listing Script ls) (env : Surroundings) (p : Position) :
    ∀ d ∈ checkBody env p (String.ofList (Text.unlines (ls.map String.toList))),
      Text.hasStart d.code "MS-E" = false := by
  have hlines : ∀ l ∈ ls.map String.toList, Faultless .body l := List.forall_mem_map.2 h.faultless
  obtain ⟨hok, hlex⟩ := lexemes_unlines hlines
  refine checkBody_of_script (by rwa [String.toList_ofList]) ?_ env p
  rw [String.toList_ofList, ManuScript.kinds, hlex, List.map_flatMap, List.flatMap_map]
  exact h.kinds

end Listing

/-! ## Phrases in one line -/

/-- The text is a phrase of the kind `σ`. -/
def Wording (σ : Symbol) (s : String) : Prop := ∃ ks, Says s ks ∧ Fits σ ks

/-- The kinds of a name with members behind it. -/
def path : Nat → List Kind
  | 0 => [.identifier]
  | n + 1 => path n ++ [.dot, .identifier]

theorem fits_path (n : Nat) : Fits .chain (path n) := by
  induction n with
  | zero => exact .atom (by decide)
  | succ n ih => exact ih.member

theorem wording_atom (h : Says s [k]) (hk : k ∈ atoms) : Wording .chain s := ⟨[k], h, .atom hk⟩

theorem wording_path (n : Nat) (h : Says s (path n)) : Wording .chain s := ⟨path n, h, fits_path n⟩

namespace Wording

theorem tab (h : Wording σ s) : Wording σ ("\t" ++ s) := by
  obtain ⟨ks, hs, hfits⟩ := h
  exact ⟨ks, hs.gap rfl (by decide), hfits⟩

theorem link (h : Wording .chain s) (hn : n ≤ 5) : Wording (.expression n) s := by
  obtain ⟨ks, hs, hfits⟩ := h
  exact ⟨ks, hs, hfits.link hn⟩

theorem operation {o : String} (hs : Wording (.expression n) s) (ho : Says o [k])
    (hk : k ∈ operators n) (ht : Wording (.expression (n + 1)) t) :
    Wording (.expression n) (s ++ (" " ++ o ++ (" " ++ t))) := by
  obtain ⟨ks, hs, hks⟩ := hs
  obtain ⟨ls, ht, hls⟩ := ht
  exact ⟨ks ++ k :: ls, hs.operation hks.comment_not_mem ho hk ht, hks.operation hk hls⟩

/-- A text in brackets behind a phrase, with what follows them. -/
theorem says_index {u : String} {ms : List Kind} (hs : Says s ks) (hks : .comment ∉ ks)
    (ht : Wording (.expression 0) t) (hu : Says u ms) : ∃ ls, Fits (.expression 0) ls ∧
      Says (s ++ ("[" ++ (t ++ ("]" ++ u)))) (ks ++ .lbracket :: (ls ++ .rbracket :: ms)) := by
  obtain ⟨ls, ht, hls⟩ := ht
  have hclosed : Says ("]" ++ u) (.rbracket :: ms) :=
    .after_mark (says_mark rfl rfl (by decide)) (by decide) hu
  have hinside : Says (t ++ ("]" ++ u)) (ls ++ .rbracket :: ms) :=
    ht.append_break hls.comment_not_mem hclosed (c := ']') (by decide) (by simp)
  have hindex : Says ("[" ++ (t ++ ("]" ++ u))) (.lbracket :: (ls ++ .rbracket :: ms)) :=
    .after_mark (says_mark rfl rfl (by decide)) (by decide) hinside
  exact ⟨ls, hls, hs.append_break hks hindex (c := '[') (by decide) (by simp)⟩

theorem index (hs : Wording .chain s) (ht : Wording (.expression 0) t) :
    Wording .chain (s ++ ("[" ++ (t ++ "]"))) := by
  obtain ⟨ks, hs, hks⟩ := hs
  obtain ⟨ls, hls, hsays⟩ := says_index hs hks.comment_not_mem ht says_empty
  exact ⟨_, hsays, hks.index hls⟩

/-- A member of what stands at an index. -/
theorem indexMember {m : String} (hs : Wording .chain s) (ht : Wording (.expression 0) t)
    (hm : Says m [.identifier]) : Wording .chain (s ++ ("[" ++ (t ++ ("]" ++ ("." ++ m))))) := by
  obtain ⟨ks, hs, hks⟩ := hs
  have hmember : Says ("." ++ m) [.dot, .identifier] :=
    .after_mark (says_mark rfl rfl (by decide)) (by decide) hm
  obtain ⟨ls, hls, hsays⟩ := says_index hs hks.comment_not_mem ht hmember
  exact ⟨_, hsays, by simpa using (hks.index hls).member⟩

/-- The arguments after the first one, with the parenthesis that closes the list. -/
def closing (ss : List String) : String := ss.foldr (fun s t => "," ++ (" " ++ (s ++ t))) ")"

theorem join_append_paren (s : String) (ss : List String) :
    Text.join ", " (s :: ss) ++ ")" = s ++ closing ss := by
  induction ss generalizing s with
  | nil => simp [Text.join, closing]
  | cons t ss ih =>
    have hjoin : Text.join ", " (s :: t :: ss) = s ++ ("," ++ (" " ++ Text.join ", " (t :: ss))) :=
      String.toList_injective (by simp [Text.join])
    rw [hjoin, String.append_assoc, String.append_assoc, String.append_assoc, ih]
    rfl

theorem says_closing {ss : List String} (h : ∀ s ∈ ss, Wording (.expression 0) s) :
    ∃ ks, Fits .moreArguments ks ∧ Says (closing ss) (ks ++ [.rparen]) ∧ ∃ c ∈ breaks,
      (closing ss).toList.head? = some c := by
  induction ss with
  | nil => exact ⟨[], .lastArgument, says_mark rfl rfl (by decide), ')', by decide, rfl⟩
  | cons s ss ih =>
    obtain ⟨ks, hs, hks⟩ := h s List.mem_cons_self
    obtain ⟨ls, hls, hsays, c, hc, hhead⟩ := ih fun t ht => h t (List.mem_cons_of_mem _ ht)
    have hrest := hs.append_break hks.comment_not_mem hsays hc hhead
    rw [← List.append_assoc] at hrest
    refine ⟨.comma :: (ks ++ ls), hks.nextArgument hls, ?_, ',', by decide, by simp [closing]⟩
    exact .after_mark (says_mark rfl rfl (by decide)) (by decide) (hrest.gap rfl (by decide))

theorem call {ss : List String} (hs : Wording .chain s)
    (hss : ∀ t ∈ ss, Wording (.expression 0) t) :
    Wording .chain (s ++ ("(" ++ (Text.join ", " ss ++ ")"))) := by
  obtain ⟨ks, hs, hks⟩ := hs
  have harguments :
      ∃ ls, Fits .arguments ls ∧ Says (Text.join ", " ss ++ ")") (ls ++ [.rparen]) := by
    cases ss with
    | nil => exact ⟨[], .noArgument, says_mark rfl rfl (by decide)⟩
    | cons t ss =>
      obtain ⟨ls, ht, hls⟩ := hss t List.mem_cons_self
      obtain ⟨ms, hms, hsays, c, hc, hhead⟩ :=
        says_closing fun u hu => hss u (List.mem_cons_of_mem _ hu)
      refine ⟨ls ++ ms, hls.firstArgument hms, ?_⟩
      rw [join_append_paren, List.append_assoc]
      exact ht.append_break hls.comment_not_mem hsays hc hhead
  obtain ⟨ls, hls, hsays⟩ := harguments
  have hlist : Says ("(" ++ (Text.join ", " ss ++ ")")) (.lparen :: (ls ++ [.rparen])) :=
    .after_mark (says_mark rfl rfl (by decide)) (by decide) hsays
  exact ⟨_, hs.append_break hks.comment_not_mem hlist (c := '(') (by decide) (by simp),
    hks.call hls⟩

theorem ended (h : Wording (.expression 0) s) : Wording .statement (s ++ ";") := by
  obtain ⟨ks, hs, hks⟩ := h
  exact ⟨_,
    hs.append_break hks.comment_not_mem (says_mark rfl rfl (by decide)) (c := ';') (by decide) rfl,
    hks.simple⟩

theorem assignment (hs : Wording .chain s) (ht : Wording (.expression 3) t) :
    Wording .statement (s ++ " = " ++ t ++ ";") := by
  obtain ⟨ks, hs, hks⟩ := hs
  obtain ⟨ls, ht, hls⟩ := ht
  have hassign : .assign ∈ operators 2 := by decide
  have hwhole : Wording (.expression 0) (s ++ (" " ++ "=" ++ (" " ++ t))) :=
    ⟨_, hs.operation hks.comment_not_mem (says_mark rfl rfl (by decide)) hassign ht,
      hks.comparison hassign hls⟩
  have htext : s ++ (" " ++ "=" ++ (" " ++ t)) ++ ";" = s ++ " = " ++ t ++ ";" :=
    String.toList_injective (by simp)
  exact htext ▸ hwhole.ended

theorem line (h : Wording σ s) : Listing (Fits σ) [s] := by
  obtain ⟨ks, hs, hks⟩ := h
  exact hs.line hks

/-- Statements, one in each line. -/
theorem lines {ls : List String} (h : ∀ l ∈ ls, Wording .statement l) :
    Listing (Fits .statements) ls := by
  induction ls with
  | nil => exact .noStatement
  | cons l ls ih =>
    exact (h l List.mem_cons_self).line.nextStatement
      (ih fun m hm => h m (List.mem_cons_of_mem _ hm))

end Wording

end Partitura.ManuScript
