import Partitura.Proofs.Layout.Methods

/-!
# Members in the lines of a plugin

Which lines start a member, where it ends, and what is written for it. `pluginLines_member` is the
step of the layout at a member: whatever blanks stand in its head and whatever follows its last
quote, one line with its name and its text laid out is written. `members` lists the members that the
layout finds in a text.
-/

namespace Partitura.Layout

open ManuScript ManuScript.Lexer Text

variable {line name tail pre gap text post : List Char} {rest more : List (List Char)}

/-- The members that are found in the lines of a text, of which the first `skip` belong to a member
that was found already: their names and their texts. -/
def membersIn (skip : Nat) : List (List Char) → List (List Char × List Char)
  | [] => []
  | line :: rest =>
    match skip with
    | k + 1 => membersIn k rest
    | 0 =>
      match member? line rest with
      | some (name, text, n) => (name, text) :: membersIn n rest
      | none => membersIn 0 rest

/-- The members that are found in a text: their names and their texts. -/
def members (content : List Char) : List (List Char × List Char) := membersIn 0 (lines content)

theorem membersIn_drop (k : Nat) (ls : List (List Char)) :
    membersIn k ls = membersIn 0 (ls.drop k) := by
  induction ls generalizing k with
  | nil => simp [membersIn]
  | cons l r ih =>
    cases k with
    | zero => rfl
    | succ k => rw [membersIn, ih, List.drop_succ_cons]

theorem pluginLines_drop (k : Nat) (last : Option (List Char)) (ls : List (List Char)) :
    pluginLines k last ls = pluginLines 0 last (ls.drop k) := by
  induction ls generalizing k with
  | nil => simp [pluginLines]
  | cons l r ih =>
    cases k with
    | zero => rfl
    | succ k => rw [pluginLines, ih, List.drop_succ_cons]

/-! ## Heads -/

/-- The head of a member: blanks, a name, blanks and a quote. -/
structure HeadOf (line pre name gap tail : List Char) : Prop where
  line_eq : line = pre ++ (name ++ (gap ++ '"' :: tail))
  pre_blank : AllBlank pre
  name_ne_nil : name ≠ []
  name_word : ∀ c ∈ name, isWordChar c = true
  gap_ne_nil : gap ≠ []
  gap_blank : AllBlank gap

theorem isBlank_not_isWordChar {c : Char} (h : isBlank c = true) : isWordChar c = false := by
  by_contra hw
  rw [not_isBlank_of_isWordChar (by simpa using hw)] at h
  cases h

theorem exists_of_afterBlanks? {cs rest : List Char} (h : afterBlanks? cs = some rest) :
    ∃ b g, cs = b :: g ∧ isBlank b = true ∧ g.dropWhile isBlank = rest := by
  unfold afterBlanks? at h
  split at h
  · cases h
  next b g =>
  split at h
  · next hb => exact ⟨b, g, rfl, hb, Option.some.inj h⟩
  · cases h

theorem wordHead?_eq_some_iff :
    wordHead? line = some (name, tail) ↔ ∃ pre gap, HeadOf line pre name gap tail := by
  constructor
  · intro h
    rw [wordHead?, head?] at h
    split at h
    · cases h
    next c r hline =>
    split at h
    · next hc =>
      split at h
      · next rest hafter =>
        simp only [Option.some.injEq, Prod.mk.injEq] at h
        obtain ⟨rfl, rfl⟩ := h
        obtain ⟨b, g, hr, hb, hg⟩ := exists_of_afterBlanks? hafter
        refine ⟨line.takeWhile isBlank, b :: g.takeWhile isBlank, ?_,
          fun _ => List.mem_takeWhile_imp, by simp, ?_, by simp, ?_⟩
        · rw [← hg, List.cons_append (a := b), List.takeWhile_append_dropWhile, ← hr,
            List.cons_append, List.takeWhile_append_dropWhile, ← hline,
            List.takeWhile_append_dropWhile]
        · intro x hx
          rcases List.mem_cons.1 hx with rfl | hx
          · exact hc
          · exact List.mem_takeWhile_imp hx
        · exact allBlank_cons.2 ⟨hb, fun _ => List.mem_takeWhile_imp⟩
      · cases h
    · cases h
  · rintro ⟨pre, gap, h⟩
    obtain ⟨c, n, rfl⟩ := List.exists_cons_of_ne_nil h.name_ne_nil
    obtain ⟨b, g, rfl⟩ := List.exists_cons_of_ne_nil h.gap_ne_nil
    have hc := h.name_word c (by simp)
    have hb := h.gap_blank b (by simp)
    have hstart : line.dropWhile isBlank = c :: (n ++ (b :: g ++ '"' :: tail)) := by
      rw [h.line_eq, dropWhile_append_of_head h.pre_blank]
      · rfl
      · simpa using not_isBlank_of_isWordChar hc
    have hword : ∀ x ∈ n, isWordChar x = true := fun x hx => h.name_word x (by simp [hx])
    have hnext : ∀ x ∈ (b :: g ++ '"' :: tail).head?, isWordChar x = false := by
      simpa using isBlank_not_isWordChar hb
    have htake := takeWhile_append_of_head hword hnext
    have hdrop := dropWhile_append_of_head hword hnext
    have hgap : (g ++ '"' :: tail).dropWhile isBlank = '"' :: tail :=
      dropWhile_append_of_head (fun x hx => h.gap_blank x (by simp [hx])) (by simp; decide)
    have hafter : afterBlanks? (b :: g ++ '"' :: tail) = some ('"' :: tail) := by
      rw [List.cons_append, afterBlanks?, if_pos hb, hgap]
    rw [wordHead?, head?, hstart]
    simp only [hc, if_true, hdrop, hafter, htake]

/-- A head has a bare quote. -/
theorem HeadOf.scan_eq_none (h : HeadOf line pre name gap tail) : scan false line = none := by
  have hname : ∀ c ∈ name, c ≠ '\\' ∧ c ≠ '"' :=
    fun c hc =>
      ⟨ne_of_class (h.name_word c hc) (by decide), ne_of_class (h.name_word c hc) (by decide)⟩
  rw [h.line_eq, scan_allBlank_append h.pre_blank, scan_append_of_forall hname,
    scan_allBlank_append h.gap_blank]
  rfl

/-- A line with a head is not taken for a comment, a brace or a blank line. -/
theorem HeadOf.isPlain_eq_false (h : HeadOf line pre name gap tail) : isPlain line = false := by
  obtain ⟨c, n, hn⟩ := List.exists_cons_of_ne_nil h.name_ne_nil
  have hc : isWordChar c = true := h.name_word c (by rw [hn]; simp)
  have htrim : trim line = c :: trimRight (n ++ (gap ++ '"' :: tail)) := by
    rw [h.line_eq, trim_allBlank_append h.pre_blank, hn, List.cons_append,
      trim_cons (not_isBlank_of_isWordChar hc)]
  have hne : c ≠ '\x7b' ∧ c ≠ '\x7d' ∧ '/' ≠ c :=
    ⟨ne_of_class hc (by decide), ne_of_class hc (by decide), (ne_of_class hc (by decide)).symm⟩
  simp [isPlain, htrim, hne, List.isPrefixOf]

/-! ## The text of a member -/

theorem memberEnd?_eq_none_iff :
    memberEnd? tail rest = none ↔ ∀ l ∈ tail :: rest, scan false l ≠ none := by
  rw [memberEnd?, Option.map_eq_none_iff, quoteAt?_eq_none_iff, ne_eq, scan_unlines_eq_none]
  simp

theorem memberEnd?_eq_some_iff {n : Nat} :
    memberEnd? tail rest = some (text, n) ↔ ∃ after, unlines (tail :: rest) = text ++ '"' :: after ∧
      scan false text = some false ∧ n = text.countP (· == '\n') := by
  rw [memberEnd?, Option.map_eq_some_iff]
  constructor
  · rintro ⟨m, hm, h⟩
    obtain ⟨t, after, hsplit, rfl, hs⟩ := exists_of_quoteAt? hm
    rw [hsplit, List.take_left] at h
    cases h
    exact ⟨after, hsplit, hs, rfl⟩
  · rintro ⟨after, hsplit, hs, rfl⟩
    exact ⟨text.length, by rw [hsplit, quoteAt?_append hs], by rw [hsplit, List.take_left]⟩

/-- A text and a quote take one line more than there are line feeds in the text. -/
theorem length_lines_quote (hlines : lines (text ++ '"' :: post) = tail :: more)
    (hpost : '\n' ∉ post) : more.length = text.countP (· == '\n') := by
  have hlen := length_lines (text ++ '"' :: post)
  have hzero : post.countP (· == '\n') = 0 := by
    rw [List.countP_eq_zero]
    intro c hc
    simpa using ne_of_mem_of_not_mem hc hpost
  rw [hlines, List.countP_append, List.countP_cons_of_neg (by decide), hzero] at hlen
  simpa using hlen

/-- The lines of a member: its head, its text, a quote, and what stands in the same line after
it. -/
structure MemberOf (line : List Char) (more : List (List Char))
    (name text post : List Char) : Prop where
  head : ∃ pre gap tail, HeadOf line pre name gap tail ∧ lines (text ++ '"' :: post) = tail :: more
  post_line : '\n' ∉ post
  escaped : scan false text = some false

theorem MemberOf.member?_eq (h : MemberOf line more name text post) (rest : List (List Char)) :
    member? line (more ++ rest) = some (name, text, more.length) := by
  obtain ⟨⟨pre, gap, tail, hhead, hlines⟩, hpost, hs⟩ := h
  have hcount := length_lines_quote hlines hpost
  have hend : memberEnd? tail (more ++ rest) = some (text, more.length) := by
    refine memberEnd?_eq_some_iff.2 ?_
    by_cases hrest : rest = []
    · exact ⟨post, by rw [hrest, List.append_nil, ← hlines, unlines_lines], hs, hcount⟩
    · refine ⟨post ++ '\n' :: unlines rest, ?_, hs, hcount⟩
      rw [← List.cons_append, ← hlines, unlines_append (lines_ne_nil _) hrest, unlines_lines]
      simp
  rw [member?, hhead.isPlain_eq_false, wordHead?_eq_some_iff.2 ⟨pre, gap, hhead⟩]
  simp [hend]

theorem allBlank_indentation : AllBlank indentation := by decide

/-- The lines of a member that is written plainly. -/
theorem exists_lines_of_name {indent : List Char} (hindent : AllBlank indent) (hnl : '\n' ∉ indent)
    (hname : name ≠ []) (hword : ∀ c ∈ name, isWordChar c = true)
    (hs : scan false text = some false) :
    ∃ line more, lines (indent ++ name ++ [' ', '"'] ++ text ++ ['"']) = line :: more ∧
      MemberOf line more name text [] := by
  obtain ⟨tail, more, hlines⟩ := List.exists_cons_of_ne_nil (lines_ne_nil (text ++ ['"']))
  have hhead : '\n' ∉ indent ++ name ++ [' ', '"'] := by
    have hn : '\n' ∉ name := fun hc => absurd (hword _ hc) (by decide)
    simp [hnl, hn]
  have hwhole : HeadOf (indent ++ name ++ [' ', '"'] ++ tail) indent name [' '] tail :=
    ⟨by simp, hindent, hname, hword, by simp, allBlank_of_spaces (by simp)⟩
  refine ⟨_, more, ?_, ⟨indent, [' '], tail, hwhole, hlines⟩, by simp, hs⟩
  rw [List.append_assoc _ text]
  exact lines_append_of_not_mem hhead hlines

/-- What is written for a member: one step in its name, and its text in quotes, laid out. -/
def memberLine (name text : List Char) : List Char :=
  indentation ++ name ++ [' ', '"'] ++ memberText text ++ ['"']

/-- The layout at a member. -/
theorem pluginLines_member (h : MemberOf line more name text post) (last : Option (List Char)) :
    pluginLines 0 last (line :: (more ++ rest)) =
      memberLine name text :: pluginLines 0 (some (memberLine name text)) rest := by
  rw [pluginLines, h.member?_eq]
  simp only
  rw [pluginLines_drop, List.drop_left]
  rfl

theorem membersIn_member (h : MemberOf line more name text post) :
    membersIn 0 (line :: (more ++ rest)) = (name, text) :: membersIn 0 rest := by
  rw [membersIn, h.member?_eq]
  simp only
  rw [membersIn_drop, List.drop_left]

/-- The layout at a line that starts no member. -/
theorem pluginLines_plain (h : member? line rest = none) (last : Option (List Char)) :
    pluginLines 0 last (line :: rest) =
      plainLine last line ++ pluginLines 0 ((plainLine last line).getLast?.or last) rest := by
  rw [pluginLines, h]

theorem membersIn_plain (h : member? line rest = none) :
    membersIn 0 (line :: rest) = membersIn 0 rest := by
  rw [membersIn, h]

/-- Every member that is found has a head, a text and a quote behind it, in as many lines as it is
said to take. -/
theorem exists_of_member? {n : Nat} (h : member? line rest = some (name, text, n))
    (hl : ∀ l ∈ line :: rest, '\n' ∉ l) :
    ∃ post more rest', MemberOf line more name text post ∧ rest = more ++ rest' := by
  rw [member?] at h
  split at h
  · cases h
  split at h
  · cases h
  next name' tail hhead =>
  obtain ⟨⟨text', n'⟩, hend, h⟩ := Option.map_eq_some_iff.1 h
  cases h
  obtain ⟨pre, gap, hhead⟩ := wordHead?_eq_some_iff.1 hhead
  obtain ⟨after, hsplit, hs, -⟩ := memberEnd?_eq_some_iff.1 hend
  have htail : '\n' ∉ tail := by
    intro hc
    refine hl line (by simp) ?_
    rw [hhead.line_eq]
    simp [hc]
  have hlines : tail :: rest = lines (text ++ '"' :: after) := by
    rw [← hsplit, lines_unlines (by simp), flatMap_lines_of_not_mem]
    rintro l hmem
    rcases List.mem_cons.1 hmem with rfl | hmem
    · exact htail
    · exact hl l (by simp [hmem])
  -- what follows the quote in its own line
  obtain ⟨post, rest', hpost, hafter⟩ : ∃ post rest', '\n' ∉ post ∧
      lines (text ++ '"' :: after) = lines (text ++ '"' :: post) ++ rest' := by
    by_cases hnl : '\n' ∈ after
    · obtain ⟨post, after', rfl, hpost⟩ := List.eq_append_cons_of_mem hnl
      refine ⟨post, lines after', hpost, ?_⟩
      rw [← lines_append_newline]
      simp
    · exact ⟨after, [], hnl, by simp⟩
  obtain ⟨t, more, hmore⟩ := List.exists_cons_of_ne_nil (lines_ne_nil (text ++ '"' :: post))
  rw [hafter, hmore, List.cons_append] at hlines
  obtain ⟨rfl, rfl⟩ := List.cons.inj hlines
  exact ⟨post, more, rest', ⟨⟨pre, gap, tail, hhead, hmore⟩, hpost, hs⟩, rfl⟩

/-- What holds of no lines, of a member in front of lines of which it holds, and of a line that
starts no member in front of such lines, holds of all lines. -/
theorem lines_induction {motive : List (List Char) → Prop} (nil : motive [])
    (member : ∀ {line more name text post rest}, MemberOf line more name text post → motive rest →
      motive (line :: (more ++ rest)))
    (plain : ∀ {line rest}, member? line rest = none → (∀ l ∈ line :: rest, '\n' ∉ l) →
      motive rest → motive (line :: rest))
    (ls : List (List Char)) (hls : ∀ l ∈ ls, '\n' ∉ l) : motive ls := by
  -- a member takes lines behind its own, so the induction is on the number of lines
  induction hn : ls.length using Nat.strong_induction_on generalizing ls with | _ n ih
  cases ls with
  | nil => exact nil
  | cons line ls =>
    have hrest : ∀ l ∈ ls, '\n' ∉ l := fun l hl => hls l (List.mem_cons_of_mem _ hl)
    cases hmem : member? line ls with
    | none =>
      exact plain hmem hls (ih ls.length (by rw [← hn, List.length_cons]; omega) ls hrest rfl)
    | some m =>
      obtain ⟨name, text, k⟩ := m
      obtain ⟨post, more, rest, hmember, rfl⟩ := exists_of_member? hmem hls
      have hlen : rest.length < n := by
        rw [← hn, List.length_cons, List.length_append]
        omega
      exact member hmember
        (ih rest.length hlen rest (fun l hl => hrest l (List.mem_append_right _ hl)) rfl)

end Partitura.Layout
