import Partitura.Proofs.ManuScript.Sheets

/-!
# What the members of a plugin file stand for

The text of a member is a method if it starts with a parenthesis, and a value otherwise. `Denotes`
says so by the form of the text: the names of the parameters are what stands between commas up to
the first closing parenthesis, without the blanks around it. It tells one value for every text,
which is the one that is read (`denotes_iff`). So a plugin file that was written entry by entry is
read back as these entries (`parse_tabbed_sheet`).
-/

namespace Partitura.Text

/-! ## Blanks around what is cut -/

theorem map_trim_splitOn_allBlank_append {sep : Char} (hsep : isBlank sep = false) {a : List Char}
    (ha : AllBlank a) (m : List Char) :
    (splitOn sep (a ++ m)).map trim = (splitOn sep m).map trim := by
  induction a with
  | nil => rfl
  | cons c a ih =>
    obtain ⟨hc, ha⟩ := allBlank_cons.1 ha
    have hne : (c == sep) = false := by
      rw [beq_eq_false_iff_ne]
      rintro rfl
      rw [hc] at hsep
      cases hsep
    rw [← ih ha, List.cons_append, splitOn, hne]
    cases hs : splitOn sep (a ++ m) with
    | nil =>
      rw [splitOn_eq] at hs
      exact absurd hs (List.splitOn_ne_nil sep _)
    | cons p ps =>
      have hp : trim (c :: p) = trim p :=
        trim_allBlank_append (a := [c]) (allBlank_cons.2 ⟨hc, allBlank_nil⟩) p
      simp [hp]

/-- What stands behind a text without the separator lengthens its last piece. -/
theorem exists_splitOn_append {sep : Char} {b : List Char} (hb : sep ∉ b) (m : List Char) :
    ∃ ps p, splitOn sep m = ps ++ [p] ∧ splitOn sep (m ++ b) = ps ++ [p ++ b] := by
  induction m with
  | nil =>
    exact ⟨[], [], rfl, by rw [splitOn_eq, List.nil_append, List.splitOn_eq_singleton hb]; rfl⟩
  | cons c m ih =>
    obtain ⟨ps, p, hm, hmb⟩ := ih
    by_cases hc : c = sep
    · exact ⟨[] :: ps, p, by simp [splitOn, hc, hm], by simp [splitOn, hc, hmb]⟩
    · cases ps with
      | nil => exact ⟨[], c :: p, by simp [splitOn, hc, hm], by simp [splitOn, hc, hmb]⟩
      | cons q ps =>
        exact ⟨(c :: q) :: ps, p, by simp [splitOn, hc, hm], by simp [splitOn, hc, hmb]⟩

/-- Blanks at the ends of a text are blanks at the ends of its pieces. -/
theorem map_trim_splitOn_trim {sep : Char} (hsep : isBlank sep = false) (cs : List Char) :
    (splitOn sep (trim cs)).map trim = (splitOn sep cs).map trim := by
  obtain ⟨a, b, ha, hb, hcs⟩ := exists_trim cs
  have hmem : sep ∉ b := fun h => by
    rw [hb sep h] at hsep
    cases hsep
  obtain ⟨ps, p, htrim, happend⟩ := exists_splitOn_append hmem (trim cs)
  conv_rhs => rw [hcs, List.append_assoc, map_trim_splitOn_allBlank_append hsep ha, happend]
  rw [htrim, List.map_append, List.map_append, List.map_singleton, List.map_singleton,
    trim_append_of_allBlank p hb]

end Partitura.Text

namespace Partitura.ManuScript

open Text

/-! ## The value of a text -/

/-- What the text of a member stands for. -/
inductive Denotes : List Char → MemberValue → Prop where
  /-- A text that does not start with a parenthesis is a value. -/
  | plain {content : List Char} :
      content.head? ≠ some '(' → Denotes content (.variable (String.ofList content))
  /-- Without a closing parenthesis there are no parameters. -/
  | unclosed {r : List Char} : ')' ∉ r → Denotes ('(' :: r) (.method [])
  /-- With nothing but blanks between the parentheses there are none either. -/
  | bare {inner r : List Char} : AllBlank inner → Denotes ('(' :: inner ++ ')' :: r) (.method [])
  /-- Otherwise each name between two commas is a parameter. -/
  | method {names : List (List Char)} {inner r : List Char} : ')' ∉ inner → ¬ AllBlank inner →
      inner = [','].intercalate names → (∀ name ∈ names, ',' ∉ name) →
      Denotes ('(' :: inner ++ ')' :: r) (.method (names.map fun name => String.ofList (trim name)))

theorem paramsOf_unclosed {r : List Char} (h : ')' ∉ r) : Plugin.paramsOf ('(' :: r) = [] := by
  have hall : r.takeWhile (· != ')') = r := by
    refine List.takeWhile_eq_self_iff.2 fun c hc => ?_
    simpa using ne_of_mem_of_not_mem hc h
  simp [Plugin.paramsOf, hall]

theorem paramsOf_closed {inner : List Char} (h : ')' ∉ inner) (r : List Char) :
    Plugin.paramsOf ('(' :: inner ++ ')' :: r) =
      if AllBlank inner then []
      else (splitOn ',' inner).map fun name => String.ofList (trim name) := by
  have htake : (inner ++ ')' :: r).takeWhile (· != ')') = inner := by
    refine takeWhile_append_of_head (fun c hc => ?_) fun c hc => ?_
    · simpa using ne_of_mem_of_not_mem hc h
    · cases hc
      rfl
  have hnames :=
    congrArg (List.map String.ofList)
      (map_trim_splitOn_trim (show isBlank ',' = false by decide) inner)
  rw [List.map_map, List.map_map] at hnames
  simp only [Plugin.paramsOf, List.cons_append, htake, List.length_append, List.length_cons,
    List.isEmpty_iff, trim_eq_nil_iff]
  rw [if_pos (by omega)]
  split
  · rfl
  · exact hnames

theorem Entry.value_paren (name r : List Char) :
    Entry.value ⟨name, '(' :: r⟩ = .method (Plugin.paramsOf ('(' :: r)) := by
  rw [Entry.value, if_pos (by simp)]

theorem Entry.value_plain {e : Entry} (h : e.content.head? ≠ some '(') :
    e.value = .variable (String.ofList e.content) := by
  rw [Entry.value, if_neg (by simpa using h)]

/-- What is read for an entry is what its text stands for, and nothing else. -/
theorem denotes_iff {e : Entry} {v : MemberValue} : Denotes e.content v ↔ v = e.value := by
  obtain ⟨name, content⟩ := e
  constructor
  · intro h
    cases h with
    | plain hhead => exact (Entry.value_plain hhead).symm
    | unclosed hr => rw [Entry.value_paren, paramsOf_unclosed hr]
    | @bare inner r hblank =>
      have hmem : ')' ∉ inner := fun h => absurd (hblank _ h) (by decide)
      have hparams := (paramsOf_closed hmem r).trans (if_pos hblank)
      rw [Entry.value_paren]
      exact congrArg MemberValue.method hparams.symm
    | @method names inner r hmem hink hjoin hnames =>
      have hne : names ≠ [] := by
        rintro rfl
        exact hink (by rw [hjoin]; exact allBlank_nil)
      have hsplit : splitOn ',' inner = names := by
        rw [splitOn_eq, hjoin, List.splitOn_intercalate ',' hnames hne]
      have hparams := (paramsOf_closed hmem r).trans (if_neg hink)
      rw [hsplit] at hparams
      rw [Entry.value_paren]
      exact congrArg MemberValue.method hparams.symm
  · rintro rfl
    by_cases hhead : content.head? = some '('
    · obtain ⟨r, rfl⟩ := List.head?_eq_some_iff.1 hhead
      rw [Entry.value_paren]
      by_cases hclosed : ')' ∈ r
      · obtain ⟨inner, rest, rfl, hmem⟩ := List.eq_append_cons_of_mem hclosed
        rw [← List.cons_append, paramsOf_closed hmem]
        split
        · next hblank => exact .bare hblank
        · next hink =>
          refine .method hmem hink ?_ fun name hname => not_mem_of_mem_splitOn hname
          rw [splitOn_eq, List.intercalate_splitOn]
      · rw [paramsOf_unclosed hclosed]
        exact .unclosed hclosed
    · rw [Entry.value_plain hhead]
      exact .plain hhead

/-! ## Plugin files -/

/-- **A plugin file is read as it was written.** A brace, the entries each on a line behind a tab,
and a brace: whatever the names are, reserved words apart, and whatever the texts are, as long as
every quote in them is escaped and their end is not, the file is read as a plugin with one member
for each entry, in their order. A member has the name of its entry and the one value that the text
of the entry stands for. -/
theorem parse_tabbed_sheet {es : List Entry} (hes : ∀ e ∈ es, e.Valid) :
    ∃ p, Plugin.parse (String.ofList (sheet ['\t'] es)) = .ok p ∧
      List.Forall₂ (fun e m => m.name = String.ofList e.name ∧ ∀ v, Denotes e.content v ↔
        v = m.value) es p.members := by
  have hindent : AllBlank ['\t'] := by decide
  obtain ⟨p, hparse, hmembers⟩ := parse_sheet hindent hes []
  rw [List.append_nil] at hparse
  refine ⟨p, hparse, ?_⟩
  rw [← List.forall₂_eq_eq_eq, List.forall₂_map_left_iff, List.forall₂_map_right_iff] at hmembers
  refine hmembers.flip.imp fun e m h => ?_
  obtain ⟨hname, hvalue⟩ := Prod.mk.inj h
  exact ⟨hname, fun v => by rw [denotes_iff, hvalue]⟩

/-- Texts in which a member could get lost: an apostrophe, quotes, a comment with a brace and
backslashes at the end; a parenthesis in quotes behind the parameters; and a list of parameters that
is not closed. -/
def motley : List Entry :=
  [⟨"Título_2".toList, "Don't say \\\"no\\\" // \x7d\n\\\\".toList⟩,
    ⟨"Run".toList, "( a ,b c)\n\x7b x = ')';\n\x7d".toList⟩, ⟨"_".toList, "(open, never".toList⟩]

theorem parse_tabbed_sheet_motley : (∀ e ∈ motley, e.Valid) ∧
    ∃ p, Plugin.parse (String.ofList (sheet ['\t'] motley)) = .ok p ∧ p.members.map Member.outline =
      [("Título_2", .variable "Don't say \\\"no\\\" // \x7d\n\\\\"), ("Run", .method ["a", "b c"]),
        ("_", .method [])] := by
  have hes : ∀ e ∈ motley, e.Valid := by
    refine List.forall_mem_cons.2 ⟨?_, List.forall_mem_cons.2 ⟨?_, List.forall_mem_singleton.2 ?_⟩⟩
    all_goals exact ⟨by decide +kernel, escaped_iff.2 (by decide +kernel)⟩
  obtain ⟨p, hparse, hmembers⟩ := parse_tabbed_sheet hes
  have houtlines : List.Forall₂ (fun e m => Entry.outline e = Member.outline m) motley p.members :=
    hmembers.imp fun e m ⟨hname, hvalue⟩ =>
      Prod.ext hname.symm ((hvalue e.value).1 (denotes_iff.2 rfl))
  rw [← List.forall₂_map_right_iff (R := fun e o => Entry.outline e = o),
    ← List.forall₂_map_left_iff (R := (· = ·)), List.forall₂_eq_eq_eq] at houtlines
  exact ⟨hes, p, hparse, houtlines.symm.trans (by decide +kernel)⟩

end Partitura.ManuScript
