import Partitura.Cli.Plugins
import Partitura.Proofs.Cli.Job
import Partitura.Proofs.Codec.Strict
import Partitura.Proofs.Lint.Codings
import Partitura.Proofs.Text.Lines

/-!
# Mending the ends of lines

A file is mended by dropping the blanks at the ends of its lines. Whatever coding it has, it is read
afterwards as the text without these blanks, no blank at the end of a line is reported any more, it
was written only if there was something to drop, and mending it once more does nothing
(`fixFile?_mends`). The coding is found again by the first bytes, and they are never mistaken: the
first character of the text stays, or a line feed takes its place.

What is dropped and what is reported are not the same. Only a space or a tab at the end of a line is
reported, but blanks of every kind are dropped, and with them the carriage returns of a file that
has them. And a file in UTF-16 without a mark is written in UTF-8. So just the reported blanks are
dropped, and the coding is kept, if and only if all lines end with nothing but spaces and tabs and
the file has a mark, is in UTF-8, or has nothing to drop or nothing else (`fixFile?_bytes_iff`).
-/

namespace Partitura.Lint

open Text Codec ManuScript Cli Files

variable {c : Char} {l : List Char} {d : Diagnostic}

/-! ## Ends of lines -/

/-- A text without the characters of the class at the ends of its lines. -/
def dropEnds (p : Char → Bool) (t : List Char) : List Char := unlines ((lines t).map (dropEnd p))

/-- A text without blanks at the ends of its lines. -/
def mended (t : List Char) : List Char := dropEnds isBlank t

section
variable {p : Char → Bool} {t : List Char}

theorem dropEnd_isPrefix (p : Char → Bool) (l : List Char) : dropEnd p l <+: l :=
  List.rdropWhile_prefix p l

theorem lines_dropEnds (p : Char → Bool) (t : List Char) :
    lines (dropEnds p t) = (lines t).map (dropEnd p) := by
  rw [dropEnds, lines_unlines (by simp [lines_ne_nil]), flatMap_lines_of_not_mem]
  intro l hl hn
  obtain ⟨k, hk, rfl⟩ := List.mem_map.1 hl
  exact newline_not_mem_of_mem_lines hk ((dropEnd_isPrefix p k).subset hn)

theorem dropEnds_eq_self_iff : dropEnds p t = t ↔ ∀ l ∈ lines t, dropEnd p l = l := by
  constructor
  · intro h
    have hlines := lines_dropEnds p t
    rw [h] at hlines
    exact List.map_inj_left.1 (hlines.symm.trans (List.map_id _).symm)
  · intro h
    have hid : (lines t).map (dropEnd p) = (lines t).map id := List.map_congr_left h
    rw [dropEnds, hid, List.map_id, unlines_lines]

theorem dropEnds_congr_iff {q : Char → Bool} :
    dropEnds p t = dropEnds q t ↔ ∀ l ∈ lines t, dropEnd p l = dropEnd q l := by
  constructor
  · intro h
    have hlines := congrArg lines h
    rw [lines_dropEnds, lines_dropEnds] at hlines
    exact List.map_inj_left.1 hlines
  · intro h
    rw [dropEnds, List.map_congr_left h, dropEnds]

theorem unlines_cons_cons (c : Char) (l : List Char) (ls : List (List Char)) :
    unlines ((c :: l) :: ls) = c :: unlines (l :: ls) := by
  cases ls <;> rfl

theorem mem_head?_unlines {k : List Char} {ks : List (List Char)} {x : Char}
    (h : x ∈ (unlines (k :: ks)).head?) : x ∈ k.head? ∨ x = '\n' := by
  cases k with
  | nil =>
    cases ks with
    | nil => cases h
    | cons m ms =>
      rw [unlines_cons (List.cons_ne_nil m ms)] at h
      exact .inr (Option.some.inj h).symm
  | cons y k =>
    rw [unlines_cons_cons] at h
    exact .inl h

theorem lines_cons_newline (r : List Char) : lines ('\n' :: r) = [] :: lines r := rfl

theorem exists_lines_cons (hc : c ≠ '\n') (r : List Char) :
    ∃ l ls, lines r = l :: ls ∧ lines (c :: r) = (c :: l) :: ls := by
  obtain ⟨l, ls, hls⟩ := List.exists_cons_of_ne_nil (lines_ne_nil r)
  have hmem : '\n' ∉ [c] := by simpa using Ne.symm hc
  exact ⟨l, ls, hls, lines_append_of_not_mem hmem hls⟩

/-- The first character stays, or a line feed takes its place. -/
theorem eq_of_mem_head?_dropEnds {x : Char} {r : List Char} (h : x ∈ (dropEnds p (c :: r)).head?) :
    x = c ∨ x = '\n' := by
  by_cases hc : c = '\n'
  · subst hc
    rw [dropEnds, lines_cons_newline, List.map_cons] at h
    rcases mem_head?_unlines h with h | h
    · cases h
    · exact .inr h
  · obtain ⟨l, ls, -, hls⟩ := exists_lines_cons hc r
    rw [dropEnds, hls, List.map_cons] at h
    rcases mem_head?_unlines h with h | h
    · obtain ⟨s, hs⟩ := dropEnd_isPrefix p (c :: l)
      have hhead : (c :: l).head? = some x := by rw [← hs, List.head?_append, h]; rfl
      exact .inl (Option.some.inj hhead).symm
    · exact .inr h

/-- A character that is not dropped stays where it is. -/
theorem mended_cons (hc : isBlank c = false) (r : List Char) : mended (c :: r) = c :: mended r := by
  have hne : c ≠ '\n' := by
    rintro rfl
    cases hc
  obtain ⟨l, ls, hr, hcr⟩ := exists_lines_cons hne r
  have hfirst : dropEnd isBlank (c :: l) = c :: dropEnd isBlank l :=
    trimRight_append_of_left (a := [c]) (by simpa using hc) l
  rw [mended, mended, dropEnds, dropEnds, hcr, hr, List.map_cons, List.map_cons, hfirst,
    unlines_cons_cons]

theorem mended_mended (t : List Char) : mended (mended t) = mended t := by
  refine dropEnds_eq_self_iff.2 fun l hl => ?_
  rw [mended, lines_dropEnds] at hl
  obtain ⟨k, -, rfl⟩ := List.mem_map.1 hl
  exact trimRight_of_last (last_trimRight k)

/-- Only a text that changes is given. -/
theorem trimLines?_eq (t : List Char) :
    trimLines? t = if mended t = t then none else some (mended t) := by
  have hiff : lines t = (lines t).map trimRight ↔ mended t = t := by
    constructor
    · intro h
      have hjoin := congrArg unlines h
      rw [unlines_lines] at hjoin
      exact hjoin.symm
    · intro h
      have hlines := lines_dropEnds isBlank t
      rwa [show dropEnds isBlank t = t from h] at hlines
  unfold trimLines?
  simp only [hiff]
  rfl

end

/-! ## First bytes -/

theorem utf8OfChar_of_zero (hc : c.toNat = 0) : utf8OfChar c = [0] := by
  simp only [utf8OfChar, hc]
  rfl

/-- Bytes in UTF-8 look wide if the text starts with a zero character and one of another kind. -/
theorem looksWide_encodeUtf8_iff {t : List Char} :
    LooksWide (encodeUtf8 t) ↔ ∃ c d r, t = c :: d :: r ∧ c.toNat = 0 ∧ d.toNat ≠ 0 := by
  constructor
  · rintro ⟨b, r, h, hb⟩
    cases t with
    | nil => cases h
    | cons c t =>
      obtain ⟨b₀, s, hc, -, hzero⟩ := exists_utf8OfChar c
      rw [encodeUtf8, List.flatMap_cons, hc, List.cons_append, List.cons.injEq] at h
      have hc₀ : c.toNat = 0 := hzero (by rw [h.1]; rfl)
      rw [utf8OfChar_of_zero hc₀, List.cons.injEq] at hc
      obtain ⟨-, rfl⟩ := hc
      cases t with
      | nil => cases h.2
      | cons d t =>
        refine ⟨c, d, t, rfl, hc₀, fun hd => hb ?_⟩
        have hnext := h.2
        rw [List.nil_append, List.flatMap_cons, utf8OfChar_of_zero hd] at hnext
        exact (List.cons.inj hnext).1.symm
  · rintro ⟨c, d, r, rfl, hc, hd⟩
    obtain ⟨b, s, hs, -, hzero⟩ := exists_utf8OfChar d
    refine ⟨b, s ++ encodeUtf8 r, ?_, fun hb => hd (hzero (by rw [hb]; rfl))⟩
    rw [encodeUtf8, List.flatMap_cons, List.flatMap_cons, utf8OfChar_of_zero hc, hs]
    rfl

/-- Bytes in UTF-16 look wide only if the first character fits into one byte and is not zero. -/
theorem exists_of_looksWide_encodeUtf16 {t : List Char} (h : LooksWide (encodeUtf16 .big t)) :
    ∃ c r, t = c :: r ∧ 1 ≤ c.toNat ∧ c.toNat ≤ 0xFF := by
  obtain ⟨b, r, h, hb⟩ := h
  cases t with
  | nil => cases h
  | cons c t =>
    have hvalid := toNat_char_valid c
    refine ⟨c, t, rfl, ?_⟩
    rw [encodeUtf16, List.flatMap_cons, unitsOfChar] at h
    split at h
    · next hc =>
      rw [List.flatMap_singleton, unitBytes, List.cons_append, List.cons_append, List.cons.injEq,
        List.cons.injEq] at h
      have hhigh := congrArg UInt8.toNat h.1
      rw [toNat_byte (by omega)] at hhigh
      have hlow : c.toNat % 0x100 ≠ 0 := fun hzero => hb (by rw [← h.2.1, hzero]; rfl)
      have : c.toNat / 0x100 = 0 := hhigh
      omega
    · next hc =>
      rw [List.flatMap_cons, unitBytes, List.cons_append, List.cons_append, List.cons.injEq] at h
      have hhigh := congrArg UInt8.toNat h.1
      rw [toNat_byte (by omega)] at hhigh
      have : (0xD800 + (c.toNat - 0x10000) / 0x400) / 0x100 = 0 := hhigh
      omega

/-- Mending makes no text look wide in UTF-8. -/
theorem looksWide_of_mended {t : List Char} (h : LooksWide (encodeUtf8 (mended t))) :
    LooksWide (encodeUtf8 t) := by
  obtain ⟨c, d, r, hmended, hc, hd⟩ := looksWide_encodeUtf8_iff.1 h
  have hblank {x : Char} (hx : x.toNat = 0) : isBlank x = false := by
    rw [isBlank, hx]
    rfl
  cases t with
  | nil => cases hmended
  | cons x s =>
    have hx : x = c := by
      have hhead : c ∈ (dropEnds isBlank (x :: s)).head? := by
        rw [show dropEnds isBlank (x :: s) = c :: d :: r from hmended]
        rfl
      rcases eq_of_mem_head?_dropEnds hhead with h | rfl
      · exact h.symm
      · cases hc
    subst hx
    rw [mended_cons (hblank hc), List.cons.injEq] at hmended
    cases s with
    | nil => cases hmended.2
    | cons y s =>
      refine looksWide_encodeUtf8_iff.2 ⟨x, y, s, rfl, hc, fun hy => hd ?_⟩
      rw [mended_cons (hblank hy), List.cons.injEq] at hmended
      rwa [← hmended.2.1]

/-! ## The forms of a plugin file -/

/-- How the text of a plugin file is put into bytes: in UTF-8, or in UTF-16 with a mark or without
one. -/
inductive PluginForm where
  | utf8
  | marked (order : ByteOrder)
  | unmarked
deriving DecidableEq, Repr

namespace PluginForm

/-- The bytes of a text. -/
def bytes : PluginForm → List Char → List UInt8
  | utf8, t => encodeUtf8 t
  | marked order, t => markedUtf16 order t
  | unmarked, t => encodeUtf16 .big t

/-- The form is found by the first bytes: without a mark, files in UTF-16 are those that look
wide. -/
def Suits : PluginForm → List Char → Prop
  | utf8, t => ¬ LooksWide (encodeUtf8 t)
  | marked _, _ => True
  | unmarked, t => LooksWide (encodeUtf16 .big t)

/-- The form in which a file is written again. -/
def rewritten : PluginForm → PluginForm
  | utf8 => utf8
  | marked order => marked order
  | unmarked => utf8

variable {form : PluginForm} {t : List Char}

theorem readPlugin_bytes (h : form.Suits t) : readPlugin (form.bytes t) = .ok t := by
  cases form with
  | utf8 => exact (readPlugin_encodeUtf8_iff t).2 h
  | marked order => exact readPlugin_markedUtf16 order t
  | unmarked =>
    obtain ⟨c, r, rfl, hlow, hhigh⟩ := exists_of_looksWide_encodeUtf16 h
    exact readPlugin_encodeUtf16 hlow hhigh r

/-- Every file that can be read has one of the forms. -/
theorem exists_of_readPlugin {bs : List UInt8} (h : readPlugin bs = .ok t) :
    ∃ form : PluginForm, form.Suits t ∧ form.bytes t = bs := by
  by_cases hwide : LooksWide bs
  · rw [readPlugin, codingOf_of_looksWide hwide] at h
    have hbytes : encodeUtf16 .big t = bs := Encoding.encodeUtf16_of_decode h
    exact ⟨unmarked, by rwa [Suits, hbytes], hbytes⟩
  · cases hmark : markedCoding? bs with
    | none =>
      rw [readPlugin, codingOf_of_not_looksWide hmark hwide] at h
      have hbytes : encodeUtf8 t = bs := Encoding.encodeUtf8_of_decode h
      exact ⟨utf8, by rwa [Suits, hbytes], hbytes⟩
    | some coding =>
      unfold markedCoding? at hmark
      split at hmark
      · next r =>
        refine ⟨marked .big, trivial, ?_⟩
        rw [bytes, markedUtf16, encodeUtf16_mark, Encoding.encodeUtf16_of_decode h]
        rfl
      · next r =>
        refine ⟨marked .little, trivial, ?_⟩
        rw [bytes, markedUtf16, encodeUtf16_mark, Encoding.encodeUtf16_of_decode h]
        rfl
      · cases hmark

theorem suits_rewritten (h : form.Suits t) : form.rewritten.Suits (mended t) := by
  cases form with
  | utf8 => exact mt looksWide_of_mended h
  | marked order => trivial
  | unmarked =>
    intro hwide
    obtain ⟨c, r, rfl, hlow, -⟩ := exists_of_looksWide_encodeUtf16 h
    obtain ⟨c', d, r', heq, hzero, -⟩ := looksWide_encodeUtf8_iff.1 (looksWide_of_mended hwide)
    rw [(List.cons.inj heq).1, hzero] at hlow
    omega

/-- What mending makes of a file: nothing if there is nothing to drop, or else the mended text, in
UTF-8 if there is no mark. -/
theorem fixFile?_bytes (h : form.Suits t) :
    fixFile? (form.bytes t) =
      .ok (if mended t = t then none else some (form.rewritten.bytes (mended t))) := by
  rw [fixFile?, readPlugin_bytes h]
  simp only [Except.map, trimLines?_eq]
  by_cases hsame : mended t = t
  · rw [if_pos hsame, if_pos hsame]
    rfl
  · rw [if_neg hsame, if_neg hsame, Option.map_some]
    cases form with
    | utf8 =>
      rw [bytes, markedCoding?_encodeUtf8]
      rfl
    | marked order =>
      rw [rewritten, bytes, bytes, markedUtf16, markedUtf16, encodeUtf16_mark, encodeUtf16_mark]
      cases order <;> rfl
    | unmarked =>
      obtain ⟨b, r, hbytes, -⟩ := h
      rw [bytes, hbytes]
      rfl

end PluginForm

/-! ## What is reported -/

/-- A space or a tab. -/
def isSpaceOrTab (c : Char) : Bool := c == ' ' || c == '\t'

theorem isBlank_of_isSpaceOrTab (h : isSpaceOrTab c = true) : isBlank c = true := by
  obtain rfl | rfl : c = ' ' ∨ c = '\t' := by simpa [isSpaceOrTab] using h
  · decide
  · decide

theorem code_trailingBlanks (pos : Position) :
    (⟨pos, .trailingBlanks⟩ : Diagnostic).code = "MS-W002" := by
  have hcode : (⟨pos, .trailingBlanks⟩ : Diagnostic).code = Rule.code ⟨.warning, 2⟩ := rfl
  rw [hcode]
  decide

theorem code_longLine (pos : Position) (n : Nat) :
    (⟨pos, .longLine n⟩ : Diagnostic).code ≠ "MS-W002" := by
  have hcode : (⟨pos, .longLine n⟩ : Diagnostic).code = Rule.code ⟨.warning, 3⟩ := rfl
  rw [hcode]
  decide

/-- A line is reported if there is a space or a tab at its end. -/
theorem trailing_mem_lineIssues_iff {n : Int} :
    (∃ d ∈ lineIssues n l, d.code = "MS-W002") ↔ ∃ c ∈ l.getLast?, isSpaceOrTab c = true := by
  have hends : (l.getLast? == some ' ' || l.getLast? == some '\t') = true ↔ ∃ c ∈ l.getLast?,
      isSpaceOrTab c = true := by
    cases l.getLast? <;> simp [isSpaceOrTab]
  rw [← hends, lineIssues]
  constructor
  · rintro ⟨d, hd, hcode⟩
    rcases List.mem_append.1 hd with hd | hd
    · split at hd
      · next h => exact h
      · cases hd
    · split at hd
      · rw [List.mem_singleton.1 hd] at hcode
        exact absurd hcode (code_longLine _ _)
      · cases hd
  · intro h
    rw [if_pos h]
    exact ⟨_, List.mem_append_left _ (List.mem_singleton_self _), code_trailingBlanks _⟩

theorem line_of_mem_lineIssues {n : Int} (h : d ∈ lineIssues n l) : d.pos.line = n := by
  unfold lineIssues at h
  rcases List.mem_append.1 h with h | h
  · split at h
    · rw [List.mem_singleton.1 h]
    · cases h
  · split at h
    · rw [List.mem_singleton.1 h]
    · cases h

theorem mem_blankIssues {t : List Char} :
    d ∈ blankIssues t ↔ ∃ l n, (l, n) ∈ (lines t).zipIdx 1 ∧ d ∈ lineIssues n l := by
  simp [blankIssues, perLine]

/-- A mended text is not reported. -/
theorem code_of_mem_blankIssues_mended {t : List Char} (h : d ∈ blankIssues (mended t)) :
    d.code ≠ "MS-W002" := by
  intro hcode
  obtain ⟨l, n, hl, hd⟩ := mem_blankIssues.1 h
  obtain ⟨c, hc, hplain⟩ := trailing_mem_lineIssues_iff.1 ⟨d, hd, hcode⟩
  have hmem : l ∈ lines (mended t) := by
    rw [← List.zipIdx_map_fst 1 (lines (mended t))]
    exact List.mem_map_of_mem hl
  rw [mended, lines_dropEnds] at hmem
  obtain ⟨k, -, rfl⟩ := List.mem_map.1 hmem
  exact absurd (isBlank_of_isSpaceOrTab hplain) (by simp [last_trimRight k c hc])

/-! ## The job -/

/-- The job that mends a file leaves these bytes in it, and changes no other file. -/
theorem run_fixBlanks {s : Setting} {a : CheckArguments} {p : Pathname} {found : List Diagnostic}
    {d : Desk} {bs : List UInt8} {r : Option (List UInt8)} (hread : d.files.read s.cwd p = .ok bs)
    (hfix : fixFile? bs = .ok r) (hmay : a.mayFix blankCode = true) (hdry : a.dryRun = false) :
    ∃ left d', (fixBlanks s a p found).run d = (.ok left, d') ∧
      d'.files.read s.cwd p = .ok (r.getD bs) ∧ d.files.SameBut s.cwd [p] d'.files := by
  have hasked : (Job.orFail Failure.decode (fixFile? bs)).run d = (.ok r, d) := by rw [hfix]; rfl
  rw [fixBlanks, Job.run_bind_of_run (Job.run_readFile_of_read hread), Job.run_bind_of_run hasked]
  cases r with
  | none => exact ⟨found, d, rfl, hread, FileTree.SameBut.refl _ _ _⟩
  | some fixed =>
    have hne : bs ≠ [] := by
      rintro rfl
      cases hfix
    obtain ⟨id, hid, -⟩ := FileTree.exists_of_read hread
    obtain ⟨t', hwrite⟩ : ∃ t', d.files.write s.cwd p fixed = .ok t' :=
      ⟨_, FileTree.write_of_file? hid fixed⟩
    have hwritten : (Job.writeFile s p fixed).run d = (.ok (), { d with files := t' }) := by
      rw [Job.writeFile, Job.run_change, hwrite]
    simp only [hmay, hdry, if_true, Bool.false_eq_true, if_false]
    rw [Job.run_bind_of_run hwritten]
    exact ⟨_, _, rfl, FileTree.read_of_write (FileTree.keeps_of_read hread hne) hwrite,
      FileTree.SameBut.write hid hwrite⟩

/-- **A file is mended once.** Take any file that can be read. It can be mended: it is changed if
and only if a line of its text ends with blanks, and left alone otherwise. Afterwards it is read as
the text without these blanks, which is not reported for them, and mending it again leaves it alone.
The job that is asked to mend it leaves just these bytes in it and changes no other file. -/
theorem fixFile?_mends {bs : List UInt8} {t : List Char} (h : readPlugin bs = .ok t) :
    ∃ r, fixFile? bs = .ok r ∧ (r.isSome = true ↔ ∃ l ∈ lines t, trimRight l ≠ l) ∧
      readPlugin (r.getD bs) = .ok (unlines ((lines t).map trimRight)) ∧
      (∀ d ∈ blankIssues (unlines ((lines t).map trimRight)), d.code ≠ "MS-W002") ∧
      fixFile? (r.getD bs) = .ok none ∧
      ∀ (s : Setting) (a : CheckArguments) (p : Pathname) (found : List Diagnostic) (d : Desk),
        d.files.read s.cwd p = .ok bs → a.mayFix blankCode = true → a.dryRun = false →
        ∃ left d', (fixBlanks s a p found).run d = (.ok left, d') ∧
          d'.files.read s.cwd p = .ok (r.getD bs) ∧ d.files.SameBut s.cwd [p] d'.files := by
  obtain ⟨form, hsuits, rfl⟩ := PluginForm.exists_of_readPlugin h
  have hfix := PluginForm.fixFile?_bytes hsuits
  refine ⟨_, hfix, ?_, ?_,
    fun d hd => code_of_mem_blankIssues_mended hd, ?_, fun s a p found d hread hmay hdry =>
    run_fixBlanks hread hfix hmay hdry⟩
  · have hsame : mended t = t ↔ ∀ l ∈ lines t, trimRight l = l := dropEnds_eq_self_iff
    split
    · next heq => simpa using hsame.1 heq
    · next hne => simpa [hsame] using hne
  · split
    · next heq => exact h.trans (congrArg Except.ok heq.symm)
    · exact PluginForm.readPlugin_bytes (PluginForm.suits_rewritten hsuits)
  · split
    · next heq =>
      rw [if_pos heq] at hfix
      exact hfix
    · exact (PluginForm.fixFile?_bytes (PluginForm.suits_rewritten hsuits)).trans
        (by rw [if_pos (mended_mended t)])

/-- A file in UTF-16 without a mark, which is in UTF-8 afterwards. -/
theorem fixFile?_mends_unmarked :
    readPlugin (PluginForm.unmarked.bytes "é \n".toList) = .ok "é \n".toList ∧
    ∃ r, fixFile? (PluginForm.unmarked.bytes "é \n".toList) = .ok r ∧ r.isSome = true ∧
      readPlugin (r.getD (PluginForm.unmarked.bytes "é \n".toList)) = .ok "é\n".toList := by
  have hsuits : PluginForm.unmarked.Suits "é \n".toList := ⟨0xE9, _, rfl, by decide⟩
  have hread := PluginForm.readPlugin_bytes hsuits
  obtain ⟨r, hr, hsome, hagain, -⟩ := fixFile?_mends hread
  exact ⟨hread, r, hr, hsome.2 ⟨['é', ' '], by decide, by decide⟩, hagain⟩

/-! ## Dropping what is reported -/

/-- The numbers of the lines that are reported for blanks at their ends. -/
def flaggedLines (t : List Char) : List Int :=
  ((blankIssues t).filter (·.code == "MS-W002")).map (·.pos.line)

/-- A text without the spaces and tabs at the ends of the lines that are reported for them. -/
def mendFlagged (t : List Char) : List Char :=
  unlines (((lines t).zipIdx 1).map fun x =>
    if (x.2 : Int) ∈ flaggedLines t then dropEnd isSpaceOrTab x.1 else x.1)

/-- At the ends of lines there are no blanks but spaces and tabs. -/
def PlainEnds (t : List Char) : Prop :=
  ∀ l ∈ lines t, ∀ c ∈ l.rtakeWhile isBlank, isSpaceOrTab c = true

/-- The file has the reported blanks dropped, nothing else, and has kept its form. -/
def PluginForm.MendsFlagged (form : PluginForm) (t : List Char) : Prop :=
  ∃ r, fixFile? (form.bytes t) = .ok r ∧ r.getD (form.bytes t) = form.bytes (mendFlagged t)

theorem mem_flaggedLines {t : List Char} {n : Nat} (h : (l, n) ∈ (lines t).zipIdx 1) :
    (n : Int) ∈ flaggedLines t ↔ ∃ c ∈ l.getLast?, isSpaceOrTab c = true := by
  rw [← trailing_mem_lineIssues_iff (n := n), flaggedLines, List.mem_map]
  constructor
  · rintro ⟨d, hd, hline⟩
    obtain ⟨hd, hcode⟩ := List.mem_filter.1 hd
    obtain ⟨k, m, hk, hdk⟩ := mem_blankIssues.1 hd
    obtain rfl : m = n := by
      have := line_of_mem_lineIssues hdk
      omega
    rw [List.mk_mem_zipIdx_iff_le_and_getElem?_sub] at h hk
    obtain rfl : k = l := Option.some.inj (hk.2.symm.trans h.2)
    exact ⟨d, hdk, by simpa using hcode⟩
  · rintro ⟨d, hd, hcode⟩
    exact ⟨d, List.mem_filter.2 ⟨mem_blankIssues.2 ⟨l, n, h, hd⟩, by simpa using hcode⟩,
      line_of_mem_lineIssues hd⟩

/-- Lines that are not reported have nothing to drop. -/
theorem mendFlagged_eq (t : List Char) : mendFlagged t = dropEnds isSpaceOrTab t := by
  have hline : ∀ x ∈ (lines t).zipIdx 1,
      (if (x.2 : Int) ∈ flaggedLines t then dropEnd isSpaceOrTab x.1 else x.1) =
        dropEnd isSpaceOrTab x.1 := by
    intro x hx
    split
    · rfl
    · next hflag =>
      refine (dropEnd_eq_self fun c hc => ?_).symm
      by_contra hplain
      exact hflag ((mem_flaggedLines hx).2 ⟨c, hc, by simpa using hplain⟩)
  have hmap : ((lines t).zipIdx 1).map (fun x => dropEnd isSpaceOrTab x.1) =
      (lines t).map (dropEnd isSpaceOrTab) := by
    conv_rhs => rw [← List.zipIdx_map_fst 1 (lines t), List.map_map]
    rfl
  rw [mendFlagged, List.map_congr_left hline, hmap, dropEnds]

theorem dropEnd_isSpaceOrTab_eq_iff :
    dropEnd isSpaceOrTab l = dropEnd isBlank l ↔ ∀ c ∈ l.rtakeWhile isBlank,
      isSpaceOrTab c = true := by
  have hblank : dropEnd isBlank l ++ l.rtakeWhile isBlank = l :=
    List.rdropWhile_append_rtakeWhile ..
  constructor
  · intro h c hc
    have hplain : dropEnd isSpaceOrTab l ++ l.rtakeWhile isSpaceOrTab = l :=
      List.rdropWhile_append_rtakeWhile ..
    rw [h] at hplain
    rw [← List.append_cancel_left (hplain.trans hblank.symm)] at hc
    exact List.mem_rtakeWhile_imp hc
  · intro h
    have hlast : ∀ c ∈ (dropEnd isBlank l).getLast?, isSpaceOrTab c = false := by
      intro c hc
      by_contra hplain
      exact absurd (isBlank_of_isSpaceOrTab (by simpa using hplain))
        (by simp [last_trimRight l c hc])
    calc dropEnd isSpaceOrTab l =
      dropEnd isSpaceOrTab (dropEnd isBlank l ++ l.rtakeWhile isBlank) := by rw [hblank]
      _ = dropEnd isSpaceOrTab (dropEnd isBlank l) := dropEnd_append h _
      _ = dropEnd isBlank l := dropEnd_eq_self hlast

theorem mended_eq_mendFlagged_iff {t : List Char} : mended t = mendFlagged t ↔ PlainEnds t := by
  rw [eq_comm, mendFlagged_eq, mended, dropEnds_congr_iff]
  exact forall₂_congr fun l _ => dropEnd_isSpaceOrTab_eq_iff

/-- What needs no mending is not reported. -/
theorem plainEnds_of_mended {t : List Char} (h : mended t = t) : PlainEnds t := by
  intro l hl c hc
  have hself : dropEnd isBlank l = l := dropEnds_eq_self_iff.1 h l hl
  have hsplit : dropEnd isBlank l ++ l.rtakeWhile isBlank = l :=
    List.rdropWhile_append_rtakeWhile ..
  rw [hself, List.append_right_eq_self] at hsplit
  rw [hsplit] at hc
  cases hc

/-! ## Keeping the form -/

theorem encodeUtf8_injective : Function.Injective encodeUtf8 := by
  intro a b h
  have hdecode := Encoding.decode_encodeUtf8 a
  rw [h, Encoding.decode_encodeUtf8] at hdecode
  exact (Except.ok.inj hdecode).symm

theorem encodeUtf16_injective (order : ByteOrder) : Function.Injective (encodeUtf16 order) := by
  intro a b h
  have hdecode := Encoding.decode_encodeUtf16 order a
  rw [h, Encoding.decode_encodeUtf16] at hdecode
  exact (Except.ok.inj hdecode).symm

/-- In UTF-16 a character of one byte has a zero byte before it. -/
theorem encodeUtf16_cons_of_le (hc : c.toNat ≤ 0xFF) (r : List Char) :
    ∃ bs, encodeUtf16 .big (c :: r) = 0 :: bs := by
  refine ⟨byte (c.toNat % 0x100) :: encodeUtf16 .big r, ?_⟩
  rw [encodeUtf16, List.flatMap_cons, unitsOfChar]
  rw [if_pos (by omega), List.flatMap_singleton, unitBytes, Nat.div_eq_of_lt (by omega)]
  rfl

/-- A text that is mended in UTF-8 is not the same in UTF-16, unless nothing is left of it. -/
theorem encodeUtf8_mended_eq_iff {t : List Char} (h : LooksWide (encodeUtf16 .big t)) :
    encodeUtf8 (mended t) = encodeUtf16 .big (mendFlagged t) ↔ PlainEnds t ∧ mended t = [] := by
  obtain ⟨c, r, rfl, hlow, hhigh⟩ := exists_of_looksWide_encodeUtf16 h
  constructor
  · intro heq
    cases hflagged : mendFlagged (c :: r) with
    | nil =>
      rw [hflagged] at heq
      have hnil : mended (c :: r) = [] := encodeUtf8_injective heq
      exact ⟨mended_eq_mendFlagged_iff.1 (hnil.trans hflagged.symm), hnil⟩
    | cons x s =>
      -- the bytes would start with zero, but the mended text starts with no zero character
      have hx : x = c ∨ x = '\n' :=
        eq_of_mem_head?_dropEnds (p := isSpaceOrTab) (by rw [← mendFlagged_eq, hflagged]; rfl)
      have hsmall : x.toNat ≤ 0xFF := by
        rcases hx with rfl | rfl
        · exact hhigh
        · decide
      obtain ⟨bs, hbs⟩ := encodeUtf16_cons_of_le hsmall s
      rw [hflagged, hbs] at heq
      cases hmended : mended (c :: r) with
      | nil =>
        rw [hmended] at heq
        cases heq
      | cons y u =>
        obtain ⟨b, v, hy, -, hzero⟩ := exists_utf8OfChar y
        rw [hmended, encodeUtf8, List.flatMap_cons, hy, List.cons_append, List.cons.injEq] at heq
        have hy₀ : y.toNat = 0 := hzero (by rw [heq.1]; rfl)
        have hhead : y = c ∨ y = '\n' :=
          eq_of_mem_head?_dropEnds (p := isBlank) (by rw [← mended, hmended]; rfl)
        rcases hhead with rfl | rfl
        · omega
        · cases hy₀
  · rintro ⟨hplain, hnil⟩
    rw [← mended_eq_mendFlagged_iff.2 hplain, hnil]
    rfl

/-- **What mending does to a file.** A file whose form can be told by its first bytes is left alone
if no line ends with blanks, and else it is written with the mended text, in its own form if it has
a mark or is in UTF-8, and in UTF-8 if it has no mark. So just what is reported is dropped, and the
form is kept, if and only if lines end with no blanks but spaces and tabs and, in UTF-16 without a
mark, there is nothing to drop or nothing left. -/
theorem fixFile?_bytes_iff (form : PluginForm) {t : List Char} (h : form.Suits t) :
    fixFile? (form.bytes t) =
      .ok (if mended t = t then none else some (form.rewritten.bytes (mended t))) ∧
      (form.MendsFlagged t ↔ PlainEnds t ∧ (form = .unmarked → mended t = t ∨ mended t = [])) := by
  have hfix := PluginForm.fixFile?_bytes h
  refine ⟨hfix, ?_⟩
  have hmends : form.MendsFlagged t ↔
      Option.getD (if mended t = t then none else some (form.rewritten.bytes (mended t)))
        (form.bytes t) = form.bytes (mendFlagged t) := by
    constructor
    · rintro ⟨r, hr, heq⟩
      cases hfix.symm.trans hr
      exact heq
    · exact fun heq => ⟨_, hfix, heq⟩
  rw [hmends]
  by_cases hsame : mended t = t
  · have hplain := plainEnds_of_mended hsame
    rw [if_pos hsame, ← mended_eq_mendFlagged_iff.2 hplain, hsame]
    exact iff_of_true rfl ⟨hplain, fun _ => .inl rfl⟩
  · rw [if_neg hsame, Option.getD_some]
    cases form with
    | utf8 =>
      rw [PluginForm.rewritten, PluginForm.bytes, PluginForm.bytes, encodeUtf8_injective.eq_iff,
        mended_eq_mendFlagged_iff]
      simp
    | marked order =>
      rw [PluginForm.rewritten, PluginForm.bytes, PluginForm.bytes, markedUtf16, markedUtf16,
        (encodeUtf16_injective order).eq_iff, List.cons_inj_right, mended_eq_mendFlagged_iff]
      simp
    | unmarked =>
      rw [PluginForm.rewritten, PluginForm.bytes, PluginForm.bytes, encodeUtf8_mended_eq_iff h]
      simp [hsame]

/-- Spaces and tabs are dropped from a file with a mark, which stays. -/
theorem fixFile?_bytes_iff_marked : (PluginForm.marked .little).Suits "a \t\nb".toList ∧
    (PluginForm.marked .little).MendsFlagged "a \t\nb".toList := by
  have hplain : PlainEnds "a \t\nb".toList := mended_eq_mendFlagged_iff.1 (by decide)
  exact ⟨trivial, (fixFile?_bytes_iff (.marked .little) trivial).2.2 ⟨hplain, nofun⟩⟩

/-- A carriage return is dropped though it is not reported, and a file in UTF-16 without a mark does
not keep its form. -/
theorem not_mendsFlagged : ¬ PluginForm.utf8.MendsFlagged "a\r\nb".toList ∧
    ¬ PluginForm.unmarked.MendsFlagged "a \nb".toList := by
  constructor
  · rintro ⟨r, hr, heq⟩
    have hsuits : PluginForm.utf8.Suits "a\r\nb".toList := by
      rintro ⟨b, r, h, -⟩
      cases h
    have hfix := PluginForm.fixFile?_bytes hsuits
    rw [if_neg (by decide)] at hfix
    cases hfix.symm.trans hr
    revert heq
    decide
  · rintro ⟨r, hr, heq⟩
    have hsuits : PluginForm.unmarked.Suits "a \nb".toList := ⟨0x61, _, rfl, by decide⟩
    have hfix := PluginForm.fixFile?_bytes hsuits
    rw [if_neg (by decide)] at hfix
    cases hfix.symm.trans hr
    revert heq
    decide

end Partitura.Lint
