import Partitura.Proofs.Layout.Members

/-!
# A plugin that was laid out stays as it is

Laying out a plugin twice is laying it out once (`plugin_plugin`), if every text that is taken for a
method is understood. The proof goes along the lines as the layout does: a member is found again
where it was written, with a text that does not change any more (`pluginLines_member`), and a line
that starts no member starts none afterwards. The one thing that could give it an end, a bare quote
further down, is not there: after a head without an end no line has a bare quote
(`scan_of_mem_pluginLines`).
-/

namespace Partitura.Layout

open ManuScript ManuScript.Lexer Text

variable {last : Option (List Char)} {line o : List Char} {ls rest : List (List Char)}

/-! ## Lines that start no member -/

theorem eq_of_mem_plainLine (h : o ∈ plainLine last line) :
    o = trim line ∨ o = indentation ++ trim line ∨ o = trimRight line := by
  simp only [plainLine] at h
  split at h
  · exact .inl (List.mem_singleton.1 h)
  · split at h
    · next he =>
      split at h
      · cases h
      · rw [List.isEmpty_iff.1 he]
        exact .inl (List.mem_singleton.1 h)
    · split at h
      · exact .inr (.inl (List.mem_singleton.1 h))
      · exact .inr (.inr (List.mem_singleton.1 h))

theorem trim_of_mem_plainLine (h : o ∈ plainLine last line) : trim o = trim line := by
  rcases eq_of_mem_plainLine h with rfl | rfl | rfl
  · exact trim_trim line
  · rw [trim_allBlank_append allBlank_indentation, trim_trim]
  · exact trim_trimRight line

theorem scan_of_mem_plainLine (h : o ∈ plainLine last line) (hs : scan false line ≠ none) :
    scan false o ≠ none := by
  rwa [ne_eq, ← scan_trim_eq_none, trim_of_mem_plainLine h, scan_trim_eq_none]

theorem not_mem_of_mem_plainLine (h : o ∈ plainLine last line) (hl : '\n' ∉ line) : '\n' ∉ o := by
  intro hc
  rcases eq_of_mem_plainLine h with rfl | rfl | rfl
  · exact hl (mem_of_mem_trim hc)
  · rcases List.mem_append.1 hc with hc | hc
    · exact absurd hc (by decide)
    · exact hl (mem_of_mem_trim hc)
  · exact hl (mem_of_mem_trimRight hc)

/-- A line that was written is written again. -/
theorem plainLine_of_mem_plainLine (h : o ∈ plainLine last line) : plainLine last o = [o] := by
  have htrim := trim_of_mem_plainLine h
  simp only [plainLine] at h ⊢
  rw [htrim]
  split at h
  · next hb => rw [if_pos hb, List.mem_singleton.1 h]
  · next hb =>
    rw [if_neg hb]
    split at h
    · next he =>
      rw [if_pos he]
      split at h
      · cases h
      · next hlast => rw [if_neg hlast, List.mem_singleton.1 h]
    · next he =>
      rw [if_neg he]
      split at h
      · next hc => rw [if_pos hc, List.mem_singleton.1 h]
      · next hc =>
        rw [if_neg hc, List.mem_singleton.1 h, trimRight_of_last (last_trimRight line)]

/-- At most one line is written for a line, and one that holds something is not left out. -/
theorem plainLine_eq (last : Option (List Char)) (line : List Char) :
    (plainLine last line = [] ∧ trim line = []) ∨ ∃ o, plainLine last line = [o] := by
  simp only [plainLine]
  split
  · exact .inr ⟨_, rfl⟩
  · split
    · next he =>
      split
      · exact .inl ⟨rfl, List.isEmpty_iff.1 he⟩
      · exact .inr ⟨_, rfl⟩
    · split
      · exact .inr ⟨_, rfl⟩
      · exact .inr ⟨_, rfl⟩

theorem plainLine_of_not_isPlain (h : isPlain line = false) (last : Option (List Char)) :
    plainLine last line = [trimRight line] := by
  simp only [isPlain, Bool.or_eq_false_iff] at h
  simp [plainLine, h]

/-! ## Heads without an end -/

theorem member?_of_scan (h : scan false line ≠ none) (rest : List (List Char)) :
    member? line rest = none := by
  rw [member?]
  split
  · rfl
  split
  · rfl
  · next name tail hhead =>
    obtain ⟨pre, gap, hhead⟩ := wordHead?_eq_some_iff.1 hhead
    exact absurd hhead.scan_eq_none h

/-- Where no line has a bare quote, no line has one afterwards. -/
theorem scan_of_mem_pluginLines (h : ∀ l ∈ ls, '\n' ∉ l ∧ scan false l ≠ none)
    (ho : o ∈ pluginLines 0 last ls) : '\n' ∉ o ∧ scan false o ≠ none := by
  induction ls generalizing last with
  | nil => cases ho
  | cons l r ih =>
    obtain ⟨hnl, hs⟩ := h l (by simp)
    rw [pluginLines, member?_of_scan hs] at ho
    rcases List.mem_append.1 ho with ho | ho
    · exact ⟨not_mem_of_mem_plainLine ho hnl, scan_of_mem_plainLine ho hs⟩
    · exact ih (fun l hl => h l (by simp [hl])) ho

/-- A line that starts no member starts none when it was written, unless a bare quote came up after
it. -/
theorem member?_of_mem_plainLine {rest' : List (List Char)} (h : o ∈ plainLine last line)
    (hm : member? line rest = none)
    (hrest : (∀ l ∈ rest, scan false l ≠ none) → ∀ l ∈ rest', scan false l ≠ none) :
    member? o rest' = none := by
  have hplain : isPlain o = isPlain line := by simp only [isPlain, trim_of_mem_plainLine h]
  cases hp : isPlain line with
  | true => rw [member?, hplain, hp, if_pos rfl]
  | false =>
    rw [plainLine_of_not_isPlain hp, List.mem_singleton] at h
    obtain ⟨b, hb, hline⟩ := exists_trimRight_append_allBlank line
    rw [← h] at hline
    rw [member?, hplain, hp, if_neg (by simp)]
    split
    · rfl
    · next name tail hhead =>
      obtain ⟨pre, gap, hhead⟩ := wordHead?_eq_some_iff.1 hhead
      have hwhole : HeadOf line pre name gap (tail ++ b) :=
        { hhead with line_eq := by rw [hline, hhead.line_eq]; simp }
      rw [member?, hp, if_neg (by simp), wordHead?_eq_some_iff.2 ⟨pre, gap, hwhole⟩] at hm
      have hnone := memberEnd?_eq_none_iff.1 (Option.map_eq_none_iff.1 hm)
      rw [Option.map_eq_none_iff, memberEnd?_eq_none_iff]
      intro l hl
      rcases List.mem_cons.1 hl with rfl | hl
      · have := hnone (l ++ b) (by simp)
        rwa [ne_eq, scan_append_allBlank_eq_none hb] at this
      · exact hrest (fun l hl => hnone l (by simp [hl])) l hl

/-! ## The second layout -/

theorem getLast?_cons_or {α : Type} (a : α) (l : List α) (o : Option α) :
    (a :: l).getLast?.or o = l.getLast?.or (some a) := by
  cases l with
  | nil => rfl
  | cons b l => simp [List.getLast?_cons]

/-- What is written for the lines `ls` is written again for what was written, with the lines `rest`
behind. -/
def Settled (last : Option (List Char)) (ls rest : List (List Char)) : Prop :=
  pluginLines 0 last ((pluginLines 0 last ls).flatMap lines ++ rest) =
    pluginLines 0 last ls ++ pluginLines 0 ((pluginLines 0 last ls).getLast?.or last) rest

theorem settled_nil (last : Option (List Char)) (rest : List (List Char)) :
    Settled last [] rest := by
  simp [Settled, pluginLines]

/-- A member in front of lines that are settled. -/
theorem settled_member {name text post : List Char} {more : List (List Char)}
    (hmember : MemberOf line more name text post)
    (htext : (trim text).head? = some '(' → Understood text)
    (h : Settled (some (memberLine name text)) ls rest) (last : Option (List Char)) :
    Settled last (line :: (more ++ ls)) rest := by
  obtain ⟨pre, gap, tail, hhead, -⟩ := hmember.head
  obtain ⟨line', more', hout, hmember'⟩ :=
    exists_lines_of_name allBlank_indentation (by decide) hhead.name_ne_nil
    hhead.name_word (scan_memberText htext hmember.escaped)
  have hout : lines (memberLine name text) = line' :: more' := hout
  have hagain : memberLine name (memberText text) = memberLine name text := by
    rw [memberLine, memberLine, memberText_memberText htext]
  rw [Settled] at h ⊢
  rw [pluginLines_member hmember, List.flatMap_cons, hout, List.append_assoc, List.cons_append,
    pluginLines_member hmember', hagain, h, getLast?_cons_or, List.cons_append]

/-- Lines without a bare quote are written as such lines. -/
theorem scan_of_mem_written (hls : ∀ l ∈ ls, '\n' ∉ l ∧ scan false l ≠ none)
    (hrest : ∀ l ∈ rest, scan false l ≠ none) :
    ∀ l ∈ (pluginLines 0 last ls).flatMap lines ++ rest, scan false l ≠ none := by
  have hwritten : ∀ l ∈ pluginLines 0 last ls, '\n' ∉ l ∧ scan false l ≠ none :=
    fun l hl => scan_of_mem_pluginLines hls hl
  intro l hl
  rw [flatMap_lines_of_not_mem fun l hl => (hwritten l hl).1] at hl
  rcases List.mem_append.1 hl with hl | hl
  · exact (hwritten l hl).2
  · exact hrest l hl

/-- A line that starts no member, in front of lines that are settled. -/
theorem settled_plain (hmem : member? line ls = none) (hline : '\n' ∉ line)
    (hls : ∀ l ∈ ls, '\n' ∉ l) (hrest : ∀ l ∈ rest, scan false l ≠ none)
    (h : ∀ last, Settled last ls rest) (last : Option (List Char)) :
    Settled last (line :: ls) rest := by
  rw [Settled, pluginLines_plain hmem]
  rcases plainLine_eq last line with ⟨hout, -⟩ | ⟨o, hout⟩
  · rw [hout]
    exact h last
  · have ho : o ∈ plainLine last line := by simp [hout]
    have hlines : lines o = [o] := lines_of_not_mem (not_mem_of_mem_plainLine ho hline)
    have hmem' : member? o ((pluginLines 0 (some o) ls).flatMap lines ++ rest) = none :=
      member?_of_mem_plainLine ho hmem fun hquiet =>
        scan_of_mem_written (fun l hl => ⟨hls l hl, hquiet l hl⟩) hrest
    have hnext : pluginLines 0 (some o) ((pluginLines 0 (some o) ls).flatMap lines ++ rest) =
        pluginLines 0 (some o) ls ++
          pluginLines 0 ((pluginLines 0 (some o) ls).getLast?.or (some o)) rest := h (some o)
    rw [hout, List.singleton_append, List.getLast?_singleton, Option.some_or, List.flatMap_cons,
      hlines, List.append_assoc, List.singleton_append, pluginLines_plain hmem',
      plainLine_of_mem_plainLine ho, List.getLast?_singleton, Option.some_or, hnext,
      getLast?_cons_or, List.singleton_append, List.cons_append]

/-- Lines that were laid out, and lines without a bare quote behind them, are laid out as they
are. -/
theorem settled_of_understood (ls : List (List Char)) (hls : ∀ l ∈ ls, '\n' ∉ l)
    (hm : ∀ m ∈ membersIn 0 ls, (trim m.2).head? = some '(' → Understood m.2)
    (last : Option (List Char)) (rest : List (List Char))
    (hrest : ∀ l ∈ rest, scan false l ≠ none) : Settled last ls rest := by
  refine lines_induction (motive := fun ls =>
      (∀ m ∈ membersIn 0 ls, (trim m.2).head? = some '(' → Understood m.2) → ∀ last,
      Settled last ls rest)
    (fun _ last => settled_nil last rest) (fun hmember ih hm last => ?_)
      (fun hmem hl ih hm last => ?_) ls hls hm last
  · rw [membersIn_member hmember, List.forall_mem_cons] at hm
    exact settled_member hmember hm.1 (ih hm.2 _) last
  · rw [membersIn_plain hmem] at hm
    rw [List.forall_mem_cons] at hl
    exact settled_plain hmem hl.1 hl.2 hrest (ih hm) last

/-! ## The end of the last line -/

/-- Lines of which the last one, if there is any, is ended. -/
def ended (ls : List (List Char)) : List (List Char) :=
  if ls.getLast?.all (·.isEmpty) then ls else ls ++ [[]]

theorem plugin_eq (content : List Char) :
    plugin content = unlines (ended (pluginLines 0 none (lines content))) := rfl

theorem ended_ended (ls : List (List Char)) : ended (ended ls) = ended ls := by
  have hlast : (ended ls).getLast?.all (·.isEmpty) = true := by
    rw [ended]
    split
    · assumption
    · simp
  rw [ended, if_pos hlast]

theorem ended_ne_nil (h : ls ≠ []) : ended ls ≠ [] := by
  rw [ended]
  split <;> simp [h]

/-- An empty line stands behind a line that holds something and nowhere else. -/
theorem pluginLines_empty_line (last : Option (List Char)) : pluginLines 0 last [[]] =
    if last.all (·.isEmpty) then [] else [[]] := by
  rw [pluginLines_plain (member?_of_scan (by simp) [])]
  simp [plainLine, pluginLines, show trim [] = [] from rfl]

theorem pluginLines_ended (hls : ∀ l ∈ ls, '\n' ∉ l)
    (hm : ∀ m ∈ membersIn 0 ls, (trim m.2).head? = some '(' → Understood m.2) :
    pluginLines 0 none ((ended (pluginLines 0 none ls)).flatMap lines) =
      ended (pluginLines 0 none ls) := by
  rw [ended]
  split
  · have h := settled_of_understood ls hls hm none [] (by simp)
    simpa [Settled, pluginLines] using h
  · next hlast =>
    have h := settled_of_understood ls hls hm none [[]] (by simp)
    rw [Settled, Option.or_none, pluginLines_empty_line, if_neg hlast] at h
    rw [List.flatMap_append]
    exact h

/-- Laying out a plugin that was laid out changes nothing. The text may be anything, but what is
taken for a method has to be understood. -/
theorem plugin_plugin (content : List Char)
    (h : ∀ m ∈ members content, (trim m.2).head? = some '(' → Understood m.2) :
    plugin (plugin content) = plugin content := by
  have hls : ∀ l ∈ lines content, '\n' ∉ l := fun l hl => newline_not_mem_of_mem_lines hl
  rw [plugin_eq content]
  by_cases hout : pluginLines 0 none (lines content) = []
  · rw [hout]
    decide
  · rw [plugin_eq, lines_unlines (ended_ne_nil hout), pluginLines_ended hls h, ended_ended]

/-- A plugin with a method, numbers that grow together, a text behind a quote, a member over two
lines and a head without an end. -/
def roughPlugin : List Char :=
  "\x7b\n\n\nRun  \"( a ) \x7bx=1. .5;// \\\"so\\\" \n if(x)\x7by();\x7delse\x7b\x7d\x7d".toList ++
    " off\" on\nA \"1\n 2\"\n odd \"no end \n\x7d".toList

theorem plugin_plugin_roughPlugin :
    (∀ m ∈ members roughPlugin, (trim m.2).head? = some '(' → Understood m.2) ∧
    (members roughPlugin).length = 2 ∧ plugin (plugin roughPlugin) = plugin roughPlugin := by
  have h : ∀ m ∈ members roughPlugin, (trim m.2).head? = some '(' → Understood m.2 := by
    decide +kernel
  exact ⟨h, by decide +kernel, plugin_plugin roughPlugin h⟩

end Partitura.Layout
