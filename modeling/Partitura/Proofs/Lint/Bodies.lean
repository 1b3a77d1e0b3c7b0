import Partitura.Lint.Bodies
import Partitura.Proofs.ManuScript.Sheets

/-!
# The members that are found line by line

The members of a plugin file are found twice: by reading the file as a plugin, and line by line for
the checks of their code. The first ends the text of a member at its first bare quote; the second
keeps account of apostrophes, over all lines of the text, and sees no quote inside a string that an
apostrophe has opened. So the two agree on a file if and only if the apostrophes of each text are
paired (`bodies_sheet_iff`). An apostrophe without its pair hides the end of its text, and with it
what follows.
-/

namespace Partitura.Lint

open ManuScript Text

variable {c : Char} {nested : Bool} {line t l name : List Char}
  {rest after ls : List (List Char)} {e : Entry}

/-! ## Apostrophes -/

/-- The number of apostrophes in a text, without those behind a backslash. -/
def apostrophes : List Char → Nat
  | [] => 0
  | '\\' :: _ :: r => apostrophes r
  | c :: r => (if c = '\'' then 1 else 0) + apostrophes r

theorem apostrophes_cons (hc : c ≠ '\\') (r : List Char) :
    apostrophes (c :: r) = (if c = '\'' then 1 else 0) + apostrophes r := by
  rw [apostrophes]
  exact fun _ _ h _ => hc h

/-- A line feed is no apostrophe, and behind a backslash it hides none. -/
theorem apostrophes_append_newline (a b : List Char) :
    apostrophes (a ++ '\n' :: b) = apostrophes a + apostrophes b := by
  fun_induction apostrophes a with
  | case1 => rw [List.nil_append, apostrophes_cons (by decide)]; simp
  | case2 e r ih => exact ih
  | case3 c r hne ih =>
    by_cases hc : c = '\\'
    · subst hc
      cases r with
      | nil => simp [apostrophes]
      | cons e r => exact (hne e r rfl rfl).elim
    · rw [List.cons_append, apostrophes_cons hc, ih, Nat.add_assoc]

/-- Whether a text that starts inside or outside of a string ends inside of one. -/
def endsNested (nested : Bool) (w : List Char) : Bool := nested ^^ (apostrophes w % 2 == 1)

@[simp] theorem endsNested_nil (nested : Bool) : endsNested nested [] = nested := by
  simp [endsNested, apostrophes]

@[simp] theorem endsNested_escape (nested : Bool) (e : Char) (r : List Char) :
    endsNested nested ('\\' :: e :: r) = endsNested nested r := rfl

theorem xor_odd_add (nested : Bool) (m n : Nat) :
    (nested ^^ ((m + n) % 2 == 1)) = (nested ^^ (m % 2 == 1) ^^ (n % 2 == 1)) := by
  rcases Nat.mod_two_eq_zero_or_one m with hm | hm <;>
    rcases Nat.mod_two_eq_zero_or_one n with hn | hn <;>
    simp [Nat.add_mod, hm, hn]

theorem endsNested_cons (hc : c ≠ '\\') (nested : Bool) (r : List Char) :
    endsNested nested (c :: r) = endsNested (nested ^^ (c == '\'')) r := by
  rw [endsNested, apostrophes_cons hc, xor_odd_add, endsNested]
  by_cases hq : c = '\''
  · simp [hq]
  · simp [hq, beq_eq_false_iff_ne.2 hq]

theorem endsNested_append_newline (nested : Bool) (a b : List Char) :
    endsNested nested (a ++ '\n' :: b) = endsNested (endsNested nested a) b := by
  rw [endsNested, apostrophes_append_newline, xor_odd_add, endsNested, endsNested]

/-! ## One line -/

theorem closeOn_cons (hc : c ≠ '\\') (hq : c ≠ '"') (nested : Bool) (r : List Char) :
    closeOn nested (c :: r) =
      ((closeOn (nested ^^ (c == '\'')) r).1.map (c :: ·),
        (closeOn (nested ^^ (c == '\'')) r).2) := by
  rw [closeOn]
  · by_cases ha : c = '\''
    · simp [ha]
    · simp [hq, beq_eq_false_iff_ne.2 ha]
  · exact fun _ _ h _ => hc h

/-- A line without a bare quote closes nothing. -/
theorem closeOn_of_scan {w : List Char} {e : Bool} (h : scan false w = some e) (nested : Bool) :
    closeOn nested w = (none, endsNested nested w) := by
  fun_induction apostrophes w generalizing nested with
  | case1 => simp [closeOn]
  | case2 x r ih => rw [closeOn, ih (by simpa [scan] using h)]; rfl
  | case3 c r hne ih =>
    by_cases hc : c = '\\'
    · subst hc
      cases r with
      | nil => simp [closeOn, endsNested, apostrophes]
      | cons x r => exact (hne x r rfl rfl).elim
    · by_cases hq : c = '"'
      · simp [scan, hq] at h
      · rw [closeOn_cons hc hq, endsNested_cons hc, ih (by simpa [scan, hc, hq] using h)]
        rfl

/-- The first bare quote closes the text if it stands outside of strings; inside of one the line
goes on behind it. -/
theorem closeOn_append_quote {w : List Char} (h : scan false w = some false) (nested : Bool)
    (tail : List Char) : closeOn nested (w ++ '"' :: tail) =
      if endsNested nested w then ((closeOn true tail).1.map (w ++ '"' :: ·), (closeOn true tail).2)
      else (some w, false) := by
  fun_induction apostrophes w generalizing nested with
  | case1 => cases nested <;> simp [closeOn]
  | case2 x r ih =>
    have hr := ih (by simpa [scan] using h) nested
    rw [List.cons_append, List.cons_append, closeOn, hr, endsNested_escape]
    cases endsNested nested r <;> simp [Function.comp_def]
  | case3 c r hne ih =>
    by_cases hc : c = '\\'
    · subst hc
      cases r with
      | nil => simp [scan] at h
      | cons x r => exact (hne x r rfl rfl).elim
    · by_cases hq : c = '"'
      · simp [scan, hq] at h
      · rw [List.cons_append, closeOn_cons hc hq, ih (by simpa [scan, hc, hq] using h),
          endsNested_cons hc]
        cases endsNested (nested ^^ (c == '\'')) r <;> simp [Function.comp_def]

/-! ## The lines of a text -/

section Gather

variable {ks : List (List Char)} {w : List Char}

/-- No line of a text has a bare quote, and the last one does not end with an escape. -/
theorem scan_lines (h : scan false (unlines (ks ++ [w])) = some false) :
    (∀ k ∈ ks, ∃ e, scan false k = some e) ∧ scan false w = some false := by
  induction ks with
  | nil => exact ⟨by simp, h⟩
  | cons k ks ih =>
    rw [List.cons_append, unlines_cons (by simp), scan_append_newline] at h
    obtain ⟨e, hk, h⟩ := Option.bind_eq_some_iff.1 h
    obtain ⟨hks, hw⟩ := ih h
    exact ⟨List.forall_mem_cons.2 ⟨⟨e, hk⟩, hks⟩, hw⟩

theorem gather_of_some {n : Bool} (h : closeOn nested line = (some t, n))
    (done rest : List (List Char)) :
    gather nested done line rest = some (unlines (done ++ [t]), rest) := by
  unfold gather
  rw [h]

theorem gather_of_none {n : Bool} (h : closeOn nested line = (none, n))
    (done : List (List Char)) (l : List Char) (ls : List (List Char)) :
    gather nested done line (l :: ls) = gather n (done ++ [line]) l ls := by
  conv_lhs => unfold gather
  rw [h]

/-- Lines without a bare quote are passed over, each with the state that the one before it
leaves. -/
theorem gather_append (hks : ∀ k ∈ ks, ∃ e, scan false k = some e) (nested : Bool)
    (done : List (List Char)) {v : List Char} (hlines : ks ++ v :: after = line :: rest) :
    gather nested done line rest = gather (ks.foldl endsNested nested) (done ++ ks) v after := by
  induction ks generalizing nested done line rest with
  | nil =>
    obtain ⟨rfl, rfl⟩ := List.cons.inj hlines
    rw [List.append_nil, List.foldl_nil]
  | cons k ks ih =>
    rw [List.cons_append, List.cons.injEq] at hlines
    obtain ⟨rfl, rfl⟩ := hlines
    obtain ⟨⟨e, hk⟩, hks⟩ := List.forall_mem_cons.1 hks
    obtain ⟨l, ls, hls⟩ : ∃ l ls, ks ++ v :: after = l :: ls := List.exists_cons_of_ne_nil (by simp)
    rw [hls, gather_of_none (closeOn_of_scan hk nested), ih hks _ _ hls, List.append_assoc,
      List.foldl_cons]
    rfl

theorem endsNested_unlines (nested : Bool) (ks : List (List Char)) (w : List Char) :
    endsNested nested (unlines (ks ++ [w])) = endsNested (ks.foldl endsNested nested) w := by
  induction ks generalizing nested with
  | nil => rfl
  | cons k ks ih =>
    rw [List.cons_append, unlines_cons (by simp), endsNested_append_newline, ih, List.foldl_cons]

/-- A text whose apostrophes are paired ends with its quote. -/
theorem gather_of_paired (hks : ∀ k ∈ ks, ∃ e, scan false k = some e)
    (hw : scan false w = some false) (hn : endsNested nested (unlines (ks ++ [w])) = false)
    (done : List (List Char)) (hlines : ks ++ (w ++ ['"']) :: after = line :: rest) :
    gather nested done line rest = some (unlines (done ++ ks ++ [w]), after) := by
  rw [endsNested_unlines] at hn
  have hclose :=
    (closeOn_append_quote hw (ks.foldl endsNested nested) []).trans (if_neg (by simpa using hn))
  rw [gather_append hks nested done hlines, gather_of_some hclose]

/-- What is found of a text goes on with what was found before. -/
theorem exists_of_gather {done : List (List Char)}
    (h : gather nested done line rest = some (t, after)) :
    ∃ us, us ≠ [] ∧ t = unlines (done ++ us) := by
  fun_induction gather nested done line rest with
  | case1 nested done line u _ _ rest =>
    simp only [Option.some.injEq, Prod.mk.injEq] at h
    exact ⟨[_], by simp, h.1.symm⟩
  | case2 => cases h
  | case3 nested done line n _ l ls ih =>
    obtain ⟨us, -, ht⟩ := ih h
    exact ⟨line :: us, by simp, by simpa using ht⟩

/-- A text with an apostrophe that has no pair goes on behind its quote. -/
theorem exists_of_gather_unpaired (hks : ∀ k ∈ ks, ∃ e, scan false k = some e)
    (hw : scan false w = some false) (hn : endsNested nested (unlines (ks ++ [w])) = true)
    {done : List (List Char)} {left : List (List Char)}
    (hlines : ks ++ (w ++ ['"']) :: after = line :: rest)
    (h : gather nested done line rest = some (t, left)) :
    ∃ us, us ≠ [] ∧ t = unlines (done ++ ks ++ [w ++ ['"']] ++ us) := by
  rw [endsNested_unlines] at hn
  -- the quote stands inside of a string, so the text goes on with the next line, if there is one
  have hclose : closeOn (ks.foldl endsNested nested) (w ++ ['"']) = (none, true) :=
    (closeOn_append_quote hw _ []).trans (if_pos hn)
  rw [gather_append hks nested done hlines] at h
  cases after with
  | nil => simp [gather, hclose] at h
  | cons l ls =>
    rw [gather_of_none hclose] at h
    exact exists_of_gather h

/-- The lines of a text with its quote, before others. -/
theorem exists_lines_quoted (ht : Escaped t) (hl : lines (t ++ ['"']) = l :: ls) :
    ∃ ks w, unlines (ks ++ [w]) = t ∧ (∀ k ∈ ks, ∃ e, scan false k = some e) ∧
      scan false w = some false ∧ ∀ after, ks ++ (w ++ ['"']) :: after = l :: (ls ++ after) := by
  obtain ⟨ks, w, hlines⟩ : ∃ ks w, lines t = ks ++ [w] :=
    ⟨_, _, (List.dropLast_append_getLast (lines_ne_nil t)).symm⟩
  have hunlines : unlines (ks ++ [w]) = t := by rw [← hlines, unlines_lines]
  obtain ⟨hks, hw⟩ := scan_lines (hunlines.symm ▸ escaped_iff.1 ht)
  refine ⟨ks, w, hunlines, hks, hw, fun after => ?_⟩
  rw [← List.cons_append, ← hl, lines_append_concat hlines (by decide), List.append_assoc,
    List.singleton_append]

theorem gather_quoted (ht : Escaped t) (hl : lines (t ++ ['"']) = l :: ls)
    (hn : endsNested false t = false) (after : List (List Char)) :
    gather false [] l (ls ++ after) = some (t, after) := by
  obtain ⟨ks, w, hunlines, hks, hw, hlines⟩ := exists_lines_quoted ht hl
  rw [gather_of_paired hks hw (hunlines.symm ▸ hn) [] (hlines after), List.nil_append, hunlines]

theorem ne_of_gather_quoted {t' : List Char} {left : List (List Char)} (ht : Escaped t)
    (hl : lines (t ++ ['"']) = l :: ls) (hn : endsNested false t = true)
    (h : gather false [] l (ls ++ after) = some (t', left)) : t' ≠ t := by
  obtain ⟨ks, w, hunlines, hks, hw, hlines⟩ := exists_lines_quoted ht hl
  obtain ⟨us, hus, hfound⟩ := exists_of_gather_unpaired hks hw (hunlines.symm ▸ hn) (hlines after) h
  rw [List.nil_append, unlines_append (by simp) hus, ← unlines_concat_append, hunlines] at hfound
  rintro rfl
  have hlength := congrArg List.length hfound
  simp only [List.length_append, List.length_cons] at hlength
  omega

end Gather

/-! ## Heads -/

section
variable {first more : Char → Bool}

theorem head?_entry {indent : List Char} (hindent : AllBlank indent) (hc : first c = true)
    (hblank : isBlank c = false) {r : List Char} (hr : ∀ x ∈ r, more x = true)
    (hgap : more ' ' = false) (tail : List Char) :
    head? first more (indent ++ (c :: r) ++ [' ', '"'] ++ tail) = some (c :: r, tail) := by
  have hskip : (indent ++ (c :: r) ++ [' ', '"'] ++ tail).dropWhile isBlank =
      c :: (r ++ ' ' :: '"' :: tail) := by
    rw [List.append_assoc, List.append_assoc, List.dropWhile_append_of_pos hindent,
      List.cons_append, List.dropWhile_cons_of_neg (by simp [hblank])]
    rfl
  rw [head?, hskip]
  simp only [hc, if_true]
  rw [List.dropWhile_append_of_pos hr, List.takeWhile_append_of_pos hr]
  simp [hgap, afterBlanks?, show isBlank ' ' = true by decide, show isBlank '"' = false by decide]

theorem head?_of_allBlank (h : AllBlank l) : head? first more l = none := by
  rw [head?, List.dropWhile_eq_nil_iff.2 h]

theorem head?_append_cons (h : AllBlank l) (hblank : isBlank c = false) (hfirst : first c = false)
    (r : List Char) : head? first more (l ++ c :: r) = none := by
  rw [head?, List.dropWhile_append_of_pos h, List.dropWhile_cons_of_neg (by simp [hblank])]
  simp [hfirst]

end

theorem wordHead?_entry {indent : List Char} (hindent : AllBlank indent) (hname : IsIdentifier name)
    (tail : List Char) : wordHead? (indent ++ name ++ [' ', '"'] ++ tail) = some (name, tail) := by
  obtain ⟨c, r, rfl⟩ := List.exists_cons_of_ne_nil hname.ne_nil
  have hc : isWordChar c = true := hname.isWordChar c (List.mem_cons_self ..)
  exact head?_entry hindent hc (not_isBlank_of_isWordChar hc)
    (fun x hx => hname.isWordChar x (List.mem_cons_of_mem _ hx))
    (by decide) tail

theorem wordHead?_of_allBlank (h : AllBlank l) : wordHead? l = none := head?_of_allBlank h

theorem wordHead?_cons (hblank : isBlank c = false) (hword : isWordChar c = false) (r : List Char) :
    wordHead? (c :: r) = none :=
  head?_append_cons allBlank_nil hblank hword r

/-! ## Members -/

/-- The texts of entries whose lines start with number `n`, each at the place behind its opening
quote. -/
def listed (indent : List Char) : Nat → List Entry → List Body
  | _, [] => []
  | n, e :: es =>
    ⟨String.ofList e.name, e.content, ⟨n, indent.length + e.name.length + 3⟩⟩ ::
      listed indent (n + (lines e.content).length) es

/-- The apostrophes of an entry are paired. -/
def isPaired (e : Entry) : Bool := apostrophes e.content % 2 == 0

theorem endsNested_of_isPaired (h : isPaired e = true) : endsNested false e.content = false := by
  have heven : apostrophes e.content % 2 = 0 := by simpa [isPaired] using h
  simp [endsNested, heven]

theorem endsNested_of_not_isPaired (h : isPaired e = false) :
    endsNested false e.content = true := by
  have hodd : apostrophes e.content % 2 = 1 := by simpa [isPaired] using h
  simp [endsNested, hodd]

theorem bodiesFrom_of_none (h : wordHead? l = none) (n : Nat) (rest : List (List Char)) :
    bodiesFrom n (l :: rest) = bodiesFrom (n + 1) rest := by
  conv_lhs => unfold bodiesFrom
  simp only [h]

theorem bodiesFrom_of_gather {tail : List Char} (h : wordHead? l = some (name, tail))
    (hgather : gather false [] tail rest = some (t, after)) (n : Nat) :
    bodiesFrom n (l :: rest) = ⟨String.ofList name, t, ⟨n, l.length - tail.length + 1⟩⟩ ::
      bodiesFrom (n + 1 + (rest.length - after.length)) after := by
  conv_lhs => unfold bodiesFrom
  simp only [h]
  split
  · next hnone => rw [hgather] at hnone; cases hnone
  · next hsome =>
    rw [hgather] at hsome
    cases hsome
    rfl

theorem bodiesFrom_of_gather_none {tail : List Char} (h : wordHead? l = some (name, tail))
    (hgather : gather false [] tail rest = none) (n : Nat) : bodiesFrom n (l :: rest) = [] := by
  unfold bodiesFrom
  simp only [h]
  split
  · rfl
  · next hsome => rw [hgather] at hsome; cases hsome

theorem bodiesFrom_eq_nil (h : ∀ l ∈ ls, wordHead? l = none) (n : Nat) : bodiesFrom n ls = [] := by
  induction ls generalizing n with
  | nil => rw [bodiesFrom]
  | cons l ls ih =>
    rw [bodiesFrom_of_none (h l (List.mem_cons_self ..)),
      ih fun m hm => h m (List.mem_cons_of_mem _ hm)]

section Entries

variable {indent : List Char} (hindent : AllBlank indent) (hline : '\n' ∉ indent)
include hindent hline

/-- The lines of an entry are those of its text, with its name before the first and the quote behind
the last. -/
theorem lines_entry (he : e.Valid) : ∃ l ls, lines (e.content ++ ['"']) = l :: ls ∧
    lines (e.text indent) = (indent ++ e.name ++ [' ', '"'] ++ l) :: ls ∧
      wordHead? (indent ++ e.name ++ [' ', '"'] ++ l) = some (e.name, l) := by
  obtain ⟨l, ls, hls⟩ := List.exists_cons_of_ne_nil (lines_ne_nil (e.content ++ ['"']))
  have hname : '\n' ∉ e.name := fun h => absurd (he.name.isWordChar _ h) (by decide)
  have hhead : '\n' ∉ indent ++ e.name ++ [' ', '"'] := by simp [hline, hname]
  refine ⟨l, ls, hls, ?_, wordHead?_entry hindent he.name l⟩
  rw [Entry.text, List.append_assoc]
  exact lines_append_of_not_mem hhead hls

/-- An entry whose apostrophes are paired is found, and the search goes on behind it. -/
theorem bodiesFrom_entry (he : e.Valid) (hpaired : isPaired e = true) (n : Nat)
    (after : List (List Char)) : bodiesFrom n (lines (e.text indent) ++ after) =
      ⟨String.ofList e.name, e.content, ⟨n, indent.length + e.name.length + 3⟩⟩ ::
        bodiesFrom (n + (lines e.content).length) after := by
  obtain ⟨l, ls, hls, htext, hhead⟩ := lines_entry hindent hline he
  have hgather := gather_quoted he.content hls (endsNested_of_isPaired hpaired) after
  have hlength : (lines e.content).length = ls.length + 1 := by
    have hcount := congrArg List.length hls
    rw [length_lines, List.countP_append] at hcount
    rw [length_lines]
    exact hcount
  rw [htext, List.cons_append, bodiesFrom_of_gather hhead hgather]
  congr 2
  · congr 1
    simp only [List.length_append, List.length_cons, List.length_nil]
    omega
  · rw [hlength, List.length_append]
    omega

/-- An entry with an apostrophe that has no pair is found with another text, or not at all. -/
theorem text_ne_of_not_isPaired (he : e.Valid) (hpaired : isPaired e = false) {n : Nat} {b : Body}
    (hb : (bodiesFrom n (lines (e.text indent) ++ after)).head? = some b) : b.text ≠ e.content := by
  obtain ⟨l, ls, hls, htext, hhead⟩ := lines_entry hindent hline he
  rw [htext, List.cons_append] at hb
  cases hgather : gather false [] l (ls ++ after) with
  | none =>
    rw [bodiesFrom_of_gather_none hhead hgather] at hb
    cases hb
  | some found =>
    obtain ⟨t, left⟩ := found
    rw [bodiesFrom_of_gather hhead hgather, List.head?_cons, Option.some.injEq] at hb
    subst hb
    exact ne_of_gather_quoted he.content hls (endsNested_of_not_isPaired hpaired) hgather

/-- Entries whose apostrophes are paired are found one after the other. -/
theorem bodiesFrom_entries (es : List Entry) (hes : ∀ e ∈ es, e.Valid)
    (hpaired : ∀ e ∈ es, isPaired e = true) (n : Nat) :
    ∃ m, ∀ after, bodiesFrom n (es.flatMap (fun e => lines (e.text indent)) ++ after) =
      listed indent n es ++ bodiesFrom m after := by
  induction es generalizing n with
  | nil => exact ⟨n, fun _ => rfl⟩
  | cons e es ih =>
    obtain ⟨m, hm⟩ := ih (fun e' he' => hes e' (List.mem_cons_of_mem _ he'))
      (fun e' he' => hpaired e' (List.mem_cons_of_mem _ he')) (n + (lines e.content).length)
    refine ⟨m, fun after => ?_⟩
    rw [List.flatMap_cons, List.append_assoc,
      bodiesFrom_entry hindent hline (hes e (List.mem_cons_self ..))
        (hpaired e (List.mem_cons_self ..)), hm, listed,
      List.cons_append]

end Entries

/-- The entry that a text was found in. -/
def Body.entry (b : Body) : Entry := ⟨b.name.toList, b.text⟩

theorem map_entry_listed (indent : List Char) (n : Nat) (es : List Entry) :
    (listed indent n es).map Body.entry = es := by
  induction es generalizing n with
  | nil => rfl
  | cons e es ih => rw [listed, List.map_cons, ih, Body.entry, String.toList_ofList]

/-- The lines of a plugin file. -/
theorem lines_sheet (indent : List Char) (es : List Entry) (rest : List Char) :
    lines (sheet indent es ++ rest) =
    ['\x7b'] :: (es.flatMap (fun e => lines (e.text indent)) ++ lines ('\x7d' :: rest)) := by
  rw [sheet, unlines_concat_append, lines_unlines (by simp)]
  simp [List.flatMap_map, lines_of_not_mem]

/-- No member starts behind the last entry. -/
theorem wordHead?_of_mem_end {rest : List Char} (hrest : AllBlank rest)
    (hl : l ∈ lines ('\x7d' :: rest)) : wordHead? l = none := by
  obtain ⟨k, ks, hks⟩ := List.exists_cons_of_ne_nil (lines_ne_nil rest)
  have hlines : lines ('\x7d' :: rest) = ('\x7d' :: k) :: ks :=
    lines_append_of_not_mem (a := ['\x7d']) (by decide) hks
  rw [hlines] at hl
  rcases List.mem_cons.1 hl with rfl | hl
  · exact wordHead?_cons (by decide) (by decide) k
  · refine wordHead?_of_allBlank fun c hc => hrest c ?_
    rw [← unlines_lines rest, unlines, joinWith_eq, mem_intercalate fun hnl =>
      newline_not_mem_of_mem_lines (hks ▸ List.mem_cons_of_mem k hl)
        (List.mem_singleton.1 hnl ▸ hc)]
    exact ⟨l, hks ▸ List.mem_cons_of_mem k hl, hc⟩

/-- If the names and the texts that are found line by line are those of the entries, then all
apostrophes are paired. -/
theorem isPaired_of_map_entry {indent : List Char} (hindent : AllBlank indent)
    (hline : '\n' ∉ indent) {es : List Entry} (hes : ∀ e ∈ es, e.Valid) {n : Nat}
    {ends : List (List Char)}
    (h : (bodiesFrom n (es.flatMap (fun e => lines (e.text indent)) ++ ends)).map Body.entry = es) :
    ∀ e ∈ es, isPaired e = true := by
  cases hdrop : es.dropWhile isPaired with
  | nil => exact List.dropWhile_eq_nil_iff.1 hdrop
  | cons e qs =>
    -- the entries before the first one without a pair are found, so it would be the next
    have hsplit : es.takeWhile isPaired ++ e :: qs = es := hdrop ▸ List.takeWhile_append_dropWhile
    have hfirst : isPaired e = false := by simpa [hdrop] using List.head?_dropWhile_not isPaired es
    have hmem : e ∈ es := hsplit ▸ List.mem_append_right _ (List.mem_cons_self ..)
    obtain ⟨m, hm⟩ := bodiesFrom_entries hindent hline (es.takeWhile isPaired)
      (fun e' he' => hes e' ((List.takeWhile_prefix isPaired).subset he'))
        (fun _ he' => List.mem_takeWhile_imp he') n
    rw [← hsplit, List.flatMap_append, List.append_assoc, hm, List.map_append, map_entry_listed,
      List.append_cancel_left_eq, List.flatMap_cons, List.append_assoc] at h
    obtain ⟨b, bs, hb, hentry, -⟩ := List.map_eq_cons_iff.1 h
    exact absurd (congrArg Entry.content hentry)
      (text_ne_of_not_isPaired hindent hline (hes e hmem) hfirst (by rw [hb, List.head?_cons]))

/-- **Two readings of a plugin file.** A file of entries with names that may be used and texts whose
quotes are escaped is read as a plugin with these entries as its members. Line by line the entries
before the first one with an apostrophe that has no pair are found, each with its name, its text and
the place behind its opening quote. All are found, and nothing else is, if and only if the
apostrophes of every text are paired; and if one has no pair, then not even the names and texts are
right. -/
theorem bodies_sheet_iff {indent : List Char} (hindent : AllBlank indent) (hline : '\n' ∉ indent)
    {es : List Entry} (hes : ∀ e ∈ es, e.Valid) {rest : List Char} (hrest : AllBlank rest) :
    (∃ p, Plugin.parse (String.ofList (sheet indent es ++ rest)) = .ok p ∧
      p.members.map Member.outline = es.map Entry.outline) ∧
      listed indent 2 (es.takeWhile isPaired) <+: bodies (sheet indent es ++ rest) ∧
      (bodies (sheet indent es ++ rest) = listed indent 2 es ↔ ∀ e ∈ es, isPaired e = true) ∧
      ((bodies (sheet indent es ++ rest)).map Body.entry = es ↔ ∀ e ∈ es, isPaired e = true) := by
  have hbodies : bodies (sheet indent es ++ rest) =
      bodiesFrom 2 (es.flatMap (fun e => lines (e.text indent)) ++ lines ('\x7d' :: rest)) := by
    rw [bodies, lines_sheet, bodiesFrom_of_none (by decide)]
  have hends : ∀ l ∈ lines ('\x7d' :: rest), wordHead? l = none :=
    fun l hl => wordHead?_of_mem_end hrest hl
  have hall : (∀ e ∈ es, isPaired e = true) →
      bodies (sheet indent es ++ rest) = listed indent 2 es := fun hpaired => by
    obtain ⟨m, hm⟩ := bodiesFrom_entries hindent hline es hes hpaired 2
    rw [hbodies, hm, bodiesFrom_eq_nil hends, List.append_nil]
  have hpaired : (bodies (sheet indent es ++ rest)).map Body.entry = es → ∀ e ∈ es,
      isPaired e = true := fun h =>
    isPaired_of_map_entry hindent hline hes (hbodies ▸ h)
  refine ⟨parse_sheet hindent hes rest, ?_, ⟨fun h => hpaired (by rw [h, map_entry_listed]), hall⟩,
    hpaired, fun h => ?_⟩
  · obtain ⟨m, hm⟩ := bodiesFrom_entries hindent hline (es.takeWhile isPaired)
      (fun e he => hes e ((List.takeWhile_prefix isPaired).subset he))
        (fun _ he => List.mem_takeWhile_imp he) 2
    have hsplit :=
      congrArg (List.flatMap fun e => lines (e.text indent))
        (List.takeWhile_append_dropWhile (p := isPaired) (l := es))
    rw [List.flatMap_append] at hsplit
    rw [hbodies, ← hsplit, List.append_assoc, hm]
    exact List.prefix_append ..
  · rw [hall h, map_entry_listed]

/-- A title in quotation marks and a method over two lines are found at their places. -/
theorem bodies_sheet_iff_quoted :
    bodies (sheet [] [⟨"Title".toList, "'Yes', she said".toList⟩,
      ⟨"Run".toList, "() \x7b\nf(\\\"x\\\"); \x7d".toList⟩] ++ ['\n']) =
      [⟨"Title", "'Yes', she said".toList, ⟨2, 8⟩⟩,
        ⟨"Run", "() \x7b\nf(\\\"x\\\"); \x7d".toList, ⟨3, 6⟩⟩] := by
  have hes :
      ∀ e ∈ [(⟨"Title".toList, "'Yes', she said".toList⟩ : Entry),
        ⟨"Run".toList, "() \x7b\nf(\\\"x\\\"); \x7d".toList⟩],
      e.Valid := by
    refine List.forall_mem_cons.2
      ⟨⟨by decide +kernel, escaped_iff.2 (by decide +kernel)⟩, List.forall_mem_singleton.2 ?_⟩
    exact ⟨by decide +kernel, escaped_iff.2 (by decide +kernel)⟩
  have hiff :=
    (bodies_sheet_iff allBlank_nil List.not_mem_nil hes (by decide : AllBlank ['\n'])).2.2.1
  exact (hiff.2 (by decide +kernel)).trans (by decide +kernel)

/-- The apostrophe in the title hides both members. -/
theorem bodies_lone_apostrophe :
    bodies "\x7b\nTitle \"Don't panic\"\nRun \"() \x7b x = 1; \x7d\"\n\x7d".toList = [] ∧
      (Plugin.parse "\x7b\nTitle \"Don't panic\"\nRun \"() \x7b x = 1; \x7d\"\n\x7d").toOption.map
        (·.members.map (·.name)) =
        some ["Title", "Run"] := by
  decide +kernel

end Partitura.Lint
