import Mathlib
import Partitura.Proofs.Attempts
import Partitura.Proofs.Number.Numerals
import Partitura.Proofs.Text.Lines
import Partitura.Score.LilyPond

/-!
# How long written bars are

The words of a written bar are read as durations, by themselves and not through the writer: a number
divides a whole, a dot makes a duration half as long again, and a star puts a factor to it
(`ticks`). A note, a chord or a rest is written with the shortest duration that has a name and is
not shorter (`rounded`), and one that is longer than a breve as a quarter; a bar without any of them
is a rest of its length if this has a name or is five quarters, and a whole rest otherwise. So a bar
keeps its length only if its durations have names (`ticks_of_bar`).
-/

namespace Partitura.Score.LilyPond

open Text (dropWhile_append_of_head takeWhile_append_of_head)

variable {cs : List Char} {d : Int} {i : Item} {b : Bar}

/-! ## Reading durations -/

/-- The number that digits stand for. -/
def numeral (ds : List Char) : Nat := Nat.ofDigitChars 10 ds 0

/-- A duration without dots, which is a breve or a part of a whole, and what follows it. -/
def undotted? (cs : List Char) : Option (ℚ × List Char) :=
  if "\\breve".toList.isPrefixOf cs then some (2048, cs.drop 6)
  else if (cs.takeWhile Char.isDigit).isEmpty then none
  else some (1024 / numeral (cs.takeWhile Char.isDigit), cs.dropWhile Char.isDigit)

/-- The factor after a star. -/
def factor : List Char → ℚ
  | '*' :: cs =>
    match cs.dropWhile Char.isDigit with
    | '/' :: ds => numeral (cs.takeWhile Char.isDigit) / numeral (ds.takeWhile Char.isDigit)
    | _ => numeral (cs.takeWhile Char.isDigit)
  | _ => 1

/-- A duration with the dots and the factor that follow it. -/
def dotted (t : ℚ) (cs : List Char) : ℚ :=
  t * (3 / 2) ^ (cs.takeWhile (· == '.')).length * factor (cs.dropWhile (· == '.'))

/-- The ticks of the duration that a text starts with. -/
def durationTicks (cs : List Char) : ℚ := (undotted? cs).elim 0 fun x => dotted x.1 x.2

/-- The characters of the names of pitches and rests, and the brackets of chords. -/
def pitchSigns : List Char :=
  ['a', 'b', 'c', 'd', 'e', 'f', 'g', 'i', 's', 'r', 'R', '\'', ',', '<', '>']

def isPitchSign (c : Char) : Bool := pitchSigns.contains c

/-- The ticks of a word: of the duration after the name of a pitch or a rest. -/
def wordTicks (w : List Char) : ℚ :=
  if w.head?.any isPitchSign then durationTicks (w.dropWhile isPitchSign) else 0

/-- The ticks of a text, word by word. -/
def ticks (text : String) : ℚ := ((Text.splitOn ' ' text.toList).map wordTicks).sum

/-! ## Words -/

theorem ticks_append_blank (v w : String) : ticks (v ++ " " ++ w) = ticks v + ticks w := by
  have hlist : (v ++ " " ++ w).toList = v.toList ++ ' ' :: w.toList := by simp
  rw [ticks, hlist, Text.splitOn_append_cons, List.map_append, List.sum_append]
  rfl

theorem ticks_of_not_mem {w : String} (h : ' ' ∉ w.toList) : ticks w = wordTicks w.toList := by
  rw [ticks, Text.splitOn_of_not_mem h, List.map_singleton, List.sum_singleton]

theorem ticks_join (ws : List String) : ticks (Text.join " " ws) = (ws.map ticks).sum := by
  induction ws with
  | nil => simp [Text.join, ticks, Text.splitOn, wordTicks]
  | cons w ws ih =>
    cases ws with
    | nil => simp [Text.join]
    | cons v vs =>
      have hjoin : Text.join " " (w :: v :: vs) = w ++ " " ++ Text.join " " (v :: vs) := by
        simp [Text.join]
      rw [hjoin, ticks_append_blank, ih, ← List.sum_cons, ← List.map_cons]

theorem wordTicks_of_head {w : List Char} (h : ∀ c, w.head? = some c → isPitchSign c = false) :
    wordTicks w = 0 := by
  cases w with
  | nil => rfl
  | cons c w => simp [wordTicks, h c rfl]

/-- A word without a duration after the name. -/
theorem wordTicks_eq_zero {w : List Char}
    (h : ∀ c, (w.dropWhile isPitchSign).head? = some c → (c.isDigit || c == '\\') = false) :
    wordTicks w = 0 := by
  have hduration : undotted? (w.dropWhile isPitchSign) = none := by
    have hdigits : (w.dropWhile isPitchSign).takeWhile Char.isDigit = [] :=
      takeWhile_append_of_head (List.forall_mem_nil _) fun c hc =>
        (Bool.or_eq_false_iff.1 (h c hc)).1
    have hbreve : "\\breve".toList.isPrefixOf (w.dropWhile isPitchSign) = false := by
      cases hrest : w.dropWhile isPitchSign with
      | nil => rfl
      | cons c r =>
        have hc := (Bool.or_eq_false_iff.1 (h c (by rw [hrest]; rfl))).2
        simp [List.isPrefixOf, beq_false_of_ne (Ne.symm (by simpa using hc))]
    rw [undotted?, hbreve, hdigits]
    rfl
  rw [wordTicks, durationTicks, hduration]
  split <;> rfl

theorem wordTicks_of_pitchSigns {w : List Char} (h : ∀ c ∈ w, isPitchSign c = true) :
    wordTicks w = 0 := by
  refine wordTicks_eq_zero fun c hc => ?_
  rw [List.dropWhile_eq_nil_iff.2 h] at hc
  cases hc

/-- A name with something behind it. -/
theorem wordTicks_append {v w : List Char} (hne : v ≠ []) (hv : ∀ c ∈ v, isPitchSign c = true)
    (hw : ∀ c, w.head? = some c → isPitchSign c = false) :
    wordTicks (v ++ w) = durationTicks w := by
  have hhead : (v ++ w).head?.any isPitchSign = true := by
    cases v with
    | nil => exact absurd rfl hne
    | cons c v => exact hv c List.mem_cons_self
  rw [wordTicks, if_pos hhead, dropWhile_append_of_head hv hw]

/-! ## Durations that are written -/

/-- What follows a duration does not belong to it and has no blank. -/
structure Marks (cs : List Char) : Prop where
  together : ' ' ∉ cs
  separate : ∀ c, cs.head? = some c → c ∈ ['-', '\\', '~']

theorem marks_nil : Marks [] := ⟨by simp, by simp⟩

theorem Marks.append {v w : List Char} (hv : Marks v) (hw : Marks w) : Marks (v ++ w) := by
  cases v with
  | nil => exact hw
  | cons c v =>
    exact ⟨by rw [List.mem_append, not_or]; exact ⟨hv.together, hw.together⟩, hv.separate⟩

theorem Marks.head (h : Marks cs) {p : Char → Bool}
    (hp : ['-', '\\', '~'].all (fun c => !p c) = true) : ∀ c, cs.head? = some c → p c = false := by
  intro c hc
  simpa using List.all_eq_true.1 hp c (h.separate c hc)

theorem factor_marks (h : Marks cs) : factor cs = 1 := by
  have hstar : ∀ c, cs.head? = some c → (c == '*') = false := h.head (by decide)
  unfold factor
  split
  · exact absurd (hstar _ rfl) (by decide)
  · rfl

theorem dotted_replicate (t : ℚ) (k : Nat) (h : Marks cs) :
    dotted t (List.replicate k '.' ++ cs) = t * (3 / 2) ^ k := by
  have hdots : ∀ c ∈ List.replicate k '.', (c == '.') = true := by simp
  have hrest : ∀ c, cs.head? = some c → (c == '.') = false := h.head (by decide)
  rw [dotted, takeWhile_append_of_head hdots hrest, dropWhile_append_of_head hdots hrest,
    factor_marks h, List.length_replicate, mul_one]

theorem durationTicks_number {ds : List Char} (hne : ds ≠ []) (hds : ∀ c ∈ ds, c.isDigit = true)
    (k : Nat) (h : Marks cs) :
    durationTicks (ds ++ (List.replicate k '.' ++ cs)) = 1024 / numeral ds * (3 / 2) ^ k := by
  have hrest : ∀ c, (List.replicate k '.' ++ cs).head? = some c → c.isDigit = false := by
    cases k with
    | zero => exact h.head (by decide)
    | succ k => simp [List.replicate_succ]
  have hbreve : "\\breve".toList.isPrefixOf (ds ++ (List.replicate k '.' ++ cs)) = false := by
    cases ds with
    | nil => exact absurd rfl hne
    | cons d ds =>
      have hd : d ≠ '\\' := by
        rintro rfl
        exact absurd (hds _ List.mem_cons_self) (by decide)
      simp [List.isPrefixOf, hd.symm]
  rw [durationTicks, undotted?, hbreve, takeWhile_append_of_head hds hrest,
    dropWhile_append_of_head hds hrest]
  simp only [Bool.false_eq_true, if_false, List.isEmpty_iff, hne, Option.elim_some]
  exact dotted_replicate _ k h

theorem durationTicks_breve (h : Marks cs) : durationTicks ("\\breve".toList ++ cs) = 2048 := by
  have hbreve : "\\breve".toList.isPrefixOf ("\\breve".toList ++ cs) = true :=
    List.isPrefixOf_iff_prefix.2 (List.prefix_append _ _)
  have hdotted := dotted_replicate 2048 0 h
  rw [durationTicks, undotted?, if_pos hbreve]
  simpa using hdotted

/-- The names of durations are numbers with dots, and the breve. -/
theorem durations_spelled : ∀ d ∈ durations, (d.1 = 2048 ∧ d.2.toList = "\\breve".toList) ∨
    d.2.toList.takeWhile Char.isDigit ≠ [] ∧
    d.2.toList = d.2.toList.takeWhile Char.isDigit ++ List.replicate (d.2.toList.count '.') '.' ∧
    (1024 / numeral (d.2.toList.takeWhile Char.isDigit) * (3 / 2) ^ d.2.toList.count '.' : ℚ) =
      d.1 := by
  decide +kernel

theorem durationTicks_of_mem {d : Int × String} (hd : d ∈ durations) (h : Marks cs) :
    durationTicks (d.2.toList ++ cs) = d.1 := by
  rcases durations_spelled d hd with ⟨hticks, hname⟩ | ⟨hne, hname, hticks⟩
  · rw [hname, hticks, durationTicks_breve h]
    rfl
  · rw [hname, List.append_assoc,
      durationTicks_number hne (fun c hc => List.mem_takeWhile_imp hc) _ h, hticks]

/-- The durations that have a name, from a thirty-second to a breve. -/
def named : List Int := [32, 64, 96, 128, 192, 256, 384, 512, 768, 1024, 1536, 2048]

/-- The shortest duration with a name that is not shorter; for what is longer than a breve, a
quarter. -/
def rounded (d : Int) : Int := (named.find? (d ≤ ·)).getD 256

theorem named_eq : named = 32 :: durations.map Prod.fst := by decide

/-- A duration is written as the one it is rounded to. -/
theorem durationTicks_duration (hd : 32 < d) (h : Marks cs) :
    durationTicks ((duration d).toList ++ cs) = rounded d := by
  have hfind : named.find? (d ≤ ·) = (durations.find? fun e => d ≤ e.1).map Prod.fst := by
    rw [named_eq, List.find?_cons_of_neg (by simpa using hd), List.find?_map]
    rfl
  rw [rounded, hfind, duration]
  cases hfound : durations.find? fun e => d ≤ e.1 with
  | none => exact durationTicks_of_mem (d := (256, "4")) (by decide) h
  | some e => exact durationTicks_of_mem (List.mem_of_find?_eq_some hfound) h

theorem plain_of_mem_durations {d : Int × String} (hd : d ∈ durations) :
    ' ' ∉ d.2.toList ∧ ∀ c, d.2.toList.head? = some c → isPitchSign c = false := by
  have hall :
      (durations.all fun d => !d.2.toList.contains ' ' &&
        d.2.toList.head?.all fun c => !isPitchSign c) = true := by decide
  have hplain := List.all_eq_true.1 hall d hd
  rw [Bool.and_eq_true] at hplain
  refine ⟨by simpa using hplain.1, fun c hc => ?_⟩
  simpa [hc] using hplain.2

theorem duration_mem (d : Int) : ∃ e ∈ durations, e.2 = duration d := by
  rw [duration]
  cases hfound : durations.find? fun e => d ≤ e.1 with
  | none => exact ⟨(256, "4"), by decide, rfl⟩
  | some e => exact ⟨e, List.mem_of_find?_eq_some hfound, rfl⟩

theorem plain_duration (d : Int) : ' ' ∉ (duration d).toList ∧ ∀ c,
    (duration d).toList.head? = some c → isPitchSign c = false := by
  obtain ⟨e, he, heq⟩ := duration_mem d
  exact heq ▸ plain_of_mem_durations he

/-! ## Notes, chords and rests -/

/-- A word that ends with a duration and marks. -/
theorem wordTicks_timed {name : List Char} (hne : name ≠ [])
    (hname : ∀ c ∈ name, isPitchSign c = true) (hd : 32 < d) (hcs : Marks cs) :
    wordTicks (name ++ ((duration d).toList ++ cs)) = rounded d := by
  have hhead : ∀ c, ((duration d).toList ++ cs).head? = some c → isPitchSign c = false := by
    intro c hc
    rw [List.head?_append] at hc
    cases hduration : (duration d).toList.head? with
    | none =>
      rw [hduration] at hc
      exact hcs.head (by decide) c hc
    | some c' =>
      rw [hduration] at hc
      cases hc
      exact (plain_duration d).2 c hduration
  rw [wordTicks_append hne hname hhead, durationTicks_duration hd hcs]

theorem sum_wordTicks_timed {name : List Char} (hne : name ≠ [])
    (hname : ∀ c ∈ name, isPitchSign c = true) (hd : 32 < d) (hcs : Marks cs) :
    ((Text.splitOn ' ' (name ++ ((duration d).toList ++ cs))).map wordTicks).sum = rounded d := by
  have hblank : ' ' ∉ name ++ ((duration d).toList ++ cs) := by
    rw [List.mem_append, List.mem_append, not_or, not_or]
    exact ⟨fun hmem => absurd (hname _ hmem) (by decide), (plain_duration d).1, hcs.together⟩
  rw [Text.splitOn_of_not_mem hblank, List.map_singleton, List.sum_singleton,
    wordTicks_timed hne hname hd hcs]

/-- The pitches of a chord, of which only the last one has a duration. -/
theorem sum_wordTicks_chord {names : List (List Char)} (hne : names ≠ [])
    (hnames : ∀ name ∈ names, ∀ c ∈ name, isPitchSign c = true) {before : List Char}
    (hbefore : ∀ c ∈ before, isPitchSign c = true) (hd : 32 < d) (hcs : Marks cs) :
    ((Text.splitOn ' '
      (before ++ ([' '].intercalate names ++ '>' :: ((duration d).toList ++ cs)))).map
        wordTicks).sum = rounded d := by
  induction names generalizing before with
  | nil => exact absurd rfl hne
  | cons a names ih =>
    obtain ⟨ha, hrest⟩ := List.forall_mem_cons.1 hnames
    have hfirst : ∀ c ∈ before ++ a, isPitchSign c = true := List.forall_mem_append.2 ⟨hbefore, ha⟩
    cases names with
    | nil =>
      have hlast : ∀ c ∈ before ++ a ++ ['>'], isPitchSign c = true :=
        List.forall_mem_append.2 ⟨hfirst, List.forall_mem_singleton.2 (by decide)⟩
      have hword : before ++ ([' '].intercalate [a] ++ '>' :: ((duration d).toList ++ cs)) =
          (before ++ a ++ ['>']) ++ ((duration d).toList ++ cs) := by simp
      rw [hword, sum_wordTicks_timed (by simp) hlast hd hcs]
    | cons b names =>
      have hword :
          before ++ ([' '].intercalate (a :: b :: names) ++ '>' :: ((duration d).toList ++ cs)) =
          (before ++ a) ++ ' ' ::
            ([] ++ ([' '].intercalate (b :: names) ++ '>' :: ((duration d).toList ++ cs))) := by
              simp
      have hblank : ' ' ∉ before ++ a := fun hmem => absurd (hfirst _ hmem) (by decide)
      rw [hword, Text.splitOn_append_cons, Text.splitOn_of_not_mem hblank, List.map_append,
        List.sum_append, List.map_singleton, List.sum_singleton, wordTicks_of_pitchSigns hfirst,
        zero_add, ih (by simp) hrest (List.forall_mem_nil _)]

theorem mem_of_lookup_eq_some {α β : Type} [BEq α] [LawfulBEq α] {table : List (α × β)}
    {key : α} {value : β} (h : table.lookup key = some value) : (key, value) ∈ table := by
  obtain ⟨l₁, l₂, hl, -⟩ := List.lookup_eq_some_iff.1 h
  rw [hl]
  exact List.mem_append_right _ List.mem_cons_self

/-- What holds of all values of a table and of the usual one holds of what is looked up. -/
theorem lookup_getD {table : List (String × String)} {usual : String} {p : String → Bool}
    (h : (usual :: table.map Prod.snd).all p = true) (key : String) :
    p ((table.lookup key).getD usual) = true := by
  rw [List.all_cons, Bool.and_eq_true, List.all_map] at h
  cases hvalue : table.lookup key with
  | none => exact h.1
  | some value => exact List.all_eq_true.1 h.2 (key, value) (mem_of_lookup_eq_some hvalue)

/-- What holds of all values of a list and of the usual one holds of the one at a place. -/
theorem all_getD {ws : List String} {usual : String} {p : String → Bool}
    (h : (usual :: ws).all p = true) (i : Nat) : p (ws.getD i usual) = true := by
  rw [List.all_cons, Bool.and_eq_true] at h
  rw [List.getD_eq_getElem?_getD]
  cases hvalue : ws[i]? with
  | none => exact h.1
  | some w => exact List.all_eq_true.1 h.2 w (List.mem_of_getElem? hvalue)

theorem marks_of_check
    (h : (!cs.contains ' ' && cs.head?.all fun c => ['-', '\\', '~'].contains c) = true) :
    Marks cs := by
  rw [Bool.and_eq_true] at h
  refine ⟨by simpa using h.1, fun c hc => ?_⟩
  have hmem := h.2
  rw [hc, Option.all_some] at hmem
  exact List.contains_iff_mem.1 hmem

theorem marks_articulation (name : String) : Marks (articulation name).toList :=
  marks_of_check
    (lookup_getD
      (p := fun w => !w.toList.contains ' ' &&
        w.toList.head?.all fun c => ['-', '\\', '~'].contains c)
    (by decide) name)

theorem marks_join (names : List String) : Marks (String.join (names.map articulation)).toList := by
  induction names with
  | nil => exact marks_nil
  | cons name names ih =>
    rw [List.map_cons, String.join_cons, String.toList_append]
    exact (marks_articulation name).append ih

theorem pitchSigns_pitchName (pitch : Int) (accidental : String) :
    (pitchName pitch accidental).toList ≠ [] ∧ ∀ c ∈ (pitchName pitch accidental).toList,
      isPitchSign c = true := by
  have hsigns {w : String} (hw : (!w.toList.isEmpty && w.toList.all isPitchSign) = true) :
      w.toList ≠ [] ∧ ∀ c ∈ w.toList, isPitchSign c = true := by simpa using hw
  have hmarks (octave : Int) : ∀ c ∈ (octaveMarks octave).toList, isPitchSign c = true := by
    rw [octaveMarks, String.toList_ofList]
    refine List.forall_mem_append.2 ⟨fun c hc => ?_, fun c hc => ?_⟩
    · rw [List.eq_of_mem_replicate hc]
      decide
    · rw [List.eq_of_mem_replicate hc]
      decide
  have happend {v w : String} (hv : v.toList ≠ [] ∧ ∀ c ∈ v.toList, isPitchSign c = true)
      (hw : ∀ c ∈ w.toList, isPitchSign c = true) :
      (v ++ w).toList ≠ [] ∧ ∀ c ∈ (v ++ w).toList, isPitchSign c = true := by
    rw [String.toList_append]
    exact ⟨by simp [hv.1], List.forall_mem_append.2 ⟨hv.2, hw⟩⟩
  have hending {ending : String} (h : ending? accidental = some ending) :
      ∀ c ∈ ending.toList, isPitchSign c = true := by
    have hall : (ending.toList.all isPitchSign) = true := by
      unfold ending? at h
      split at h <;> cases h <;> decide
    exact List.all_eq_true.1 hall
  unfold pitchName
  refine happend ?_ (hmarks _)
  cases h : ending? accidental with
  | none =>
    exact hsigns
      (all_getD (p := fun w => !w.toList.isEmpty && w.toList.all isPitchSign) (by decide) _)
  | some ending =>
    exact happend
      (hsigns (all_getD (p := fun w => !w.toList.isEmpty && w.toList.all isPitchSign)
        (by decide) _)) (hending h)

/-- A note, a chord or a rest. -/
theorem ticks_noteRest {n : NoteRest} {w : String} (h : noteRest n = .ok w) (hd : 32 < n.dur) :
    ticks w = rounded n.dur := by
  obtain ⟨names, hnames, h⟩ := ok_of_bind h
  have hsigns : ∀ name ∈ names, name.toList ≠ [] ∧ ∀ c ∈ name.toList, isPitchSign c = true := by
    refine (forall_mem_of_mapM hnames (Q := fun _ => True) fun k name hname => ?_).2 fun _ _ =>
      trivial
    rw [pitchName?] at hname
    split at hname
    · cases hname
    · cases hname
      exact iff_of_true (pitchSigns_pitchName _ _) trivial
  have hmarks :
      Marks (String.join (n.articulations.map articulation) ++
        if n.notes.any (·.tied) then "~" else "").toList := by
    rw [String.toList_append]
    refine (marks_join n.articulations).append ?_
    split <;> exact marks_of_check (by decide)
  cases names with
  | nil =>
    cases h
    have hrest : (if n.hidden then "s" else "r").toList ≠ [] ∧
        ∀ c ∈ (if n.hidden then "s" else "r").toList, isPitchSign c = true := by
      split <;> simp [isPitchSign, pitchSigns]
    have hticks := sum_wordTicks_timed hrest.1 hrest.2 hd marks_nil
    rwa [List.append_nil, ← String.toList_append] at hticks
  | cons name more =>
    obtain ⟨hname, hmore⟩ := List.forall_mem_cons.1 hsigns
    cases more with
    | nil =>
      cases h
      have hticks := sum_wordTicks_timed hname.1 hname.2 hd hmarks
      rwa [← String.toList_append, ← String.toList_append, ← String.append_assoc] at hticks
    | cons second more =>
      cases h
      have hnames : ∀ v ∈ (name :: second :: more).map String.toList, ∀ c ∈ v,
          isPitchSign c = true :=
        List.forall_mem_map.2 fun v hv => (hsigns v hv).2
      have hticks :=
        sum_wordTicks_chord (by simp) hnames
          (List.forall_mem_singleton.2 (by decide : isPitchSign '<' = true)) hd hmarks
      rw [ticks, ← hticks]
      simp [Text.join, String.toList_intercalate]

/-! ## Rests of a whole bar -/

/-- A rest for a whole bar. -/
theorem ticks_barRest {length : Int} (h : length ≠ 32) :
    ticks (barRest length) = ((if length ∈ 1280 :: named then length else 1024 : Int) : ℚ) := by
  have hrest {d : Int} {name : String} (hd : (d, name) ∈ durations) : ticks ("R" ++ name) = d := by
    obtain ⟨hblank, hhead⟩ := plain_of_mem_durations hd
    have hword :=
      wordTicks_append (v := ['R']) (by simp) (List.forall_mem_singleton.2 (by decide)) hhead
    have hticks := durationTicks_of_mem hd marks_nil
    rw [List.append_nil] at hticks
    rw [ticks_of_not_mem (by simpa using hblank), ← hticks, ← hword]
    simp
  rw [barRest]
  cases hname : durations.lookup length with
  | some name =>
    have hmem := mem_of_lookup_eq_some hname
    have hnamed : length ∈ 1280 :: named := by
      rw [named_eq]
      exact List.mem_cons_of_mem _ (List.mem_cons_of_mem _ (List.mem_map.2 ⟨_, hmem, rfl⟩))
    rw [if_pos hnamed]
    dsimp only
    exact hrest hmem
  | none =>
    have hunnamed : length ∉ named := by
      rw [named_eq, List.mem_cons, not_or]
      refine ⟨h, fun hmem => ?_⟩
      obtain ⟨d, hd, rfl⟩ := List.mem_map.1 hmem
      have := List.lookup_eq_none_iff.1 hname d hd
      simp at this
    by_cases hlength : length = 1280
    · have hcompound : ticks "R1*5/4" = 1280 := by decide +kernel
      rw [if_pos (List.mem_cons.2 (.inl hlength)), hlength]
      exact hcompound
    · have hwhole : ticks ("R" ++ "1") = ((1024 : Int) : ℚ) := hrest (by decide)
      have hname : "R1" = "R" ++ "1" := rfl
      have hother : length ∉ 1280 :: named := by
        rw [List.mem_cons, not_or]
        exact ⟨hlength, hunnamed⟩
      rw [if_neg hother, ← hwhole, ← hname]
      simp only [hlength, if_false]

/-! ## Signs -/

theorem ticks_words {v w : String} (hv : ticks v = 0) (hw : ticks w = 0) :
    ticks (v ++ " " ++ w) = 0 := by
  rw [ticks_append_blank, hv, hw, add_zero]

/-- A word that starts with another sign. -/
theorem ticks_of_head {w : String} (hblank : ' ' ∉ w.toList)
    (h : ∀ c, w.toList.head? = some c → isPitchSign c = false) : ticks w = 0 := by
  rw [ticks_of_not_mem hblank, wordTicks_of_head h]

theorem ticks_backslash {w : String} (h : ' ' ∉ w.toList) : ticks ("\\" ++ w) = 0 := by
  refine ticks_of_head (by simpa using h) fun c hc => ?_
  rw [String.toList_append] at hc
  cases hc
  decide

theorem isPitchSign_of_isDigit {c : Char} (h : c.isDigit = true) : isPitchSign c = false := by
  have hall : (pitchSigns.all fun c => !c.isDigit) = true := by decide
  rw [isPitchSign, ← Bool.not_eq_true, List.contains_iff_mem]
  intro hc
  simpa [h] using List.all_eq_true.1 hall c hc

theorem isPitchSign_of_mem_number {n : Int} {c : Char} (h : c ∈ (toString n).toList) :
    isPitchSign c = false := by
  have hdigit {m : Nat} (hc : c ∈ Nat.toDigits 10 m) : isPitchSign c = false :=
    isPitchSign_of_isDigit (Nat.isDigit_of_mem_toDigits (by decide) (by decide) hc)
  obtain ⟨m, hm | hm⟩ := Number.exists_toDigits n
  · exact hdigit (hm ▸ h)
  · rw [hm] at h
    rcases List.mem_cons.1 h with rfl | h
    · decide
    · exact hdigit h

theorem blank_not_mem_number (n : Int) : ' ' ∉ (toString n).toList :=
  fun h => absurd (Number.isNumeral_of_mem_toString n _ h) (by decide)

theorem ticks_time (num den : Int) : ticks (time num den) = 0 := by
  have hcommand : "\\time " = "\\" ++ "time" ++ " " := rfl
  rw [time, hcommand, String.append_assoc, String.append_assoc]
  refine ticks_words (ticks_backslash (by decide)) (ticks_of_head ?_ fun c hc => ?_)
  · simp only [String.toList_append, List.mem_append, not_or]
    exact ⟨blank_not_mem_number num, by decide, blank_not_mem_number den⟩
  · rw [String.toList_append, String.toList_append, List.head?_append] at hc
    cases hhead : (toString num).toList.head? with
    | none =>
      rw [hhead] at hc
      cases hc
      decide
    | some c' =>
      rw [hhead] at hc
      cases hc
      exact isPitchSign_of_mem_number (List.mem_of_head? hhead)

/-- Whether a text is one word without a duration. -/
def isUntimed (w : String) : Bool :=
  !w.toList.contains ' ' && (w.toList.dropWhile isPitchSign).head?.all fun c =>
    !(c.isDigit || c == '\\')

theorem ticks_of_isUntimed {w : String} (h : isUntimed w = true) : ticks w = 0 := by
  rw [isUntimed, Bool.and_eq_true] at h
  rw [ticks_of_not_mem (by simpa using h.1)]
  refine wordTicks_eq_zero fun c hc => ?_
  simpa [hc] using h.2

theorem ticks_key (fifths : Int) (mode : Mode) : ticks ("\\key " ++ key fifths mode) = 0 := by
  have hcommand : "\\key " = "\\" ++ "key" ++ " " := rfl
  have hminor : " \\minor" = " " ++ ("\\" ++ "minor") := rfl
  have hmajor : " \\major" = " " ++ ("\\" ++ "major") := rfl
  rw [hcommand]
  refine ticks_words (ticks_backslash (by decide)) ?_
  unfold key
  generalize (max 0 (min 14 (fifths + 7))).toNat = i
  cases mode with
  | minor =>
    have hname : isUntimed (minorKeys.getD i "c") = true := all_getD (by decide) i
    dsimp only
    rw [hminor, ← String.append_assoc]
    exact ticks_words (ticks_of_isUntimed hname) (ticks_backslash (by decide))
  | major =>
    have hname : isUntimed (majorKeys.getD i "c") = true := all_getD (by decide) i
    dsimp only
    rw [hmajor, ← String.append_assoc]
    exact ticks_words (ticks_of_isUntimed hname) (ticks_backslash (by decide))

theorem ticks_clef (name : String) : ticks ("\\clef " ++ clef name) = 0 := by
  have hcommand : "\\clef " = "\\" ++ "clef" ++ " " := rfl
  have hname : isUntimed (clef name) = true := lookup_getD (by decide) name
  rw [hcommand]
  exact ticks_words (ticks_backslash (by decide)) (ticks_of_isUntimed hname)

theorem ticks_barline (type : String) : ticks (barline type) = 0 := by
  have hcommand : "\\bar \"" = "\\" ++ "bar" ++ " " ++ "\"" := rfl
  have hsign {sign : String} (hblank : (!sign.toList.contains ' ') = true) :
      ticks (if sign.isEmpty then "" else "\\bar \"" ++ sign ++ "\"") = 0 := by
    split
    · exact ticks_of_head (by simp) (by simp)
    · rw [hcommand, String.append_assoc, String.append_assoc]
      refine ticks_words (ticks_backslash (by decide)) (ticks_of_head ?_ fun c hc => ?_)
      · simpa using hblank
      · rw [String.toList_append] at hc
        cases hc
        decide
  exact hsign (lookup_getD (p := fun w => !w.toList.contains ' ') (by decide) type)

/-! ## Bars -/

/-- The duration of a note, a chord or a rest. -/
def dur? : Item → Option Int
  | .noteRest n => some n.dur
  | _ => none

/-- The durations in a bar. -/
def durs (b : Bar) : List Int := b.items.filterMap dur?

/-- The form of an element, if it has one. -/
def form (i : Item) : Option String := (item? i).toOption.join

/-- The bar with its notes, chords and rests alone. -/
def timed (b : Bar) : Bar := { b with items := b.items.filter fillsTime }

/-- The element is no dynamic of several words. -/
def isSingleWord : Item → Bool
  | .dynamic _ text _ _ => !text.toList.contains ' '
  | _ => true

theorem form_of_ok {w : Option String} (h : item? i = .ok w) : form i = w := by
  rw [form, h]
  rfl

theorem mapM_item? {is : List Item} (h : ∀ i ∈ is, Succeeds (item? i)) :
    is.mapM item? = .ok (is.map form) := by
  induction is with
  | nil => rfl
  | cons i is ih =>
    obtain ⟨⟨w, hw⟩, his⟩ := List.forall_mem_cons.1 h
    rw [List.mapM_cons, hw, ih his, List.map_cons, form_of_ok hw]
    rfl

/-- The words of a bar. -/
def barWords (b : Bar) : List String :=
  b.items.filterMap form ++ if b.items.any fillsTime then [] else [barRest b.length]

theorem bar_eq_ok_iff {text : String} :
    bar b = .ok text ↔ (∀ i ∈ b.items, Succeeds (item? i)) ∧ text = Text.join " " (barWords b) := by
  have hbar (h : ∀ i ∈ b.items, Succeeds (item? i)) : bar b = .ok (Text.join " " (barWords b)) := by
    rw [bar, mapM_item? h]
    simp only [barWords, bind, Except.bind, pure, Except.pure, List.filterMap_map]
    rfl
  constructor
  · intro h
    obtain ⟨parts, hparts, -⟩ := ok_of_bind h
    have hitems : ∀ i ∈ b.items, Succeeds (item? i) := ok_of_mapM hparts
    rw [hbar hitems] at h
    cases h
    exact ⟨hitems, rfl⟩
  · rintro ⟨hitems, rfl⟩
    exact hbar hitems

theorem sum_filterMap {α β : Type} (g : α → Option β) (f : β → ℚ) (as : List α) :
    ((as.filterMap g).map f).sum = (as.map fun a => (g a).elim 0 f).sum := by
  induction as with
  | nil => rfl
  | cons a as ih => cases h : g a <;> simp [h, ih]

/-- An element takes as many ticks as are written for its duration, and none if it has no
duration. -/
theorem ticks_form {w : Option String} (h : item? i = .ok w) (hdur : ∀ d, dur? i = some d → 32 < d)
    (hword : isSingleWord i = true) :
    w.elim 0 ticks = (dur? i).elim 0 fun d => (rounded d : ℚ) := by
  cases i with
  | noteRest n =>
    obtain ⟨v, hv, rfl⟩ := ok_of_map h
    exact ticks_noteRest hv (hdur _ rfl)
  | time pos num den =>
    cases h
    exact ticks_time num den
  | key pos fifths mode =>
    cases h
    exact ticks_key fifths mode
  | clef pos type =>
    cases h
    exact ticks_clef type
  | dynamic pos text =>
    cases h
    exact ticks_backslash (by simpa [isSingleWord] using hword)
  | hairpin type =>
    cases type with
    | cresc =>
      cases h
      have hsign : "\\<" = "\\" ++ "<" := rfl
      rw [hsign]
      exact ticks_backslash (by decide)
    | dim =>
      cases h
      have hsign : "\\>" = "\\" ++ ">" := rfl
      rw [hsign]
      exact ticks_backslash (by decide)
  | barline pos type =>
    cases h
    rw [nonempty?]
    split
    · rfl
    · exact ticks_barline type
  | slur | tuplet =>
    cases h
    rfl
  | text | tempo | rehearsal | octava | pedal | trill | grace => cases h

theorem fillsTime_iff : fillsTime i = true ↔ dur? i ≠ none := by cases i <;> simp [fillsTime, dur?]

theorem any_fillsTime (b : Bar) : b.items.any fillsTime = true ↔ durs b ≠ [] := by
  rw [durs, ne_eq, List.filterMap_eq_nil_iff, List.any_eq_true]
  simp only [fillsTime_iff, not_forall, exists_prop, ne_eq]

/-- The ticks that are written for a bar. -/
def writtenTicks (b : Bar) : Int :=
  if durs b = [] then if b.length ∈ 1280 :: named then b.length else 1024
  else ((durs b).map rounded).sum

/-- The ticks of a bar: those of its notes, chords and rests, or its length if there are none. -/
def fullTicks (b : Bar) : Int := if durs b = [] then b.length else (durs b).sum

/-- A bar without dynamics of several words takes the ticks that are written for it. -/
theorem ticks_bar {text : String} (h : bar b = .ok text) (hdurs : ∀ d ∈ durs b, 32 < d)
    (hlength : durs b = [] → b.length ≠ 32) (hwords : b.items.all isSingleWord = true) :
    ticks text = writtenTicks b := by
  obtain ⟨hitems, rfl⟩ := bar_eq_ok_iff.1 h
  have hforms : ((b.items.filterMap form).map ticks).sum = (((durs b).map rounded).sum : Int) := by
    have hdur :
        ∀ i ∈ b.items, (form i).elim 0 ticks = (dur? i).elim 0 fun d => (rounded d : ℚ) := by
      intro i hi
      obtain ⟨w, hw⟩ := hitems i hi
      rw [form_of_ok hw]
      exact ticks_form hw (fun d hd => hdurs d (List.mem_filterMap.2 ⟨i, hi, hd⟩))
        (List.all_eq_true.1 hwords i hi)
    rw [sum_filterMap, List.map_congr_left hdur, ← sum_filterMap, Int.cast_list_sum, List.map_map]
    rfl
  rw [ticks_join, barWords, List.map_append, List.sum_append, hforms, writtenTicks]
  by_cases hnone : durs b = []
  · have hany : ¬ b.items.any fillsTime = true := fun hany => (any_fillsTime b).1 hany hnone
    rw [if_neg hany, if_pos hnone, List.map_singleton, List.sum_singleton,
      ticks_barRest (hlength hnone), hnone]
    simp
  · rw [if_pos ((any_fillsTime b).2 hnone), if_neg hnone]
    simp

/-! ## Words of notes, chords and rests alone -/

theorem durs_timed (b : Bar) : durs (timed b) = durs b := by
  rw [durs, timed, List.filterMap_filter, durs]
  refine List.filterMap_congr fun i _ => ?_
  cases i <;> rfl

theorem barWords_ne_nil (h : ∀ i ∈ b.items, Succeeds (item? i)) : barWords b ≠ [] := by
  rw [barWords]
  split
  · next hany =>
    obtain ⟨i, hi, hfills⟩ := List.any_eq_true.1 hany
    obtain ⟨w, hw⟩ := h i hi
    have hform : ∃ v, form i = some v := by
      cases i with
      | noteRest n =>
        obtain ⟨v, -, rfl⟩ := ok_of_map hw
        exact ⟨v, form_of_ok hw⟩
      | _ => cases hfills
    obtain ⟨v, hv⟩ := hform
    rw [List.append_nil]
    exact List.ne_nil_of_mem (List.mem_filterMap.2 ⟨i, hi, hv⟩)
  · simp

/-- The words of the notes, chords and rests stand among the words of the bar, in their order. -/
theorem barWords_timed (b : Bar) : (barWords (timed b)).Sublist (barWords b) := by
  have hany : (timed b).items.any fillsTime = b.items.any fillsTime := by
    rw [Bool.eq_iff_iff, any_fillsTime, any_fillsTime, durs_timed]
  rw [barWords, barWords, hany]
  exact (List.filter_sublist.filterMap form).append (List.Sublist.refl _)

/-! ## Bars that keep their length -/

theorem rounded_eq_self_iff : rounded d = d ↔ d ∈ named := by
  constructor
  · intro h
    rw [← h, rounded]
    cases hfound : named.find? (d ≤ ·) with
    | none => decide
    | some e => exact List.mem_of_find?_eq_some hfound
  · intro h
    have hall : (named.all fun d => rounded d == d) = true := by decide
    simpa using List.all_eq_true.1 hall d h

theorem le_rounded (h : d ≤ 2048) : d ≤ rounded d := by
  rw [rounded]
  cases hfound : named.find? (d ≤ ·) with
  | none =>
    have hnone := List.find?_eq_none.1 hfound 2048 (by decide)
    simp [h] at hnone
  | some e => simpa using List.find?_some hfound

theorem sum_le_sum_rounded {ds : List Int} (h : ∀ d ∈ ds, d ≤ 2048) :
    ds.sum ≤ (ds.map rounded).sum := by
  simpa using List.sum_le_sum (f := id) fun d hd => le_rounded (h d hd)

/-- Rounding up never makes up for itself. -/
theorem sum_rounded_eq_iff {ds : List Int} (h : ∀ d ∈ ds, d ≤ 2048) :
    (ds.map rounded).sum = ds.sum ↔ ∀ d ∈ ds, d ∈ named := by
  induction ds with
  | nil => simp
  | cons d ds ih =>
    obtain ⟨hd, hds⟩ := List.forall_mem_cons.1 h
    have hfirst := le_rounded hd
    have hrest := sum_le_sum_rounded hds
    have hsum : rounded d + (ds.map rounded).sum = d + ds.sum ↔
        rounded d = d ∧ (ds.map rounded).sum = ds.sum := by omega
    rw [List.forall_mem_cons, List.map_cons, List.sum_cons, List.sum_cons, hsum,
      rounded_eq_self_iff, ih hds]

/-- Which bars keep their length. -/
theorem writtenTicks_eq_iff (h : ∀ d ∈ durs b, d ≤ 2048) : writtenTicks b = fullTicks b ↔
    (∀ d ∈ durs b, d ∈ named) ∧ (durs b = [] → b.length ∈ 1280 :: named) := by
  rw [writtenTicks, fullTicks]
  by_cases hnone : durs b = []
  · have hwhole : (1024 : Int) ∈ 1280 :: named := by decide
    have hnothing : ∀ d ∈ durs b, d ∈ named := by
      rw [hnone]
      exact List.forall_mem_nil _
    rw [if_pos hnone, if_pos hnone]
    split
    · next hnamed => exact ⟨fun _ => ⟨hnothing, fun _ => hnamed⟩, fun _ => rfl⟩
    · next hnamed =>
      exact ⟨fun heq => ⟨hnothing, fun _ => heq ▸ hwhole⟩, fun hmem => absurd (hmem.2 hnone) hnamed⟩
  · rw [if_neg hnone, if_neg hnone, sum_rounded_eq_iff h]
    exact ⟨fun hall => ⟨hall, fun hnil => absurd hnil hnone⟩, And.left⟩

/-- **A written bar is as long as its durations that are rounded up to names.** Let a bar be written
that has nothing as short as a thirty-second. The words for its notes, chords and rests are those of
the bar that has nothing else, and they take the ticks of the rounded durations, or those of the
rest for an empty bar. The text takes no more, unless a dynamic has several words. If nothing is
longer than a breve, these are the ticks of the bar if and only if all durations have names, and so
has the length if there are none. -/
theorem ticks_of_bar {b : Bar} {text : String} (h : bar b = .ok text) (hdurs : ∀ d ∈ durs b, 32 < d)
    (hlength : durs b = [] → b.length ≠ 32) :
    (∃ notes, bar (timed b) = .ok notes ∧ (Text.pieces ' ' notes).Sublist (Text.pieces ' ' text) ∧
      ticks notes = writtenTicks b) ∧
        (b.items.all isSingleWord = true → ticks text = writtenTicks b) ∧
      ((∀ d ∈ durs b, d ≤ 2048) →
        (writtenTicks b = fullTicks b ↔ (∀ d ∈ durs b, d ∈ named) ∧
          (durs b = [] → b.length ∈ 1280 :: named))) := by
  refine ⟨?_, ticks_bar h hdurs hlength, writtenTicks_eq_iff⟩
  obtain ⟨hitems, rfl⟩ := bar_eq_ok_iff.1 h
  have htimed : ∀ i ∈ (timed b).items, Succeeds (item? i) :=
    fun i hi => hitems i (List.mem_of_mem_filter hi)
  have hnotes := bar_eq_ok_iff.2 ⟨htimed, rfl⟩
  have hwords : (timed b).items.all isSingleWord = true := by
    refine List.all_eq_true.2 fun i hi => ?_
    have hfills := (List.mem_filter.1 hi).2
    cases i with
    | dynamic => cases hfills
    | _ => rfl
  refine ⟨_, hnotes, ?_, ?_⟩
  · rw [Text.pieces_join rfl (barWords_ne_nil htimed),
      Text.pieces_join rfl (barWords_ne_nil hitems)]
    exact (barWords_timed b).flatMap _
  · have hticks := ticks_bar hnotes (by rwa [durs_timed]) (by rwa [durs_timed]) hwords
    rw [writtenTicks, durs_timed] at hticks
    exact hticks

/-- A chord, a hidden rest and a tied note, with a dynamic and a time signature. -/
def cadence : Bar :=
  let third : List Note := [⟨60, none, 35, "", false⟩, ⟨64, none, 37, "", false⟩]
  let note : NoteRest := ⟨0, 384, 1, false, ⟨.ofInt 0, .ofInt 0⟩, third, ["accent"], .auto, .auto⟩
  ⟨1, 1024, none, [.time 0 4 4, .noteRest note, .dynamic 384 "mf" 1 ⟨.ofInt 0, .ofInt 0⟩,
    .noteRest { note with pos := 384, dur := 128, hidden := true, notes := [] },
    .noteRest { note with
      pos := 512, dur := 512, notes := [⟨62, none, 36, "", true⟩], articulations := [] }]⟩

theorem ticks_of_cadence :
    bar cadence = .ok "\\time 4/4 <c' e'>4.-> \\mf s8 d'2~" ∧ (∀ d ∈ durs cadence, 32 < d) ∧
    (∃ notes, bar (timed cadence) = .ok notes ∧
      (Text.pieces ' ' notes).Sublist (Text.pieces ' ' "\\time 4/4 <c' e'>4.-> \\mf s8 d'2~") ∧
        ticks notes = writtenTicks cadence) ∧
    ticks "\\time 4/4 <c' e'>4.-> \\mf s8 d'2~" = writtenTicks cadence ∧
      writtenTicks cadence = fullTicks cadence := by
  have htext : bar cadence = .ok "\\time 4/4 <c' e'>4.-> \\mf s8 d'2~" := by decide
  have hdurs : ∀ d ∈ durs cadence, 32 < d := by decide
  obtain ⟨hnotes, hticks, hfull⟩ := ticks_of_bar htext hdurs (by decide)
  exact ⟨htext, hdurs, hnotes, hticks (by decide), (hfull (by decide)).2 (by decide)⟩

/-- A note of five sixteenths with a rest that fills the bar, and an empty bar of seven eighths. -/
theorem ticks_ne_fullTicks :
    let note : NoteRest :=
      ⟨0, 320, 1, false, ⟨.ofInt 0, .ofInt 0⟩, [⟨60, none, 35, "", false⟩], [], .auto, .auto⟩
    let syncope : Bar :=
      ⟨1, 1024, none, [.noteRest note, .noteRest { note with pos := 320, dur := 704, notes := [] }]⟩
    let empty : Bar := ⟨2, 896, none, []⟩
    bar syncope = .ok "c'4. r2." ∧ ticks "c'4. r2." = 1152 ∧ fullTicks syncope = 1024 ∧
      bar empty = .ok "R1" ∧ ticks "R1" = 1024 ∧ fullTicks empty = 896 := by
  decide +kernel

end Partitura.Score.LilyPond
