import Mathlib.Data.List.Basic
import Partitura.ManuScript.Signature
import Partitura.Proofs.Text.Blanks
import Partitura.Proofs.Text.Classes
import Partitura.Proofs.Text.Lines

/-!
# Optional parameters in signatures

A list of parameters is written as entries with commas between them; an entry is a name with
brackets and blanks around it. The reader finds all names in their order, but it knows two things
less than the brackets say: a name right before an opening bracket gets no mark, though brackets may
be open there, and if such a name is outside of all brackets, the names up to the last one of them
are taken for the required ones. `ofLine?_told_iff` says for which signatures it is right
nevertheless.
-/

namespace Partitura.ManuScript.Signature

open Text

/-- What may stand around a name: brackets and blanks. -/
def isFrame (c : Char) : Bool := c == '[' || c == ']' || isBlank c

/-- An entry of a list of parameters: a plain name, and what stands around it. -/
structure Entry where
  before : List Char
  name : List Char
  after : List Char
  frame : ∀ c ∈ before ++ after, isFrame c = true
  plain : ∀ c ∈ name, c ∉ "[],()?".toList
  ne_nil : name ≠ []
  trimmed : trim name = name

/-- An entry as it is written. -/
def Entry.text (e : Entry) : List Char := e.before ++ e.name ++ e.after

/-- The next bracket behind the name opens. -/
def Entry.opens (e : Entry) : Bool := (trimLeft e.after).head? == some '['

/-- A list of parameters as it is written. -/
def written (es : List Entry) : List Char := [','].intercalate (es.map Entry.text)

/-- The number of open brackets after some text. -/
def depthAfter (d : Nat) (cs : List Char) : Nat :=
  cs.foldl (fun d c => if c = '[' then d + 1 else if c = ']' then d - 1 else d) d

/-- Every closing bracket closes one. -/
def closes (d : Nat) : List Char → Bool
  | [] => true
  | c :: r => (c != ']' || 0 < d) && closes (depthAfter d [c]) r

/-- Every closing bracket closes one, and all are closed. -/
def nested (cs : List Char) : Bool := closes 0 cs && depthAfter 0 cs == 0

/-- The entries with the number of brackets that are open at their names. -/
def placed (d : Nat) : List Entry → List (Entry × Nat)
  | [] => []
  | e :: es => (e, depthAfter d e.before) :: placed (depthAfter d e.text) es

/-- A name with a question mark if it is optional. -/
def marked (e : Entry) (optional : Bool) : String :=
  String.ofList e.name ++ if optional then "?" else ""

/-- What the brackets say: all names in their order, marked if they are inside of brackets, and the
number of the others. -/
def told (es : List Entry) : Signature :=
  ⟨(placed 0 es).map fun (e, d) => marked e (0 < d), (placed 0 es).countP (·.2 = 0), es.length⟩

/-- How many entries there are up to the last one outside of brackets whose next bracket opens. -/
def upToOpening : List (Entry × Nat) → Nat
  | [] => 0
  | (e, d) :: r => if 0 < upToOpening r then upToOpening r + 1 else if d = 0 ∧ e.opens then 1 else 0

/-- What the reader finds: a name whose next bracket opens has no mark, and if there is one outside
of brackets, the names up to the last such name are the required ones. -/
def found (es : List Entry) : Signature :=
  let optional := fun (e, d) => decide (0 < d) && !Entry.opens e
  ⟨(placed 0 es).map fun q => marked q.1 (optional q),
    if upToOpening (placed 0 es) = 0 then (placed 0 es).countP fun q => !optional q
    else upToOpening (placed 0 es), es.length⟩

/-! ## Brackets -/

theorem depthAfter_append (d : Nat) (u v : List Char) :
    depthAfter d (u ++ v) = depthAfter (depthAfter d u) v := List.foldl_append ..

theorem depthAfter_of_not_mem {cs : List Char} (h : ∀ c ∈ cs, c ≠ '[' ∧ c ≠ ']') (d : Nat) :
    depthAfter d cs = d := by
  induction cs with
  | nil => rfl
  | cons c r ih =>
    obtain ⟨hc, hr⟩ := List.forall_mem_cons.1 h
    rw [depthAfter, List.foldl_cons, if_neg hc.1, if_neg hc.2]
    exact ih hr

theorem closes_append (d : Nat) (u v : List Char) :
    closes d (u ++ v) = (closes d u && closes (depthAfter d u) v) := by
  induction u generalizing d with
  | nil => rfl
  | cons c r ih => rw [List.cons_append, closes, ih, closes, Bool.and_assoc]; rfl

/-! ## Reading one entry -/

theorem foldl_step_of_not_mem {cs : List Char} (h : ∀ c ∈ cs, c ∉ "[],".toList) (s : Progress) :
    cs.foldl Progress.step s = { s with current := s.current ++ cs } := by
  induction cs generalizing s with
  | nil => simp
  | cons c r ih =>
    obtain ⟨hc, hr⟩ := List.forall_mem_cons.1 h
    have hstep : s.step c = { s with current := s.current ++ [c] } := by
      unfold Progress.step
      split
      case h_4 => rfl
      all_goals exact absurd (by decide) hc
    rw [List.foldl_cons, hstep, ih hr]
    simp

theorem not_mem_of_isBlank {c : Char} (h : isBlank c = true) : c ∉ "[],".toList := by
  have hall : ∀ c ∈ "[],".toList, isBlank c = false := forall_mem_of_all (by decide)
  intro hc
  rw [hall c hc] at h
  cases h

/-- A blank name goes on. -/
theorem finish_of_allBlank {s : Progress} (h : AllBlank s.current) (mark : String) :
    s.finish mark = s := by
  simp [Progress.finish, trim_eq_nil_iff.2 h]

/-- A name ends, without the blanks around it. -/
theorem finish_name (e : Entry) {s : Progress} {a b : List Char} (ha : AllBlank a) (hb : AllBlank b)
    (hs : s.current = a ++ e.name ++ b) (mark : String) :
    s.finish mark =
      { s with params := s.params ++ [String.ofList e.name ++ mark], current := [] } := by
  have htrim : trim s.current = e.name := by
    rw [hs, trim_append_of_allBlank _ hb, trim_allBlank_append ha, e.trimmed]
  simp [Progress.finish, htrim, e.ne_nil]

/-- Around names brackets are counted, and nothing else happens. -/
theorem foldl_step_frame {cs : List Char} (h : ∀ c ∈ cs, isFrame c = true) {s : Progress}
    (hs : AllBlank s.current) :
    ∃ current, AllBlank current ∧
      cs.foldl Progress.step s = { s with depth := depthAfter s.depth cs, current } := by
  induction cs generalizing s with
  | nil => exact ⟨s.current, hs, rfl⟩
  | cons c r ih =>
    obtain ⟨hc, hr⟩ := List.forall_mem_cons.1 h
    obtain ⟨params, required, depth, current⟩ := s
    have hf : ∀ d m, (⟨params, required, d, current⟩ : Progress).finish m =
        ⟨params, required, d, current⟩ :=
      fun d m => finish_of_allBlank (s := ⟨params, required, d, current⟩) hs m
    obtain ⟨w, hw, hstep⟩ : ∃ w, AllBlank w ∧
        (⟨params, required, depth, current⟩ : Progress).step c =
          ⟨params, required, depthAfter depth [c], w⟩ := by
      have hbracket : c = '[' ∨ c = ']' ∨ isBlank c = true := by simpa [isFrame, or_assoc] using hc
      rcases hbracket with rfl | rfl | hblank
      · exact ⟨current, hs, by simp [Progress.step, hf, depthAfter]⟩
      · exact ⟨current, hs, by simp [Progress.step, hf, depthAfter]⟩
      · have hmem := not_mem_of_isBlank hblank
        refine ⟨current ++ [c], allBlank_append.2 ⟨hs, by simpa [AllBlank] using hblank⟩, ?_⟩
        have hrun : [c].foldl Progress.step ⟨params, required, depth, current⟩ =
            ⟨params, required, depth, current ++ [c]⟩ :=
          foldl_step_of_not_mem (by simpa using hmem) _
        rw [List.foldl_cons, List.foldl_nil] at hrun
        rw [hrun, depthAfter_of_not_mem (by simp_all)]
    obtain ⟨w', hw', hrun⟩ := ih hr (s := ⟨params, required, depthAfter depth [c], w⟩) hw
    exact ⟨w', hw', by rw [List.foldl_cons, hstep, hrun]; rfl⟩

/-- Ends what was read, as a comma does. -/
def Progress.ended (s : Progress) : Progress := s.finish s.mark

/-- What follows a name ends it: with the mark of the depth if there is no bracket, without one
before an opening bracket. -/
theorem ended_name (e : Entry) {a b rest : List Char} (ha : AllBlank a) (hb : AllBlank b)
    {params : List String} {required d : Nat} (hrest : ∀ c ∈ rest, isFrame c = true)
    (hhead : ∀ c ∈ rest.head?, isBlank c = false) (hclose : rest.head? = some ']' → 0 < d) :
    ∃ w, AllBlank w ∧ (rest.foldl Progress.step ⟨params, required, d, a ++ e.name ++ b⟩).ended =
      ⟨params ++ [marked e (decide (0 < d) && !rest.head? == some '[')],
        if d = 0 ∧ rest.head? = some '[' then params.length + 1 else required,
          depthAfter d rest, w⟩ := by
  have hfinish : ∀ n m, (⟨params, required, n, a ++ e.name ++ b⟩ : Progress).finish m =
      ⟨params ++ [String.ofList e.name ++ m], required, n, []⟩ :=
    fun n m => finish_name e ha hb rfl m
  cases rest with
  | nil =>
    exact ⟨[], allBlank_nil, by
        rw [List.foldl_nil, Progress.ended, hfinish]; simp [marked, Progress.mark, depthAfter]⟩
  | cons c r =>
    obtain ⟨hc, hr⟩ := List.forall_mem_cons.1 hrest
    have hrun :
        ∀ n m, ∃ w, AllBlank w ∧
          (r.foldl Progress.step
            ⟨params ++ [String.ofList e.name ++ m], n, depthAfter d [c], []⟩).ended =
        ⟨params ++ [String.ofList e.name ++ m], n, depthAfter d (c :: r), w⟩ := by
      intro n m
      obtain ⟨w, hw, hrun⟩ :=
        foldl_step_frame hr
          (s := ⟨params ++ [String.ofList e.name ++ m], n, depthAfter d [c], []⟩) allBlank_nil
      exact ⟨w, hw, by rw [hrun, Progress.ended, finish_of_allBlank hw]; rfl⟩
    have hbracket : c = '[' ∨ c = ']' := by
      have := hhead c rfl
      simpa [isFrame, this] using hc
    rcases hbracket with rfl | rfl
    · obtain ⟨w, hw, hrun⟩ := hrun (if d = 0 then params.length + 1 else required) ""
      refine ⟨w, hw, ?_⟩
      have hstep : (⟨params, required, d, a ++ e.name ++ b⟩ : Progress).step '[' =
          ⟨params ++ [String.ofList e.name ++ ""], if d = 0 then params.length + 1 else required,
            depthAfter d ['['], []⟩ := by
        simp only [Progress.step, hfinish]
        split <;> simp_all [depthAfter]
      rw [List.foldl_cons, hstep, hrun]
      simp [marked]
    · obtain ⟨w, hw, hrun⟩ := hrun required "?"
      refine ⟨w, hw, ?_⟩
      have hstep : (⟨params, required, d, a ++ e.name ++ b⟩ : Progress).step ']' =
          ⟨params ++ [String.ofList e.name ++ "?"], required, depthAfter d [']'], []⟩ :=
        hfinish (d - 1) "?"
      rw [List.foldl_cons, hstep, hrun]
      simp [marked, hclose rfl]

/-- An entry up to the first bracket behind its name, and the rest. -/
theorem Entry.exists_text (e : Entry) :
    ∃ b, AllBlank b ∧ e.text = e.before ++ (e.name ++ b) ++ trimLeft e.after ∧
    (∀ c ∈ e.name ++ b, c ∉ "[],".toList) ∧ ∀ d,
      depthAfter d (e.before ++ (e.name ++ b)) = depthAfter d e.before := by
  obtain ⟨b, hb, hsplit⟩ := exists_allBlank_append_trimLeft e.after
  have hname : ∀ c ∈ e.name ++ b, c ∉ "[],".toList := by
    have hall : ∀ c ∈ "[],".toList, c ∈ "[],()?".toList := forall_mem_of_all (by decide)
    exact List.forall_mem_append.2
      ⟨fun c hc hm => e.plain c hc (hall c hm), fun c hc => not_mem_of_isBlank (hb c hc)⟩
  refine ⟨b, hb, ?_, hname, fun d => ?_⟩
  · rw [Entry.text, List.append_assoc, List.append_assoc, List.append_assoc, ← hsplit]
  · rw [depthAfter_append, depthAfter_of_not_mem]
    intro c hc
    have := hname c hc
    exact ⟨fun h => this (by simp [h]), fun h => this (by simp [h])⟩

/-- An entry gives its name: marked if it is inside of brackets, unless the next bracket opens. -/
theorem ended_entry (e : Entry) {s : Progress} (hs : AllBlank s.current)
    (hclose : (trimLeft e.after).head? = some ']' → 0 < depthAfter s.depth e.before) :
    ∃ w, AllBlank w ∧ (e.text.foldl Progress.step s).ended =
      ⟨s.params ++ [marked e (decide (0 < depthAfter s.depth e.before) && !e.opens)],
        if depthAfter s.depth e.before = 0 ∧ e.opens = true then s.params.length + 1
        else s.required, depthAfter s.depth e.text, w⟩ := by
  obtain ⟨hbefore, hafter⟩ := List.forall_mem_append.1 e.frame
  obtain ⟨a, ha, hrun⟩ := foldl_step_frame hbefore hs
  obtain ⟨b, hb, htext, hname, hdepth⟩ := e.exists_text
  have hrest : ∀ c ∈ trimLeft e.after, isFrame c = true :=
    fun c hc => hafter c ((List.dropWhile_sublist _).subset hc)
  rw [htext, depthAfter_append, hdepth, List.foldl_append, List.foldl_append, hrun,
    foldl_step_of_not_mem hname, ← List.append_assoc]
  simpa [Entry.opens] using ended_name e ha hb hrest (head_trimLeft _) hclose

/-! ## Reading a list -/

/-- The first entry of a list, and what follows it: nothing, or a comma and the other entries. -/
theorem exists_written_cons (e : Entry) (es : List Entry) {d : Nat}
    (h : closes d (written (e :: es)) = true) :
    ∃ v, written (e :: es) = e.text ++ v ∧ closes (depthAfter d e.text) (written es) = true ∧
      ∀ t : Progress, AllBlank t.ended.current →
        (v.foldl Progress.step t).ended = ((written es).foldl Progress.step t.ended).ended := by
  cases es with
  | nil =>
    exact ⟨[], by simp [written], rfl, fun t ht => (finish_of_allBlank ht _).symm⟩
  | cons f fs =>
    have hcomma : written (e :: f :: fs) = e.text ++ ([','] ++ written (f :: fs)) := by
      simp [written, List.intercalate_cons_cons]
    rw [hcomma, closes_append, closes_append, Bool.and_eq_true, Bool.and_eq_true] at h
    exact ⟨_, hcomma, h.2.2, fun t _ => rfl⟩

/-- The list of parameters is read entry by entry. -/
theorem ended_written (es : List Entry) {s : Progress} (hs : AllBlank s.current)
    (hclose : closes s.depth (written es) = true) :
    ((written es).foldl Progress.step s).ended.params =
        s.params ++ (placed s.depth es).map (fun q => marked q.1 (decide (0 < q.2) && !q.1.opens)) ∧
      ((written es).foldl Progress.step s).ended.required =
        if 0 < upToOpening (placed s.depth es) then
          s.params.length + upToOpening (placed s.depth es) else s.required := by
  induction es generalizing s with
  | nil => simp [written, Progress.ended, finish_of_allBlank hs, placed, upToOpening]
  | cons e es ih =>
    obtain ⟨v, hwritten, hclose', hrun⟩ := exists_written_cons e es hclose
    obtain ⟨b, -, htext, -, hdepth⟩ := e.exists_text
    obtain ⟨w, hw, hended⟩ := ended_entry e hs fun hnext => by
      obtain ⟨r, hr⟩ := List.head?_eq_some_iff.1 hnext
      rw [hwritten, htext, hr, closes_append, closes_append, closes, hdepth] at hclose
      simp_all
    obtain ⟨hparams, hrequired⟩ :=
      ih (s := (e.text.foldl Progress.step s).ended) (by rw [hended]; exact hw)
      (by rw [hended]; exact hclose')
    rw [hwritten, List.foldl_append, hrun _ (by rw [hended]; exact hw), hparams, hrequired, hended]
    simp only [placed, List.map_cons, upToOpening, List.append_assoc, List.singleton_append,
      List.length_append, List.length_singleton]
    refine ⟨trivial, ?_⟩
    grind

/-! ## Signatures -/

theorem hasEnd_marked (e : Entry) (optional : Bool) :
    hasEnd (marked e optional) "?" = optional := by
  cases optional with
  | true => simp [marked, hasEnd]
  | false =>
    refine Bool.eq_false_iff.2 fun h => ?_
    obtain ⟨w, hw⟩ := List.isSuffixOf_iff_suffix.1 h
    have hmem : '?' ∈ e.name := by
      rw [show e.name = w ++ ['?'] by simpa [marked] using hw.symm]
      simp
    exact e.plain _ hmem (by decide)

theorem marked_inj {e : Entry} {a b : Bool} : marked e a = marked e b ↔ a = b :=
  ⟨fun h => by rw [← hasEnd_marked e a, h, hasEnd_marked], fun h => by rw [h]⟩

@[simp] theorem length_placed (d : Nat) (es : List Entry) : (placed d es).length = es.length := by
  induction es generalizing d with
  | nil => rfl
  | cons e es ih => simp [placed, ih]

theorem ofParams_written {es : List Entry} (h : nested (written es) = true) :
    ofParams (written es) = found es := by
  obtain ⟨hparams, hrequired⟩ :=
    ended_written es (s := ⟨[], 0, 0, []⟩) allBlank_nil (Bool.and_eq_true_iff.1 h).1
  have hkeep : ∀ (s : Progress) m, (s.finish m).required = s.required := fun s m => by
    simp only [Progress.finish]
    split <;> rfl
  rw [Progress.ended, hkeep] at hrequired
  rw [Progress.ended] at hparams
  simp only [ofParams, found, hparams, hrequired, List.nil_append, List.length_map, length_placed,
    ← List.countP_eq_length_filter, List.countP_map, Function.comp_def, hasEnd_marked]
  congr 1
  split <;> simp_all

theorem found_eq_told_iff (es : List Entry) : found es = told es ↔
    (∀ q ∈ placed 0 es, 0 < q.2 → q.1.opens = false) ∧
      (upToOpening (placed 0 es) = 0 ∨
        upToOpening (placed 0 es) = (placed 0 es).countP (·.2 = 0)) := by
  have hmarks : (placed 0 es).map (fun q => marked q.1 (decide (0 < q.2) && !q.1.opens)) =
      (placed 0 es).map (fun q => marked q.1 (decide (0 < q.2))) ↔ ∀ q ∈ placed 0 es, 0 < q.2 →
        q.1.opens = false := by
    simp [List.map_inj_left, marked_inj]
  rw [found, told, Signature.mk.injEq, hmarks]
  refine and_congr_right fun hopens => ?_
  have hcount : (placed 0 es).countP (fun q => !(decide (0 < q.2) && !q.1.opens)) =
      (placed 0 es).countP (·.2 = 0) :=
    List.countP_congr fun q hq => by
      have := hopens q hq
      grind
  rw [hcount]
  split <;> simp_all

theorem Entry.not_mem_text (e : Entry) : ')' ∉ e.text := by
  have hframe : ∀ cs : List Char, (∀ c ∈ cs, isFrame c = true) → ')' ∉ cs := fun cs h hmem => by
    have hparen : isFrame ')' = false := by decide
    rw [h _ hmem] at hparen
    cases hparen
  obtain ⟨hbefore, hafter⟩ := List.forall_mem_append.1 e.frame
  rw [Entry.text, List.mem_append, List.mem_append, not_or, not_or]
  exact ⟨⟨hframe _ hbefore, fun hname => e.plain _ hname (by decide)⟩, hframe _ hafter⟩

theorem not_mem_written (es : List Entry) : ')' ∉ written es := by
  rw [written, mem_intercalate (by decide)]
  simpa using fun e _ => e.not_mem_text

/-- A line of the manual is a name and its parameters in parentheses. -/
theorem ofLine?_eq {c : Char} {name w line : List Char} {es : List Entry}
    (hline : trim line = c :: (name ++ '(' :: (w ++ [')']))) (hc : isCapital c = true)
    (hname : ∀ x ∈ name, isNameChar x = true) (hw : trim w = written es) :
    ofLine? line = some (String.ofList (c :: name), ofParams (written es)) := by
  have hparen : ')' ∉ w := fun hmem => by
    have hink : ')' ∈ inked (written es) := by
      rw [← hw, inked_trim]
      exact List.mem_filter.2 ⟨hmem, by decide⟩
    exact not_mem_written es (List.mem_filter.1 hink).1
  have hnames : (name ++ '(' :: (w ++ [')'])).takeWhile isNameChar = name := by
    rw [List.takeWhile_append_of_pos hname, List.takeWhile_cons_of_neg (by decide), List.append_nil]
  have hparams : (w ++ [')']).takeWhile (· != ')') = w := by
    rw [List.takeWhile_append_of_pos (by grind), List.takeWhile_cons_of_neg (by decide),
      List.append_nil]
  simp [ofLine?, hline, hnames, hparams, hc, hw]

/-- The reader finds every parameter of a signature in its place. What it finds is what the brackets
say if and only if inside of brackets no bracket opens right behind a name, and outside of them the
names up to the last one with a bracket opening behind it, if there is one, are as many as the
required names. -/
theorem ofLine?_told_iff {c : Char} {name w line : List Char} {es : List Entry}
    (hline : trim line = c :: (name ++ '(' :: (w ++ [')']))) (hc : isCapital c = true)
    (hname : ∀ x ∈ name, isNameChar x = true) (hw : trim w = written es)
    (hnested : nested (written es) = true) :
    ofLine? line = some (String.ofList (c :: name), found es) ∧
      (found es = told es ↔ (∀ q ∈ placed 0 es, 0 < q.2 → q.1.opens = false) ∧
        (upToOpening (placed 0 es) = 0 ∨
          upToOpening (placed 0 es) = (placed 0 es).countP (·.2 = 0))) := by
  refine ⟨?_, found_eq_told_iff es⟩
  rw [ofLine?_eq hline hc hname hw, ofParams_written hnested]

/-- The entries of `Bar(a[, b, [c ]])`. -/
def barEntries : List Entry :=
  [⟨[], ['a'], ['['], forall_mem_of_all (by decide),
    forall_mem_of_all (by decide), by decide, by decide⟩,
    ⟨[' '], ['b'], [], forall_mem_of_all (by decide),
      forall_mem_of_all (by decide), by decide, by decide⟩,
      ⟨" [".toList, ['c'], " ]]".toList, forall_mem_of_all (by decide),
        forall_mem_of_all (by decide), by decide, by decide⟩]

theorem ofLine?_told_bar : nested (written barEntries) = true ∧ found barEntries = told barEntries ∧
    ofLine? "  Bar(a[, b, [c ]])".toList = some ("Bar", ⟨["a", "b?", "c?"], 1, 3⟩) := by
  have hline :
      trim "  Bar(a[, b, [c ]])".toList =
        'B' :: ("ar".toList ++ '(' :: ("a[, b, [c ]]".toList ++ [')'])) := by decide
  have hw : trim "a[, b, [c ]]".toList = written barEntries := by decide
  obtain ⟨hfound, htold⟩ :=
    ofLine?_told_iff hline (by decide) (forall_mem_of_all (by decide)) hw (by decide)
  exact ⟨by decide, htold.2 (by decide), hfound⟩

theorem ofLine?_ne_told :
    ofLine? "Foo(a,[b[,c]])".toList ≠ some ("Foo", ⟨["a", "b?", "c?"], 1, 3⟩) ∧
    ofLine? "Foo(a[,b],c)".toList ≠ some ("Foo", ⟨["a", "b?", "c"], 2, 3⟩) := by
  decide

end Partitura.ManuScript.Signature
