import Mathlib.Data.List.Infix
import Partitura.Lint.Directives

/-!
# Directives that meet on a line

A complaint on a line can be silenced by a `noqa` or an `ignore` on that line, or on a comment right
above it. One would expect that they add up: what one of them covers is silenced, whatever the
others say (`AddsUp`). They do not always. A `noqa` takes the place of what came from above; a
`noqa` without codes, which stands for all, is narrowed by codes that are added to it; two lines
that one `noqa` silences share their codes, so that an `ignore` on the second counts for the first;
an `ignore` without codes stands for all where it is alone; and of two directives of a kind on one
line only the first is read.

`heeded` lists the directives that do decide on a line. They are found in that line and its two
neighbours. The codes of a line are those of the heeded directives together, and all codes if none
of them names any (`Silences`). So directives add up for a code on a line if and only if the heeded
ones say of it what those that stand there say (`addsUp_iff_heeded`), which is so wherever they do
not get into each other's way (`Undisturbed`).

The proof keeps account of the directives that count on each line, and of the lines that share their
codes with the next one (`Describes`), while the lines are read one after another.
-/

namespace Partitura.Lint

open Text

/-- A directive that silences complaints on a line: a `noqa`, where no codes stand for all of them,
or an `ignore`. -/
inductive Directive where
  | noqa (codes : List String)
  | ignore (codes : List String)
deriving DecidableEq, Repr

/-- The codes that a directive names. -/
def Directive.codes : Directive → List String
  | noqa codes => codes
  | ignore codes => codes

/-- A directive covers the codes that it names, and a `noqa` that names none covers all. -/
def Directive.Covers (d : Directive) (code : String) : Prop := d = noqa [] ∨ code ∈ d.codes

instance (d : Directive) (code : String) : Decidable (d.Covers code) :=
  inferInstanceAs (Decidable (_ ∨ _))

variable {ds : List Directive} {ls : List Int} {s : Silence} {l : Int} {line content : List Char}

theorem mem_union {xs ys : List String} {x : String} : x ∈ union xs ys ↔ x ∈ xs ∨ x ∈ ys := by
  unfold union
  induction ys generalizing xs with
  | nil => simp
  | cons y ys ih =>
    rw [List.foldl_cons, ih, List.mem_cons]
    split
    · next h =>
      have hy : x = y → x ∈ xs := by
        rintro rfl
        simpa using h
      rw [← or_assoc, or_iff_left_of_imp hy]
    · rw [List.mem_append, List.mem_singleton, or_assoc]

theorem ne_nil_congr {es : List Directive} (h : ∀ d, d ∈ ds ↔ d ∈ es) : ds ≠ [] ↔ es ≠ [] := by
  rw [ne_eq, ne_eq, List.eq_nil_iff_forall_not_mem, List.eq_nil_iff_forall_not_mem]
  simp only [h]

/-! ## Silences and the directives behind them -/

/-- The silences of a line have the codes of these directives together; without a directive there is
no silence. -/
structure TellsAt (ss : List Silence) (m : Int) (ds : List Directive) : Prop where
  told : (∃ s ∈ ss, m ∈ s.lines) ↔ ds ≠ []
  codes : ∀ s ∈ ss, m ∈ s.lines → ∀ x, x ∈ s.codes ↔ ∃ d ∈ ds, x ∈ d.codes

/-- The directives `f m` count on the line `m`, and the lines of `tie` share their codes with the
next one. -/
structure Describes (ss : List Silence) (f : Int → List Directive) (tie : Int → Prop) : Prop where
  tells : ∀ m, TellsAt ss m (f m)
  tied : ∀ m, tie m → ∀ s ∈ ss, m ∈ s.lines ↔ m + 1 ∈ s.lines
  untied : ∀ s ∈ ss, ∀ m ∈ s.lines, ∀ m' ∈ s.lines, m < m' → m' = m + 1 ∧ tie m
  told : ∀ m, tie m → f m ≠ []

theorem TellsAt.congr {ss : List Silence} {m : Int} {es : List Directive} (h : TellsAt ss m ds)
    (hds : ∀ d, d ∈ ds ↔ d ∈ es) : TellsAt ss m es :=
  ⟨h.told.trans (ne_nil_congr hds), fun s hs hm x => by simp only [h.codes s hs hm x, hds]⟩

section
variable {ss : List Silence} {f : Int → List Directive} {tie : Int → Prop}

theorem Describes.congr (h : Describes ss f tie) {g : Int → List Directive} {tie' : Int → Prop}
    (hf : ∀ m d, d ∈ f m ↔ d ∈ g m) (htie : ∀ m, tie m ↔ tie' m) : Describes ss g tie' where
  tells m := (h.tells m).congr (hf m)
  tied m hm := h.tied m ((htie m).2 hm)
  untied s hs m hm m' hm' hlt := by
    obtain ⟨heq, hm⟩ := h.untied s hs m hm m' hm' hlt
    exact ⟨heq, (htie m).1 hm⟩
  told m hm := (ne_nil_congr (hf m)).1 (h.told m ((htie m).2 hm))

/-! ## Taking the place of what was said -/

theorem mem_replace {codes : List String} : s ∈ replace ls codes ss ↔
    (∃ s₀ ∈ ss, s = ⟨s₀.lines.filter (!ls.contains ·), s₀.codes⟩ ∧ s.lines ≠ []) ∨
      s = ⟨ls, union [] codes⟩ := by
  unfold replace
  simp only [List.mem_append, List.mem_filter, List.mem_map, List.mem_singleton]
  constructor
  · rintro (⟨⟨s₀, hs₀, rfl⟩, hne⟩ | rfl)
    · exact .inl ⟨s₀, hs₀, rfl, by simpa using hne⟩
    · exact .inr rfl
  · rintro (⟨s₀, hs₀, rfl, hne⟩ | rfl)
    · exact .inl ⟨⟨s₀, hs₀, rfl⟩, by simpa using hne⟩
    · exact .inr rfl

theorem mem_lines_replace {s₀ : Silence} {m : Int} :
    m ∈ s₀.lines.filter (!ls.contains ·) ↔ m ∈ s₀.lines ∧ m ∉ ls := by
  simp

/-- The directives of the lines once `d` stands in the place of those on the lines `ls`. -/
def put (ls : List Int) (d : Directive) (f : Int → List Directive) (m : Int) : List Directive :=
  if m ∈ ls then [d] else f m

/-- The lines that share their codes with the next one, once the lines `ls` have been silenced
together. -/
def tieAll (ls : List Int) (tie : Int → Prop) (m : Int) : Prop :=
  (m ∈ ls ∧ m + 1 ∈ ls) ∨ (m ∉ ls ∧ m + 1 ∉ ls ∧ tie m)

theorem Describes.replaced (h : Describes ss f tie) (hls : ∀ m ∈ ls, ∀ m' ∈ ls, m < m' → m' = m + 1)
    (codes : List String) :
    Describes (replace ls codes ss) (put ls (.noqa codes) f) (tieAll ls tie) where
  tells m := by
    unfold put
    split
    · next hm =>
      refine ⟨iff_of_true ⟨_, mem_replace.2 (.inr rfl), hm⟩ (List.cons_ne_nil _ _),
        fun s hs hms x => ?_⟩
      obtain ⟨s₀, -, rfl, -⟩ | rfl := mem_replace.1 hs
      · exact absurd hm (mem_lines_replace.1 hms).2
      · simp [mem_union, Directive.codes]
    · next hm =>
      refine ⟨?_, fun s hs hms x => ?_⟩
      · rw [← (h.tells m).told]
        constructor
        · rintro ⟨s, hs, hms⟩
          obtain ⟨s₀, hs₀, rfl, -⟩ | rfl := mem_replace.1 hs
          · exact ⟨s₀, hs₀, (mem_lines_replace.1 hms).1⟩
          · exact absurd hms hm
        · rintro ⟨s₀, hs₀, hms⟩
          have hmem := mem_lines_replace.2 ⟨hms, hm⟩
          exact ⟨_, mem_replace.2 (.inl ⟨s₀, hs₀, rfl, List.ne_nil_of_mem hmem⟩), hmem⟩
      · obtain ⟨s₀, hs₀, rfl, -⟩ | rfl := mem_replace.1 hs
        · exact (h.tells m).codes s₀ hs₀ (mem_lines_replace.1 hms).1 x
        · exact absurd hms hm
  tied m hm s hs := by
    obtain ⟨s₀, hs₀, rfl, -⟩ | rfl := mem_replace.1 hs
    · obtain ⟨hm, hm'⟩ | ⟨hm, hm', htie⟩ := hm
      · exact iff_of_false (fun hc => (mem_lines_replace.1 hc).2 hm) fun hc =>
          (mem_lines_replace.1 hc).2 hm'
      · rw [mem_lines_replace, mem_lines_replace, h.tied m htie s₀ hs₀, and_iff_left hm,
          and_iff_left hm']
    · obtain ⟨hm, hm'⟩ | ⟨hm, hm', -⟩ := hm
      · exact iff_of_true hm hm'
      · exact iff_of_false hm hm'
  untied s hs m hm m' hm' hlt := by
    obtain ⟨s₀, hs₀, rfl, -⟩ | rfl := mem_replace.1 hs
    · obtain ⟨hm, hout⟩ := mem_lines_replace.1 hm
      obtain ⟨hm', hout'⟩ := mem_lines_replace.1 hm'
      obtain ⟨rfl, htie⟩ := h.untied s₀ hs₀ m hm m' hm' hlt
      exact ⟨rfl, .inr ⟨hout, hout', htie⟩⟩
    · obtain rfl := hls m hm m' hm' hlt
      exact ⟨rfl, .inl ⟨hm, hm'⟩⟩
  told m hm := by
    unfold put
    obtain ⟨hm, -⟩ | ⟨hm, -, htie⟩ := hm
    · rw [if_pos hm]
      exact List.cons_ne_nil _ _
    · rw [if_neg hm]
      exact h.told m htie

/-! ## Adding to what was said -/

/-- The line `l` and the lines that share their codes with it. -/
def Group (tie : Int → Prop) (l m : Int) : Prop := m = l ∨ (tie m ∧ m + 1 = l) ∨ (tie l ∧ m = l + 1)

theorem Describes.mem_iff_of_group (h : Describes ss f tie) {m : Int}
    (hm : Group tie l m) (hs : s ∈ ss) : m ∈ s.lines ↔ l ∈ s.lines := by
  obtain rfl | ⟨htie, rfl⟩ | ⟨htie, rfl⟩ := hm
  · rfl
  · exact h.tied m htie s hs
  · exact (h.tied l htie s hs).symm

theorem Describes.group_of_mem (h : Describes ss f tie) {m : Int} (hs : s ∈ ss) (hm : m ∈ s.lines)
    (hl : l ∈ s.lines) : Group tie l m := by
  rcases Int.lt_trichotomy m l with hlt | rfl | hlt
  · obtain ⟨rfl, htie⟩ := h.untied s hs m hm l hl hlt
    exact .inr (.inl ⟨htie, rfl⟩)
  · exact .inl rfl
  · obtain ⟨rfl, htie⟩ := h.untied s hs l hl m hm hlt
    exact .inr (.inr ⟨htie, rfl⟩)

/-- A line that is not silenced shares its codes with no other. -/
theorem Describes.eq_of_group (h : Describes ss f tie) {m : Int} (hnone : ∀ s ∈ ss, l ∉ s.lines)
    (hm : Group tie l m) : m = l := by
  have hsilent {k : Int} (hk : Group tie l k) : ¬ tie k := by
    intro htie
    obtain ⟨s, hs, hks⟩ := (h.tells k).told.2 (h.told k htie)
    exact hnone s hs ((h.mem_iff_of_group hk hs).1 hks)
  obtain hm | ⟨htie, hl⟩ | ⟨htie, -⟩ := hm
  · exact hm
  · exact absurd htie (hsilent (.inr (.inl ⟨htie, hl⟩)))
  · exact absurd htie (hsilent (.inl rfl))

/-- Adding codes keeps the lines of a silence, or makes a silence of one line. -/
theorem exists_of_mem_extend {codes : List String} (h : s ∈ extend l codes ss) :
    (∃ s₀ ∈ ss, s = if l ∈ s₀.lines then ⟨s₀.lines, union s₀.codes codes⟩ else s₀) ∨
      ((∀ s₀ ∈ ss, l ∉ s₀.lines) ∧ s = ⟨[l], union [] codes⟩) := by
  unfold extend at h
  split at h
  · obtain ⟨s₀, hs₀, rfl⟩ := List.mem_map.1 h
    exact .inl ⟨s₀, hs₀, by simp⟩
  · next hnone =>
    have hall : ∀ s₀ ∈ ss, l ∉ s₀.lines := by simpa using hnone
    rcases List.mem_append.1 h with h | h
    · exact .inl ⟨s, h, by rw [if_neg (hall s h)]⟩
    · exact .inr ⟨hall, List.mem_singleton.1 h⟩

theorem lines_of_ite {codes : List String} :
    (if l ∈ s.lines then (⟨s.lines, union s.codes codes⟩ : Silence) else s).lines = s.lines := by
  split <;> rfl

theorem exists_lines_extend (l : Int) (codes : List String) (h : s ∈ ss) :
    ∃ s' ∈ extend l codes ss, s'.lines = s.lines := by
  unfold extend
  split
  · refine ⟨_, List.mem_map_of_mem h, ?_⟩
    split <;> rfl
  · exact ⟨s, List.mem_append_left _ h, rfl⟩

theorem exists_mem_extend (l : Int) (codes : List String) (ss : List Silence) :
    ∃ s ∈ extend l codes ss, l ∈ s.lines := by
  by_cases h : ∃ s ∈ ss, l ∈ s.lines
  · obtain ⟨s, hs, hl⟩ := h
    obtain ⟨s', hs', heq⟩ := exists_lines_extend l codes hs
    exact ⟨s', hs', heq ▸ hl⟩
  · refine ⟨⟨[l], union [] codes⟩, ?_, List.mem_singleton_self l⟩
    unfold extend
    rw [if_neg (by simpa using h)]
    exact List.mem_append_right _ (List.mem_singleton_self _)

theorem Describes.extended (h : Describes ss f tie) {codes : List String} {g : Int → List Directive}
    (hin : ∀ m, Group tie l m → ∀ d, d ∈ g m ↔ d ∈ f m ∨ d = .ignore codes)
    (hout : ∀ m, ¬ Group tie l m → ∀ d, d ∈ g m ↔ d ∈ f m) :
    Describes (extend l codes ss) g tie where
  tells m := by
    by_cases hg : Group tie l m
    · have hcodes (x : String) :
          (∃ d ∈ g m, x ∈ d.codes) ↔ (∃ d ∈ f m, x ∈ d.codes) ∨ x ∈ codes := by
        simp only [hin m hg, or_and_right, exists_or, exists_eq_left, Directive.codes]
      refine ⟨iff_of_true ?_ (List.ne_nil_of_mem ((hin m hg _).2 (.inr rfl))), fun s hs hm x => ?_⟩
      · obtain ⟨s, hs, hl⟩ := exists_mem_extend l codes ss
        refine ⟨s, hs, ?_⟩
        obtain ⟨s₀, hs₀, rfl⟩ | ⟨hnone, rfl⟩ := exists_of_mem_extend hs
        · rw [lines_of_ite] at hl ⊢
          exact (h.mem_iff_of_group hg hs₀).2 hl
        · exact List.mem_singleton.2 (h.eq_of_group hnone hg)
      · rw [hcodes]
        obtain ⟨s₀, hs₀, rfl⟩ | ⟨hnone, rfl⟩ := exists_of_mem_extend hs
        · rw [lines_of_ite] at hm
          rw [if_pos ((h.mem_iff_of_group hg hs₀).1 hm), mem_union, (h.tells m).codes s₀ hs₀ hm]
        · have hnil : f m = [] := by
            by_contra hne
            obtain ⟨s, hs, hms⟩ := (h.tells m).told.2 hne
            exact hnone s hs ((h.mem_iff_of_group hg hs).1 hms)
          simp [mem_union, hnil]
    · have hother {s : Silence} (hs : s ∈ extend l codes ss) (hm : m ∈ s.lines) : s ∈ ss := by
        obtain ⟨s₀, hs₀, rfl⟩ | ⟨hnone, rfl⟩ := exists_of_mem_extend hs
        · rw [lines_of_ite] at hm
          rwa [if_neg fun hl => hg (h.group_of_mem hs₀ hm hl)]
        · exact absurd (.inl (List.mem_singleton.1 hm)) hg
      refine ⟨?_, fun s hs hm => ?_⟩
      · rw [ne_nil_congr (hout m hg), ← (h.tells m).told]
        constructor
        · rintro ⟨s, hs, hm⟩
          exact ⟨s, hother hs hm, hm⟩
        · rintro ⟨s, hs, hm⟩
          obtain ⟨s', hs', heq⟩ := exists_lines_extend l codes hs
          exact ⟨s', hs', heq ▸ hm⟩
      · simp only [hout m hg]
        exact (h.tells m).codes s (hother hs hm) hm
  tied m htie s hs := by
    obtain ⟨s₀, hs₀, rfl⟩ | ⟨hnone, rfl⟩ := exists_of_mem_extend hs
    · rw [lines_of_ite]
      exact h.tied m htie s₀ hs₀
    · rw [List.mem_singleton, List.mem_singleton]
      constructor
      · rintro rfl
        have := h.eq_of_group hnone (.inr (.inr ⟨htie, rfl⟩))
        omega
      · intro hl
        have := h.eq_of_group hnone (.inr (.inl ⟨htie, hl⟩))
        omega
  untied s hs m hm m' hm' hlt := by
    obtain ⟨s₀, hs₀, rfl⟩ | ⟨hnone, rfl⟩ := exists_of_mem_extend hs
    · rw [lines_of_ite] at hm hm'
      exact h.untied s₀ hs₀ m hm m' hm' hlt
    · rw [List.mem_singleton.1 hm, List.mem_singleton.1 hm'] at hlt
      omega
  told m htie := by
    obtain ⟨d, hd⟩ := List.exists_mem_of_ne_nil _ (h.told m htie)
    by_cases hg : Group tie l m
    · exact List.ne_nil_of_mem ((hin m hg d).2 (.inl hd))
    · exact List.ne_nil_of_mem ((hout m hg d).2 hd)

end

/-! ## What counts on a line -/

/-- The first `noqa` of a line. -/
def firstNoqa (line : List Char) : List Directive := ((noqa? line).map .noqa).toList

/-- The first `ignore` of a line. -/
def firstIgnore (line : List Char) : List Directive := ((command? "ignore" line).map .ignore).toList

theorem firstNoqa_of_none (h : noqa? line = none) : firstNoqa line = [] := by
  rw [firstNoqa, h]
  rfl

theorem firstNoqa_of_some {codes : List String} (h : noqa? line = some codes) :
    firstNoqa line = [.noqa codes] := by
  rw [firstNoqa, h]
  rfl

theorem firstIgnore_of_none (h : command? "ignore" line = none) : firstIgnore line = [] := by
  rw [firstIgnore, h]
  rfl

theorem firstIgnore_of_some {codes : List String} (h : command? "ignore" line = some codes) :
    firstIgnore line = [.ignore codes] := by
  rw [firstIgnore, h]
  rfl

/-- What a line hands down to the next one. -/
def handed (line : List Char) : List Directive :=
  if isComment line then firstNoqa line ++ firstIgnore line else []

/-- What counts on a line by itself and by the line above; a `noqa` takes the place of all that
comes from above. -/
def own (text : Int → List Char) (n : Int) : List Directive :=
  (if noqa? (text n) = none then handed (text (n - 1)) else firstNoqa (text n)) ++
    firstIgnore (text n)

/-- A line shares its codes with the next one: a `noqa` is for both, and the next one has none. -/
def Tied (text : Int → List Char) (n : Int) : Prop :=
  isComment (text n) = true ∧ noqa? (text n) ≠ none ∧ noqa? (text (n + 1)) = none

instance (text : Int → List Char) (n : Int) : Decidable (Tied text n) :=
  inferInstanceAs (Decidable (_ ∧ _ ∧ _))

/-- The directives that decide what is silenced on a line. -/
def heeded (text : Int → List Char) (n : Int) : List Directive :=
  own text n ++ if Tied text n then firstIgnore (text (n + 1)) else []

/-- The directives that count on the line `m` once the lines up to `k` are read. -/
def upto (text : Int → List Char) (k m : Int) : List Directive :=
  if m < k then heeded text m else if m = k then own text m
  else if m = k + 1 then handed (text k) else []

/-- The line `m` shares its codes with the next one once the lines up to `k` are read. -/
def tieUpto (text : Int → List Char) (k m : Int) : Prop :=
  (m < k ∧ Tied text m) ∨ (m = k ∧ isComment (text m) = true ∧ noqa? (text m) ≠ none)

section
variable {text : Int → List Char} {k m : Int}

theorem upto_of_lt (h : m < k) : upto text k m = heeded text m := if_pos h

theorem upto_self : upto text k k = own text k := by simp [upto]

theorem upto_next : upto text k (k + 1) = handed (text k) := by
  rw [upto, if_neg (by omega), if_neg (by omega), if_pos rfl]

theorem upto_of_gt (h : k + 1 < m) : upto text k m = [] := by
  rw [upto, if_neg (by omega), if_neg (by omega), if_neg (by omega)]

theorem heeded_of_tied (h : Tied text k) :
    heeded text k = own text k ++ firstIgnore (text (k + 1)) := by
  rw [heeded, if_pos h]

theorem heeded_of_not_tied (h : ¬ Tied text k) : heeded text k = own text k := by
  rw [heeded, if_neg h, List.append_nil]

theorem own_of_none (hq : noqa? (text (k + 1)) = none) :
    own text (k + 1) = handed (text k) ++ firstIgnore (text (k + 1)) := by
  rw [own, if_pos hq, Int.add_sub_cancel]

theorem own_of_some {codes : List String} (hq : noqa? (text k) = some codes) :
    own text k = .noqa codes :: firstIgnore (text k) := by
  rw [own, if_neg (by simp [hq]), firstNoqa_of_some hq]
  rfl

theorem tieUpto_self : tieUpto text k k ↔ isComment (text k) = true ∧ noqa? (text k) ≠ none := by
  unfold tieUpto
  constructor
  · rintro (⟨h, -⟩ | ⟨-, h⟩)
    · omega
    · exact h
  · exact fun h => .inr ⟨rfl, h⟩

theorem tieUpto_succ_self : tieUpto text (k + 1) k ↔ Tied text k := by
  unfold tieUpto
  constructor
  · rintro (⟨-, h⟩ | ⟨h, -⟩)
    · exact h
    · omega
  · exact fun h => .inl ⟨by omega, h⟩

theorem not_tieUpto_of_gt (h : k < m) : ¬ tieUpto text k m := by
  rintro (⟨hm, -⟩ | ⟨rfl, -⟩) <;> omega

/-- A line without a `noqa` leaves the lines above it tied as they are. -/
theorem tieUpto_succ_of_none (hq : noqa? (text (k + 1)) = none) :
    tieUpto text k m ↔ tieUpto text (k + 1) m := by
  constructor
  · rintro (⟨hm, htied⟩ | ⟨rfl, hc, hn⟩)
    · exact .inl ⟨by omega, htied⟩
    · exact .inl ⟨by omega, hc, hn, hq⟩
  · rintro (⟨hm, hc, hn, hnext⟩ | ⟨rfl, -, hn⟩)
    · rcases Int.lt_or_le m k with hlt | hle
      · exact .inl ⟨hlt, hc, hn, hnext⟩
      · obtain rfl : m = k := by omega
        exact .inr ⟨rfl, hc, hn⟩
    · exact absurd hq hn

/-- The line that comes next is grouped at most with the one that has just been read. -/
theorem group_next : Group (tieUpto text k) (k + 1) m ↔
    m = k + 1 ∨ (m = k ∧ isComment (text k) = true ∧ noqa? (text k) ≠ none) := by
  unfold Group
  constructor
  · rintro (h | ⟨htie, hm⟩ | ⟨h, -⟩)
    · exact .inl h
    · obtain rfl : m = k := by omega
      exact .inr ⟨rfl, tieUpto_self.1 htie⟩
    · exact absurd h (not_tieUpto_of_gt (by omega))
  · rintro (h | ⟨rfl, h⟩)
    · exact .inl h
    · exact .inr (.inl ⟨tieUpto_self.2 h, rfl⟩)

theorem group_of_none (hq : noqa? (text (k + 1)) = none) :
    Group (tieUpto text (k + 1)) (k + 1) m ↔ m = k + 1 ∨ (m = k ∧ Tied text k) := by
  unfold Group
  rw [tieUpto_self, hq]
  constructor
  · rintro (h | ⟨htie, hm⟩ | ⟨⟨-, h⟩, -⟩)
    · exact .inl h
    · obtain rfl : m = k := by omega
      exact .inr ⟨rfl, tieUpto_succ_self.1 htie⟩
    · exact absurd rfl h
  · rintro (h | ⟨rfl, htied⟩)
    · exact .inl h
    · exact .inr (.inl ⟨tieUpto_succ_self.2 htied, rfl⟩)

/-- The lines that a `noqa` on the line `n` is for. -/
def reach (n : Int) (line : List Char) : List Int := if isComment line then [n, n + 1] else [n]

theorem mem_reach {n : Int} : m ∈ reach n line ↔ m = n ∨ (m = n + 1 ∧ isComment line = true) := by
  unfold reach
  split
  · next h => simp [h]
  · next h => simp [h]

theorem group_of_some (hq : noqa? (text (k + 1)) ≠ none) :
    Group (tieUpto text (k + 1)) (k + 1) m ↔ m ∈ reach (k + 1) (text (k + 1)) := by
  unfold Group
  rw [tieUpto_self, mem_reach]
  constructor
  · rintro (h | ⟨htie, hm⟩ | ⟨⟨h, -⟩, hm⟩)
    · exact .inl h
    · obtain rfl : m = k := by omega
      exact absurd (tieUpto_succ_self.1 htie).2.2 hq
    · exact .inr ⟨hm, h⟩
  · rintro (h | ⟨hm, h⟩)
    · exact .inl h
    · exact .inr (.inr ⟨⟨h, hq⟩, hm⟩)

end

/-! ## One more line -/

section
variable {text : Int → List Char} {k : Int} {ss : List Silence}

/-- An `ignore` on a line without a `noqa` counts on the line, and on the line above if the two are
tied. -/
theorem Describes.ignored_of_none (h : Describes ss (upto text k) (tieUpto text k))
    (hq : noqa? (text (k + 1)) = none) {codes : List String}
    (hg : command? "ignore" (text (k + 1)) = some codes) :
    Describes (extend (k + 1) codes ss) (fun m => if m = k + 2 then [] else upto text (k + 1) m)
    (tieUpto text (k + 1)) := by
  have hignore := firstIgnore_of_some hg
  have htie : tieUpto text k = tieUpto text (k + 1) :=
    funext fun m => propext (tieUpto_succ_of_none hq)
  rw [htie] at h
  refine h.extended (fun m hm d => ?_) fun m hm d => ?_
  · obtain rfl | ⟨rfl, htied⟩ := (group_of_none hq).1 hm
    · rw [if_neg (by omega), upto_self, upto_next, own_of_none hq, hignore, List.mem_append,
        List.mem_singleton]
    · rw [if_neg (by omega), upto_of_lt (by omega), upto_self, heeded_of_tied htied, hignore,
        List.mem_append, List.mem_singleton]
  · rw [group_of_none hq, not_or] at hm
    rcases Int.lt_trichotomy m k with hlt | rfl | hlt
    · rw [if_neg (by omega), upto_of_lt (by omega), upto_of_lt hlt]
    · rw [if_neg (by omega), upto_of_lt (by omega), upto_self,
        heeded_of_not_tied fun ht => hm.2 ⟨rfl, ht⟩]
    · have hgt : k + 1 < m := by omega
      rw [upto_of_gt hgt]
      split
      · rfl
      · rw [upto_of_gt (by omega)]

theorem Describes.step_of_none (h : Describes ss (upto text k) (tieUpto text k))
    (hq : noqa? (text (k + 1)) = none) :
    Describes (silencesAfter (k + 1) (text (k + 1)) ss) (upto text (k + 1))
    (tieUpto text (k + 1)) := by
  have hnoqa := firstNoqa_of_none hq
  unfold silencesAfter
  rw [hq]
  cases hg : command? "ignore" (text (k + 1)) with
  | none =>
    have hignore := firstIgnore_of_none hg
    refine h.congr (fun m d => ?_) fun m => tieUpto_succ_of_none hq
    rcases Int.lt_trichotomy m k with hlt | rfl | hlt
    · rw [upto_of_lt hlt, upto_of_lt (by omega)]
    · rw [upto_self, upto_of_lt (by omega), heeded, hignore, ite_self, List.append_nil]
    · obtain rfl | hgt : m = k + 1 ∨ k + 1 < m := by omega
      · rw [upto_next, upto_self, own_of_none hq, hignore, List.append_nil]
      · rw [upto_of_gt hgt]
        obtain rfl | hgt : m = k + 1 + 1 ∨ k + 1 + 1 < m := by omega
        · rw [upto_next, handed, hnoqa, hignore, List.append_nil, ite_self]
        · rw [upto_of_gt hgt]
  | some codes =>
    have hignore := firstIgnore_of_some hg
    have h := h.ignored_of_none hq hg
    dsimp only
    by_cases hc : isComment (text (k + 1)) = true
    · rw [if_pos hc]
      refine h.extended (fun m hm d => ?_) fun m hm d => ?_
      · obtain rfl | ⟨-, -, hn⟩ := group_next.1 hm
        · rw [upto_next, handed, if_pos hc, hnoqa, hignore, if_pos (by omega)]
          simp
        · exact absurd hq hn
      · have hne : m ≠ k + 2 := fun he => hm (group_next.2 (.inl (by omega)))
        rw [if_neg hne]
    · rw [if_neg hc]
      refine h.congr (fun m d => ?_) fun m => Iff.rfl
      split
      · next hm =>
        obtain rfl : m = k + 1 + 1 := by omega
        rw [upto_next, handed, if_neg hc]
      · rfl

/-- A `noqa` ties the lines that it is for, and cuts them off from the line above. -/
theorem Describes.noqaed (h : Describes ss (upto text k) (tieUpto text k)) {codes : List String}
    (hq : noqa? (text (k + 1)) = some codes) :
    Describes (replace (reach (k + 1) (text (k + 1))) codes ss)
    (put (reach (k + 1) (text (k + 1))) (.noqa codes) (upto text k))
      (tieUpto text (k + 1)) := by
  refine (h.replaced (fun m hm m' hm' hlt => ?_) codes).congr (fun _ _ => Iff.rfl) fun m => ?_
  · rw [mem_reach] at hm hm'
    omega
  · unfold tieAll
    rw [mem_reach, mem_reach]
    constructor
    · rintro (⟨hm, hm'⟩ | ⟨-, hm', ⟨hlt, htied⟩ | ⟨rfl, -⟩⟩)
      · obtain hm' | ⟨hm', hc⟩ := hm'
        · omega
        · obtain rfl : m = k + 1 := by omega
          exact tieUpto_self.2 ⟨hc, by simp [hq]⟩
      · exact .inl ⟨by omega, htied⟩
      · exact absurd (.inl rfl) hm'
    · rintro (⟨hm, htied⟩ | ⟨rfl, hc, -⟩)
      · obtain rfl | hlt : m = k ∨ m < k := by omega
        · rw [Tied, hq] at htied
          cases htied.2.2
        · exact .inr ⟨by omega, by omega, .inl ⟨hlt, htied⟩⟩
      · exact .inl ⟨.inl rfl, .inr ⟨rfl, hc⟩⟩

/-- What counts on the lines of a `noqa` once it is read: the `noqa` alone, and then the `ignore`
that stands beside it. -/
theorem upto_succ_of_mem_reach {codes : List String}
    (hq : noqa? (text (k + 1)) = some codes) {m : Int} (hm : m ∈ reach (k + 1) (text (k + 1))) :
    upto text (k + 1) m = put (reach (k + 1) (text (k + 1))) (.noqa codes)
    (upto text k) m ++ firstIgnore (text (k + 1)) := by
  rw [put, if_pos hm]
  obtain rfl | ⟨rfl, hc⟩ := mem_reach.1 hm
  · rw [upto_self, own_of_some hq]
    rfl
  · rw [upto_next, handed, if_pos hc, firstNoqa_of_some hq]

theorem upto_succ_of_not_mem_reach {codes : List String}
    (hq : noqa? (text (k + 1)) = some codes) {m : Int} (hm : m ∉ reach (k + 1) (text (k + 1))) :
    upto text (k + 1) m = put (reach (k + 1) (text (k + 1))) (.noqa codes) (upto text k) m := by
  have hne := mt mem_reach.2 hm
  rw [put, if_neg hm]
  rcases Int.lt_trichotomy m k with hlt | rfl | hlt
  · rw [upto_of_lt hlt, upto_of_lt (by omega)]
  · rw [upto_self, upto_of_lt (by omega), heeded_of_not_tied fun ht => absurd ht.2.2 (by simp [hq])]
  · rw [upto_of_gt (m := m) (k := k) (by omega)]
    obtain rfl | hgt : m = k + 1 + 1 ∨ k + 1 + 1 < m := by omega
    · rw [upto_next, handed, if_neg fun hc => hne (.inr ⟨rfl, hc⟩)]
    · rw [upto_of_gt hgt]

theorem Describes.step_of_some (h : Describes ss (upto text k) (tieUpto text k))
    {codes : List String} (hq : noqa? (text (k + 1)) = some codes) :
    Describes (silencesAfter (k + 1) (text (k + 1)) ss) (upto text (k + 1))
    (tieUpto text (k + 1)) := by
  have hgroup {m : Int} : Group (tieUpto text (k + 1)) (k + 1) m ↔
      m ∈ reach (k + 1) (text (k + 1)) := group_of_some (by simp [hq])
  have h := h.noqaed hq
  unfold silencesAfter
  rw [hq]
  cases hg : command? "ignore" (text (k + 1)) with
  | none =>
    have hignore := firstIgnore_of_none hg
    refine h.congr (fun m d => ?_) fun m => Iff.rfl
    by_cases hm : m ∈ reach (k + 1) (text (k + 1))
    · rw [upto_succ_of_mem_reach hq hm, hignore, List.append_nil]
    · rw [upto_succ_of_not_mem_reach hq hm]
  | some codes' =>
    have hignore := firstIgnore_of_some hg
    have honce :
        Describes (extend (k + 1) codes' (replace (reach (k + 1) (text (k + 1))) codes ss))
          (upto text (k + 1))
        (tieUpto text (k + 1)) := by
      refine h.extended (fun m hm d => ?_) fun m hm d => ?_
      · rw [upto_succ_of_mem_reach hq (hgroup.1 hm), hignore, List.mem_append, List.mem_singleton]
      · rw [upto_succ_of_not_mem_reach hq fun hr => hm (hgroup.2 hr)]
    dsimp only
    by_cases hc : isComment (text (k + 1)) = true
    · -- the codes are added once more for the next line, which shares them already
      rw [if_pos hc]
      refine honce.extended (fun m hm d => ?_) fun _ _ _ => Iff.rfl
      have hr : m ∈ reach (k + 1) (text (k + 1)) := by
        obtain rfl | ⟨rfl, -⟩ := group_next.1 hm
        · exact mem_reach.2 (.inr ⟨rfl, hc⟩)
        · exact mem_reach.2 (.inl rfl)
      rw [upto_succ_of_mem_reach hq hr, hignore, List.mem_append, List.mem_singleton,
        or_assoc, or_self]
    · rw [if_neg hc]
      exact honce

theorem Describes.step (h : Describes ss (upto text k) (tieUpto text k)) :
    Describes (silencesAfter (k + 1) (text (k + 1)) ss) (upto text (k + 1))
    (tieUpto text (k + 1)) := by
  cases hq : noqa? (text (k + 1)) with
  | none => exact h.step_of_none hq
  | some codes => exact h.step_of_some hq

end

/-! ## All lines -/

/-- The line of that number; a line that the text does not have is empty. -/
def lineAt (ls : List (List Char)) (n : Int) : List Char :=
  if n < 1 then [] else (ls[(n - 1).toNat]?).getD []

theorem lineAt_succ {all ls : List (List Char)} {k : Nat} (h : all.drop k = line :: ls) :
    lineAt all (k + 1) = line := by
  have hk : all[k]? = some line := by
    have hdrop : (all.drop k)[0]? = some line := by rw [h]; rfl
    simpa using hdrop
  rw [lineAt, if_neg (by omega), Int.add_sub_cancel, Int.toNat_natCast, hk]
  rfl

theorem lineAt_eq_nil {ls : List (List Char)} {n : Int} (h : n < 1 ∨ ls.length < n) :
    lineAt ls n = [] := by
  unfold lineAt
  split
  · rfl
  · rw [List.getElem?_eq_none (by omega)]
    rfl

section
variable {all : List (List Char)} {motive : Int → List String → Directives → Prop}

/-- What the line `k + 1` keeps, with the codes that are disabled before it and the directives that
were read. -/
def KeptBy (all : List (List Char)) (motive : Int → List String → Directives → Prop) (k : Int) :
    Prop :=
  ∀ active d, motive k active d → motive (k + 1) (disabledAfter (lineAt all (k + 1)) active)
    ⟨silencesAfter (k + 1) (lineAt all (k + 1)) d.silences, d.disabled ++ active.map (·, k + 1)⟩

theorem directivesFrom_induction (hstep : ∀ k : Nat, KeptBy all motive k) {ls : List (List Char)}
    {k : Nat} (hls : all.drop k = ls) {active : List String} {d : Directives}
    (h : motive k active d) :
    ∃ active', motive (k + ls.length : Nat) active' (directivesFrom (k + 1) active d ls) := by
  induction ls generalizing k active d with
  | nil => exact ⟨active, h⟩
  | cons line ls ih =>
    have hnext : all.drop (k + 1) = ls := by rw [← List.drop_drop, hls]; rfl
    have hkept := hstep k active d h
    rw [lineAt_succ hls] at hkept
    rw [directivesFrom, List.length_cons, ← Nat.add_assoc, Nat.add_right_comm]
    exact ih hnext hkept

/-- What holds before the first line and is kept by every line holds once all lines are read. -/
theorem directives_induction (hnil : motive 0 [] ⟨[], []⟩)
    (hstep : ∀ k : Nat, KeptBy (lines content) motive k) :
    ∃ active, motive (lines content).length active (directives content) := by
  have hrun := directivesFrom_induction hstep List.drop_zero hnil
  rwa [Nat.zero_add] at hrun

end

section
variable {text : Int → List Char} {n : Int}

theorem firstIgnore_nil : firstIgnore [] = [] := by decide

theorem handed_nil : handed [] = [] := by decide

theorem not_tied_of_nil (h : text n = []) : ¬ Tied text n := by
  rw [Tied, h]
  exact fun ht => absurd ht.1 (by decide)

/-- On an empty line only what comes from above counts. -/
theorem heeded_of_nil (h : text n = []) : heeded text n = handed (text (n - 1)) := by
  rw [heeded_of_not_tied (not_tied_of_nil h), own, h, if_pos (by decide), firstIgnore_nil,
    List.append_nil]

theorem heeded_of_next_nil (h : text (n + 1) = []) : heeded text n = own text n := by
  rw [heeded, h, firstIgnore_nil, ite_self, List.append_nil]

end

/-- Before the first line nothing is silenced. -/
theorem describes_nil (ls : List (List Char)) :
    Describes [] (upto (lineAt ls) 0) (tieUpto (lineAt ls) 0) := by
  have hnil {m : Int} (hm : m < 1) : lineAt ls m = [] := lineAt_eq_nil (.inl hm)
  have hupto (m : Int) : upto (lineAt ls) 0 m = [] := by
    unfold upto
    split
    · rw [heeded_of_nil (hnil (by omega)), hnil (by omega), handed_nil]
    · split
      · rw [own, hnil (by omega), hnil (by omega), handed_nil]
        rfl
      · split
        · rw [hnil (by omega), handed_nil]
        · rfl
  have htie (m : Int) : ¬ tieUpto (lineAt ls) 0 m := by
    rintro (⟨hm, htied⟩ | ⟨rfl, hc, -⟩)
    · exact not_tied_of_nil (hnil (by omega)) htied
    · rw [hnil (by omega)] at hc
      exact absurd hc (by decide)
  refine ⟨fun m => ⟨iff_of_false (by simp) ?_, by simp⟩, fun m hm => absurd hm (htie m), by simp,
    fun m hm => absurd hm (htie m)⟩
  rw [hupto m]
  exact fun h => h rfl

/-- The silences of a text have for each line the codes of what is heeded there. -/
theorem tellsAt_directives (content : List Char) (n : Int) :
    TellsAt (directives content).silences n (heeded (lineAt (lines content)) n) := by
  have hnil {m : Int} (hm : (lines content).length < m) : lineAt (lines content) m = [] :=
    lineAt_eq_nil (.inr hm)
  obtain ⟨-, hrun⟩ := directives_induction
    (motive := fun k _ d =>
      Describes d.silences (upto (lineAt (lines content)) k) (tieUpto (lineAt (lines content)) k))
    (describes_nil _) fun _ _ _ h => h.step
  have htells := hrun.tells n
  rcases Int.lt_trichotomy n (lines content).length with hlt | heq | hgt
  · rwa [upto_of_lt hlt] at htells
  · rw [heq, upto_self, ← heeded_of_next_nil (hnil (by omega))] at htells
    rwa [heq]
  · rw [heeded_of_nil (hnil hgt)]
    obtain rfl | hgt : n = (lines content).length + 1 ∨ (lines content).length + 1 < n := by omega
    · rw [upto_next] at htells
      rwa [Int.add_sub_cancel]
    · rw [upto_of_gt hgt] at htells
      rwa [hnil (by omega), handed_nil]

/-- What directives silence together: the codes that some of them names, and every code if none of
them names any. -/
def Silences (ds : List Directive) (code : String) : Prop :=
  (∃ d ∈ ds, code ∈ d.codes) ∨ (ds ≠ [] ∧ ∀ d ∈ ds, d.codes = [])

theorem TellsAt.silences_iff {ss : List Silence} {n : Int} (h : TellsAt ss n ds) (code : String) :
    (ss.any fun s => s.lines.contains n && (s.codes.isEmpty || s.codes.contains code)) = true ↔
      Silences ds code := by
  simp only [List.any_eq_true, Bool.and_eq_true, Bool.or_eq_true, List.contains_iff_mem,
    List.isEmpty_iff]
  constructor
  · rintro ⟨s, hs, hn, hcodes | hcode⟩
    · refine .inr ⟨h.told.1 ⟨s, hs, hn⟩, fun d hd => ?_⟩
      refine List.eq_nil_iff_forall_not_mem.2 fun x hx => ?_
      have hmem := (h.codes s hs hn x).2 ⟨d, hd, hx⟩
      rw [hcodes] at hmem
      exact List.not_mem_nil hmem
    · exact .inl ((h.codes s hs hn code).1 hcode)
  · rintro (⟨d, hd, hcode⟩ | ⟨hne, hnone⟩)
    · obtain ⟨s, hs, hn⟩ := h.told.2 (List.ne_nil_of_mem hd)
      exact ⟨s, hs, hn, .inr ((h.codes s hs hn code).2 ⟨d, hd, hcode⟩)⟩
    · obtain ⟨s, hs, hn⟩ := h.told.2 hne
      refine ⟨s, hs, hn, .inl (List.eq_nil_iff_forall_not_mem.2 fun x hx => ?_)⟩
      obtain ⟨d, hd, hx⟩ := (h.codes s hs hn x).1 hx
      rw [hnone d hd] at hx
      exact List.not_mem_nil hx

theorem silenced_iff {n : Int} {code : String} : (directives content).silenced n code = true ↔
    (code, n) ∈ (directives content).disabled ∨
      Silences (heeded (lineAt (lines content)) n) code := by
  rw [Directives.silenced, Bool.or_eq_true, (tellsAt_directives content n).silences_iff,
    List.contains_iff_mem, or_comm]

/-! ## All directives of a line -/

/-- The codes of a `noqa` that starts here. -/
def noqaAt? (cs : List Char) : Option (List String) :=
  (stripWord? "noqa".toList cs).map fun r =>
    if r.head? = some ':' then codesOf (r.tail.takeWhile isCodeChar) else []

/-- The codes of a command that starts here. -/
def commandAt? (word : String) (cs : List Char) : Option (List String) :=
  (stripWord? "mahlif:".toList cs).bind fun cs =>
    (stripWord? word.toList (cs.dropWhile isBlank)).bind fun cs =>
    if cs.head?.any isBlank && 2 ≤ (cs.takeWhile isCodeChar).length then
      some (codesOf (cs.takeWhile isCodeChar)) else none

/-- All that `read` finds after the starts of comments in a line. -/
def allInComments {α : Type} (read : List Char → Option α) (line : List Char) : List α :=
  line.tails.filterMap fun t => (stripStart? ['/', '/'] t).bind fun t => read (t.dropWhile isBlank)

/-- The directives of a line that silence complaints, those of a kind one after another. -/
def directivesOn (line : List Char) : List Directive :=
  (allInComments noqaAt? line).map .noqa ++ (allInComments (commandAt? "ignore") line).map .ignore

theorem head?_allInComments {α : Type} (read : List Char → Option α) (line : List Char) :
    (allInComments read line).head? = inComment? read line := by
  induction line with
  | nil => rfl
  | cons c r ih =>
    rw [inComment?, ← ih]
    simp only [allInComments, List.tails_cons, List.filterMap_cons]
    split
    · next h => rw [h, Option.none_or]
    · next a h => rw [h]; rfl

/-- The `noqa` that is read is the first one of its line. -/
theorem noqa?_eq_head? (line : List Char) : noqa? line = (allInComments noqaAt? line).head? := by
  rw [head?_allInComments, noqa?]
  congr 1
  funext cs
  unfold noqaAt?
  congr 1
  funext r
  split
  · simp
  · next h =>
    have hcolon : r.head? ≠ some ':' := fun hr => h r.tail (List.eq_cons_of_mem_head? hr)
    rw [if_neg hcolon]

/-- The command that is read is the first one of its line. -/
theorem command?_eq_head? (word : String) (line : List Char) :
    command? word line = (allInComments (commandAt? word) line).head? := by
  rw [head?_allInComments]
  rfl

theorem map_eq_toList_head? {α β : Type} (f : α → β) {xs : List α} (h : xs.length ≤ 1) :
    xs.map f = (xs.head?.map f).toList := by
  obtain rfl | ⟨x, rfl⟩ : xs = [] ∨ ∃ x, xs = [x] := by
    rcases Nat.le_one_iff_eq_zero_or_eq_one.1 h with h | h
    · exact .inl (List.length_eq_zero_iff.1 h)
    · exact .inr (List.length_eq_one_iff.1 h)
  · rfl
  · rfl

/-- Where no kind comes twice, the first of each kind are all. -/
theorem directivesOn_of_single
    (h : (allInComments noqaAt? line).length ≤ 1 ∧
      (allInComments (commandAt? "ignore") line).length ≤ 1) :
    directivesOn line = firstNoqa line ++ firstIgnore line := by
  rw [directivesOn, map_eq_toList_head? _ h.1, map_eq_toList_head? _ h.2, ← noqa?_eq_head?,
    ← command?_eq_head?]
  rfl

/-! ## When directives add up -/

/-- The directives that stand where they should count for a line: on it, or on a comment above
it. -/
def standing (text : Int → List Char) (n : Int) : List Directive :=
  directivesOn (text n) ++ if isComment (text (n - 1)) then directivesOn (text (n - 1)) else []

/-- A directive that covers the code stands on the line, or on a comment above it. -/
def Covered (text : Int → List Char) (n : Int) (code : String) : Prop :=
  ∃ d ∈ standing text n, d.Covers code

instance (text : Int → List Char) (n : Int) (code : String) : Decidable (Covered text n code) :=
  List.decidableBEx (fun d : Directive => d.Covers code) (standing text n)

/-- Directives add up for a code on a line: it is silenced if one of them covers it, whatever the
others say, and if none does, then only where it is disabled. -/
def AddsUp (content : List Char) (n : Int) (code : String) : Prop :=
  (Covered (lineAt (lines content)) n code → (directives content).silenced n code = true) ∧
    (¬ Covered (lineAt (lines content)) n code → (code, n) ∉ (directives content).disabled →
      (directives content).silenced n code = false)

instance (content : List Char) (n : Int) (code : String) : Decidable (AddsUp content n code) :=
  inferInstanceAs (Decidable (_ ∧ _))

/-- The directives around a line do not get into each other's way. -/
structure Undisturbed (text : Int → List Char) (n : Int) : Prop where
  /-- No line has two directives of a kind. -/
  single : ∀ line ∈ [text n, text (n - 1)],
    (allInComments noqaAt? line).length ≤ 1 ∧ (allInComments (commandAt? "ignore") line).length ≤ 1
  /-- A `noqa` has no directive above it. -/
  above : noqa? (text n) ≠ none → isComment (text (n - 1)) = true → directivesOn (text (n - 1)) = []
  /-- The next line adds nothing to the codes that it shares. -/
  below : Tied text n → command? "ignore" (text (n + 1)) = none
  /-- A directive for all codes has none beside it that names some. -/
  whole : .noqa [] ∈ standing text n → ∀ d ∈ standing text n, d.codes = []
  /-- Every `ignore` names a code. -/
  named : .ignore [] ∉ standing text n

theorem Undisturbed.mem_heeded_iff {text : Int → List Char} {n : Int} (h : Undisturbed text n)
    (d : Directive) : d ∈ heeded text n ↔ d ∈ standing text n := by
  have hbelow : (if Tied text n then firstIgnore (text (n + 1)) else []) = [] := by
    split
    · next ht => exact firstIgnore_of_none (h.below ht)
    · rfl
  rw [heeded, hbelow, List.append_nil, own, standing, directivesOn_of_single (h.single _ (by simp))]
  split
  · next hq =>
    rw [firstNoqa_of_none hq, List.nil_append, handed,
      directivesOn_of_single (h.single (text (n - 1)) (by simp)), List.mem_append,
      List.mem_append, or_comm]
  · next hq =>
    have habove : (if isComment (text (n - 1)) then directivesOn (text (n - 1)) else []) = [] := by
      split
      · next hc => exact h.above hq hc
      · rfl
    rw [habove, List.append_nil]

theorem Undisturbed.silences_iff {text : Int → List Char} {n : Int} (h : Undisturbed text n)
    (code : String) : Silences (heeded text n) code ↔ Covered text n code := by
  rw [Silences, Covered]
  simp only [h.mem_heeded_iff, ne_nil_congr h.mem_heeded_iff]
  constructor
  · rintro (⟨d, hd, hcode⟩ | ⟨hne, hnone⟩)
    · exact ⟨d, hd, .inr hcode⟩
    · obtain ⟨d, hd⟩ := List.exists_mem_of_ne_nil _ hne
      refine ⟨d, hd, .inl ?_⟩
      have hcodes := hnone d hd
      cases d with
      | noqa codes => exact congrArg Directive.noqa hcodes
      | ignore codes =>
        obtain rfl : codes = [] := hcodes
        exact absurd hd h.named
  · rintro ⟨d, hd, rfl | hcode⟩
    · exact .inr ⟨List.ne_nil_of_mem hd, h.whole hd⟩
    · exact .inl ⟨d, hd, hcode⟩

theorem addsUp_iff {n : Int} {code : String} : AddsUp content n code ↔
    (code, n) ∈ (directives content).disabled ∨
      (Silences (heeded (lineAt (lines content)) n) code ↔
        Covered (lineAt (lines content)) n code) := by
  rw [AddsUp, ← Bool.not_eq_true, silenced_iff]
  by_cases hd : (code, n) ∈ (directives content).disabled <;>
    by_cases hs : Silences (heeded (lineAt (lines content)) n) code <;>
    by_cases hc : Covered (lineAt (lines content)) n code <;> simp [hd, hs, hc]

/-- **What is silenced, and when directives add up:** a code is silenced on a line where it is
disabled and where the heeded directives silence it. So directives add up for it there if and only
if it is disabled, or the heeded directives silence it exactly if a directive that stands there
covers it. Where directives do not get into each other's way they add up. -/
theorem addsUp_iff_heeded (content : List Char) (n : Int) (code : String) :
    ((directives content).silenced n code = true ↔
      (code, n) ∈ (directives content).disabled ∨
        Silences (heeded (lineAt (lines content)) n) code) ∧
    (AddsUp content n code ↔ (code, n) ∈ (directives content).disabled ∨
      (Silences (heeded (lineAt (lines content)) n) code ↔
        Covered (lineAt (lines content)) n code)) ∧
    (Undisturbed (lineAt (lines content)) n → AddsUp content n code) :=
  ⟨silenced_iff, addsUp_iff, fun h => addsUp_iff.2 (.inr (h.silences_iff code))⟩

/-- An `ignore` on a comment and two codes on the line below it. -/
theorem addsUp_ignored_twice :
    Undisturbed (lineAt (lines "// mahlif: ignore A\nx // mahlif: ignore B, C".toList)) 2 ∧
      AddsUp "// mahlif: ignore A\nx // mahlif: ignore B, C".toList 2 "A" := by
  have h : Undisturbed (lineAt (lines "// mahlif: ignore A\nx // mahlif: ignore B, C".toList)) 2 :=
    ⟨by decide, by decide, by decide, by decide, by decide⟩
  exact ⟨h, (addsUp_iff_heeded _ _ "A").2.2 h⟩

/-- Directives that do not add up: a `noqa` below another, a `noqa` for all with an `ignore` beside
it, an `ignore` below a `noqa`, an `ignore` without codes, and two of a kind. -/
theorem not_addsUp : ¬ AddsUp "// noqa: A\nx // noqa: B".toList 2 "A" ∧
    ¬ AddsUp "x // noqa // mahlif: ignore A".toList 1 "B" ∧
    ¬ AddsUp "// noqa: A\nx // mahlif: ignore B".toList 1 "B" ∧
      ¬ AddsUp "x // mahlif: ignore ,".toList 1 "A" ∧
    ¬ AddsUp "x // noqa: A // noqa: B".toList 1 "B" := by
  decide

end Partitura.Lint
