import Partitura.Proofs.Lint.Directives

/-!
# Regions of disabled codes

A `disable` opens a region for each of the codes that it lists, and an `enable` closes it. A line
lies in a region if an earlier line disables the code, does not enable it as well, and no line
between the two enables it (`InRegion`). So a region starts on the line after its `disable` and
holds the line of its `enable`; and whether a line lies in a region of a code depends on nothing but
where the lines above list that code.

A code is disabled on exactly the lines of its regions, if of all directives of a kind on one line
the first one is taken. A second one on the same line is not read. So the regions that all
directives make are the right ones if and only if each line's directives are obeyed on the next line
(`disabled_regions`), which they are wherever none of them stands behind another of its kind.

The proof keeps account of the codes that are disabled at the moment, and of the regions up to the
line that was read (`Charted`).
-/

namespace Partitura.Lint

open Text

/-! ## Regions -/

/-- The line `n` lies in a region of the code, if the codes `off k` are disabled and the codes
`on k` enabled on each line `k`. -/
def InRegion (off on : Int → List String) (n : Int) (code : String) : Prop :=
  ∃ k < n, code ∈ off k ∧ code ∉ on k ∧ ∀ j, k < j → j < n → code ∉ on j

section
variable {off on off' on' : Int → List String} {n : Int} {code : String}

/-- A line lies in a region if the line above opens one, or lies in one itself, and does not close
it. -/
theorem inRegion_succ : InRegion off on (n + 1) code ↔ (InRegion off on n code ∨ code ∈ off n) ∧
    code ∉ on n := by
  constructor
  · rintro ⟨k, hk, hoff, hon, hbetween⟩
    obtain rfl | hlt : k = n ∨ k < n := by omega
    · exact ⟨.inr hoff, hon⟩
    · refine ⟨.inl ⟨k, hlt, hoff, hon, fun j hj hjn => ?_⟩, hbetween n hlt (by omega)⟩
      exact hbetween j hj (by omega)
  · rintro ⟨⟨k, hk, hoff, hon, hbetween⟩ | hoff, hn⟩
    · refine ⟨k, by omega, hoff, hon, fun j hj hjn => ?_⟩
      obtain rfl | hlt : j = n ∨ j < n := by omega
      · exact hn
      · exact hbetween j hj hlt
    · exact ⟨n, by omega, hoff, hn, fun j hj hjn => by omega⟩

/-- Only the lines above count, and only where they list the code. -/
theorem InRegion.mono (h : InRegion off on n code) (hoff : ∀ k < n, code ∈ off k → code ∈ off' k)
    (hon : ∀ k < n, code ∈ on' k → code ∈ on k) : InRegion off' on' n code := by
  obtain ⟨k, hk, hk', hnot, hbetween⟩ := h
  exact ⟨k, hk, hoff k hk hk', mt (hon k hk) hnot,
    fun j hj hjn => mt (hon j hjn) (hbetween j hj hjn)⟩

theorem inRegion_congr (hoff : ∀ k < n, code ∈ off k ↔ code ∈ off' k)
    (hon : ∀ k < n, code ∈ on k ↔ code ∈ on' k) :
    InRegion off on n code ↔ InRegion off' on' n code := by
  constructor
  · intro h
    exact h.mono (fun k hk => (hoff k hk).1) fun k hk => (hon k hk).2
  · intro h
    exact h.mono (fun k hk => (hoff k hk).2) fun k hk => (hon k hk).1

end

/-! ## The codes of a line -/

/-- The codes that the first command of that word lists. -/
def listedFirst (word : String) (line : List Char) : List String := (command? word line).getD []

/-- The codes that the commands of that word list, all of them together. -/
def listedOn (word : String) (line : List Char) : List String :=
  (allInComments (commandAt? word) line).flatten

theorem mem_listedOn_of_mem_listedFirst {word : String} {line : List Char} {code : String}
    (h : code ∈ listedFirst word line) : code ∈ listedOn word line := by
  rw [listedFirst, command?_eq_head?] at h
  rw [listedOn, List.mem_flatten]
  cases hall : allInComments (commandAt? word) line with
  | nil => simp [hall] at h
  | cons codes more => exact ⟨codes, List.mem_cons_self, by simpa [hall] using h⟩

theorem listedFirst_nil (word : String) : listedFirst word [] = [] := rfl

theorem listedOn_nil (word : String) : listedOn word [] = [] := rfl

/-- What a line does to the codes that are disabled: it adds those of its `disable`, and then takes
away those of its `enable`. -/
theorem mem_disabledAfter {line : List Char} {active : List String} {code : String} :
    code ∈ disabledAfter line active ↔ (code ∈ active ∨ code ∈ listedFirst "disable" line) ∧
      code ∉ listedFirst "enable" line := by
  unfold disabledAfter listedFirst
  cases command? "enable" line with
  | none => simp [mem_union]
  | some off => simp [mem_union]

/-! ## All lines -/

/-- The line lies in a region of the code that the first directives of the lines above make. -/
def InReadRegion (text : Int → List Char) : Int → String → Prop :=
  InRegion (fun k => listedFirst "disable" (text k)) fun k => listedFirst "enable" (text k)

/-- The line lies in a region of the code that all directives of the lines above make. -/
def InFullRegion (text : Int → List Char) : Int → String → Prop :=
  InRegion (fun k => listedOn "disable" (text k)) fun k => listedOn "enable" (text k)

/-- Once `k` lines are read, the codes of the regions that reach the next line are disabled, and the
regions up to here are known. -/
structure Charted (text : Int → List Char) (k : Int) (active : List String)
    (disabled : List (String × Int)) : Prop where
  active : ∀ code, code ∈ active ↔ InReadRegion text (k + 1) code
  disabled : ∀ code n, (code, n) ∈ disabled ↔ (1 ≤ n ∧ n ≤ k) ∧ InReadRegion text n code

section
variable {text : Int → List Char} {k : Int} {active : List String} {disabled : List (String × Int)}

theorem Charted.step (h : Charted text k active disabled) (hk : 0 ≤ k) :
    Charted text (k + 1) (disabledAfter (text (k + 1)) active)
    (disabled ++ active.map (·, k + 1)) where
  active code := by
    rw [mem_disabledAfter, h.active]
    exact inRegion_succ.symm
  disabled code n := by
    have hnew : (code, n) ∈ active.map (·, k + 1) ↔ n = k + 1 ∧ InReadRegion text n code := by
      rw [List.mem_map]
      constructor
      · rintro ⟨c, hc, heq⟩
        obtain ⟨rfl, rfl⟩ := Prod.mk.inj heq
        exact ⟨rfl, (h.active c).1 hc⟩
      · rintro ⟨rfl, hn⟩
        exact ⟨code, (h.active code).2 hn, rfl⟩
    rw [List.mem_append, h.disabled, hnew]
    constructor
    · rintro (⟨hn, hin⟩ | ⟨hn, hin⟩)
      · exact ⟨by omega, hin⟩
      · exact ⟨by omega, hin⟩
    · rintro ⟨hn, hin⟩
      obtain hle | heq : n ≤ k ∨ n = k + 1 := by omega
      · exact .inl ⟨⟨hn.1, hle⟩, hin⟩
      · exact .inr ⟨heq, hin⟩

end

/-- Above the first line there is no line that lists a code. -/
theorem not_inRegion_one {word word' : String} {list : String → List Char → List String}
    (hlist : ∀ w, list w [] = []) (ls : List (List Char)) (code : String) :
    ¬ InRegion (fun k => list word (lineAt ls k)) (fun k => list word' (lineAt ls k)) 1 code := by
  rintro ⟨k, hk, hoff, -, -⟩
  have hnil : list word (lineAt ls k) = [] := by rw [lineAt_eq_nil (.inl hk), hlist]
  exact List.ne_nil_of_mem hoff hnil

theorem charted_nil (ls : List (List Char)) : Charted (lineAt ls) 0 [] [] where
  active code := iff_of_false List.not_mem_nil (not_inRegion_one listedFirst_nil ls code)
  disabled code n := by
    refine iff_of_false List.not_mem_nil fun h => ?_
    have := h.1
    omega

/-- The number is that of a line. -/
def IsLine (content : List Char) (n : Int) : Prop := 1 ≤ n ∧ n ≤ (lines content).length

instance (content : List Char) (n : Int) : Decidable (IsLine content n) :=
  inferInstanceAs (Decidable (_ ∧ _))

theorem mem_disabled_iff {content : List Char} {n : Int} {code : String} :
    (code, n) ∈ (directives content).disabled ↔
      IsLine content n ∧ InReadRegion (lineAt (lines content)) n code := by
  obtain ⟨active, hrun⟩ := directives_induction
    (motive := fun k active d => Charted (lineAt (lines content)) k active d.disabled)
      (charted_nil _)
    fun k _ _ h => h.step (Int.natCast_nonneg k)
  exact hrun.disabled code n

/-! ## Regions of all directives -/

/-- The code is disabled on the line if and only if all directives together say so. -/
def ExactAt (content : List Char) (n : Int) (code : String) : Prop :=
  (code, n) ∈ (directives content).disabled ↔
    IsLine content n ∧ InFullRegion (lineAt (lines content)) n code

/-- The next line shows what a line asks for: what it enables is not disabled there, and what it
only disables is. -/
structure Obeyed (content : List Char) (k : Int) (code : String) : Prop where
  enabled : code ∈ listedOn "enable" (lineAt (lines content) k) →
    (code, k + 1) ∉ (directives content).disabled
  disabled : code ∈ listedOn "disable" (lineAt (lines content) k) →
    code ∉ listedOn "enable" (lineAt (lines content) k) →
    (code, k + 1) ∈ (directives content).disabled

section
variable {content : List Char} {code : String}

theorem obeyed_of_exactAt {k : Int} (h : ExactAt content (k + 1) code)
    (hk : IsLine content (k + 1)) : Obeyed content k code where
  enabled hon hin := absurd hon (inRegion_succ.1 (h.1 hin).2).2
  disabled hoff hon := h.2 ⟨hk, inRegion_succ.2 ⟨.inr hoff, hon⟩⟩

/-- What is not listed on a line is disabled on the next one if it is disabled on the line
itself. -/
theorem inReadRegion_iff_of_obeyed {k : Int} (hk : IsLine content (k + 1))
    (hobeyed : Obeyed content k code)
    (hread : InReadRegion (lineAt (lines content)) k code ↔
      InFullRegion (lineAt (lines content)) k code) :
    InReadRegion (lineAt (lines content)) (k + 1) code ↔ InFullRegion (lineAt (lines content))
    (k + 1) code := by
  have hmem : (code, k + 1) ∈ (directives content).disabled ↔
      InReadRegion (lineAt (lines content)) (k + 1) code :=
    mem_disabled_iff.trans (and_iff_right hk)
  by_cases hon : code ∈ listedOn "enable" (lineAt (lines content) k)
  · exact iff_of_false (fun h => hobeyed.enabled hon (hmem.2 h)) fun h => (inRegion_succ.1 h).2 hon
  · by_cases hoff : code ∈ listedOn "disable" (lineAt (lines content) k)
    · exact iff_of_true (hmem.1 (hobeyed.disabled hoff hon)) (inRegion_succ.2 ⟨.inr hoff, hon⟩)
    · have hon' := mt mem_listedOn_of_mem_listedFirst hon
      have hoff' := mt mem_listedOn_of_mem_listedFirst hoff
      unfold InReadRegion InFullRegion at hread ⊢
      rw [inRegion_succ, inRegion_succ, hread, or_iff_left hoff, or_iff_left hoff',
        and_iff_left hon, and_iff_left hon']

/-- If each line is obeyed on the next one, then the regions that are read are those of all
directives. -/
theorem inReadRegion_iff_inFullRegion (h : ∀ k, IsLine content (k + 1) → Obeyed content k code)
    {n : Nat} (hn : n + 1 ≤ (lines content).length) :
    InReadRegion (lineAt (lines content)) (n + 1) code ↔ InFullRegion (lineAt (lines content))
    (n + 1) code := by
  induction n with
  | zero =>
    exact iff_of_false (not_inRegion_one listedFirst_nil _ code)
      (not_inRegion_one listedOn_nil _ code)
  | succ n ih =>
    have hline : IsLine content ((n + 1 : Nat) + 1) := ⟨by omega, by omega⟩
    exact inReadRegion_iff_of_obeyed hline (h _ hline) (ih (by omega))

theorem exactAt_of_iff {n : Int} (h : IsLine content n →
    (InReadRegion (lineAt (lines content)) n code ↔
      InFullRegion (lineAt (lines content)) n code)) : ExactAt content n code :=
  mem_disabled_iff.trans (and_congr_right h)

theorem exactAt_iff_obeyed : (∀ n, ExactAt content n code) ↔ ∀ k, IsLine content (k + 1) →
    Obeyed content k code := by
  constructor
  · intro h k hk
    exact obeyed_of_exactAt (h (k + 1)) hk
  · intro h n
    refine exactAt_of_iff fun hn => ?_
    obtain ⟨m, rfl⟩ : ∃ m : Nat, n = m + 1 := ⟨(n - 1).toNat, by have := hn.1; omega⟩
    have hle := hn.2
    exact inReadRegion_iff_inFullRegion h (by omega)

end

/-- The directives of that word behind the first one of a line do not list the code. -/
def ListedByFirst (word : String) (code : String) (line : List Char) : Prop :=
  code ∈ listedOn word line → code ∈ listedFirst word line

instance (word : String) (code : String) (line : List Char) :
    Decidable (ListedByFirst word code line) :=
  inferInstanceAs (Decidable (_ → _))

/-- **The regions of a code.** A code is disabled on the lines of the regions that the first
`disable` and the first `enable` of each line make, and on no others. Whether it is disabled on a
line depends only on where these list it above that line: neither the line itself nor another code
matters. All directives together make the same regions if and only if each line is obeyed on the
next one; and they do up to a line if above it the code is listed by the first directive of its kind
wherever it is listed. -/
theorem disabled_regions (content : List Char) (code : String) :
    (∀ n, (code, n) ∈ (directives content).disabled ↔
      IsLine content n ∧ InReadRegion (lineAt (lines content)) n code) ∧
    (∀ content' n, IsLine content n → IsLine content' n →
      (∀ k < n, ∀ word ∈ ["disable", "enable"],
        code ∈ listedFirst word (lineAt (lines content) k) ↔
          code ∈ listedFirst word (lineAt (lines content') k)) →
      ((code, n) ∈ (directives content).disabled ↔ (code, n) ∈ (directives content').disabled)) ∧
    ((∀ n, ExactAt content n code) ↔ ∀ k, IsLine content (k + 1) → Obeyed content k code) ∧
    (∀ n, (∀ k < n, ∀ word ∈ ["disable", "enable"],
      ListedByFirst word code (lineAt (lines content) k)) →
      ExactAt content n code) := by
  refine ⟨fun n => mem_disabled_iff, fun content' n hn hn' halike => ?_, exactAt_iff_obeyed,
    fun n hfirst => ?_⟩
  · rw [mem_disabled_iff, mem_disabled_iff, and_iff_right hn, and_iff_right hn']
    exact inRegion_congr (fun k hk => halike k hk _ (by simp)) fun k hk => halike k hk _ (by simp)
  · have hiff (word : String) (hword : word ∈ ["disable", "enable"]) (k : Int) (hk : k < n) :
        code ∈ listedFirst word (lineAt (lines content) k) ↔
          code ∈ listedOn word (lineAt (lines content) k) :=
      ⟨mem_listedOn_of_mem_listedFirst, hfirst k hk word hword⟩
    exact exactAt_of_iff fun _ => inRegion_congr (hiff _ (by simp)) (hiff _ (by simp))

/-- A region that is opened on the first line and closed on the second. -/
theorem disabled_regions_closed :
    (∀ k < 3, ∀ word ∈ ["disable", "enable"],
        ListedByFirst word "A"
          (lineAt (lines "// mahlif: disable A\n// mahlif: enable A\ny".toList) k)) ∧
      ExactAt "// mahlif: disable A\n// mahlif: enable A\ny".toList 3 "A" := by
  have hfirst : ∀ k < 3, ∀ word ∈ ["disable", "enable"],
      ListedByFirst word "A"
        (lineAt (lines "// mahlif: disable A\n// mahlif: enable A\ny".toList) k) := by
    intro k hk
    by_cases hpos : 1 ≤ k
    · obtain rfl | rfl : k = 1 ∨ k = 2 := by omega
      all_goals decide
    · rw [lineAt_eq_nil (.inl (by omega))]
      decide
  exact ⟨hfirst, (disabled_regions _ _).2.2.2 3 hfirst⟩

/-- A second `disable` on a line opens no region, and a second `enable` closes none. -/
theorem not_exactAt_second :
    ¬ ExactAt "x // mahlif: disable A // mahlif: disable B\ny".toList 2 "B" ∧
      ¬ ExactAt "// mahlif: disable A, B\n// mahlif: enable A // mahlif: enable B\ny".toList 3
        "B" := by
  constructor
  · intro h
    have hregion :
        InFullRegion
          (lineAt (lines "x // mahlif: disable A // mahlif: disable B\ny".toList)) 2 "B" :=
      ⟨1, by decide, by decide, by decide, fun j hj hj' => by omega⟩
    exact absurd (h.2 ⟨by decide, hregion⟩) (by decide)
  · intro h
    have hin := h.1 (by decide)
    exact (inRegion_succ (n := 2).1 hin.2).2 (by decide)

end Partitura.Lint
