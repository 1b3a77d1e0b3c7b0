import Mathlib
import Partitura.Lint.Structure
import Partitura.Proofs.Lint.Bodies

/-!
# Members that are defined again

A member whose name an earlier one has is reported, once, with the line of the first definition
(`repeats`). The complaints come name by name and not in the order of the members, but none is
missing and none is there twice.

The head of a member is looked for from the start of a line on, and the blank lines above a member
belong to its head. So a member below blank lines is taken to stand on the first of them. The lines
in the complaints are right if and only if no member whose name is used twice has a blank line above
it (`redefinitions_page`).
-/

namespace Partitura.Lint

open ManuScript Text

variable {hs : List (String × Nat)} {atStart : Bool} {rest : List Char}

/-! ## Repeated names -/

section
variable {α β : Type}

/-- For each element whose name an earlier one has: the name, what belongs to its first use, and
what belongs to this one. The elements of `seen` come before all others. -/
def repeatedFrom (seen : List (String × α)) : List (String × α) → List (String × α × α)
  | [] => []
  | (name, x) :: hs =>
    ((seen.lookup name).map fun first => (name, first, x)).toList ++
      repeatedFrom (seen ++ [(name, x)]) hs

/-- The repeated uses of names. -/
def repeated (hs : List (String × α)) : List (String × α × α) := repeatedFrom [] hs

theorem repeatedFrom_concat (seen hs : List (String × α)) (name : String) (x : α) :
    repeatedFrom seen (hs ++ [(name, x)]) =
    repeatedFrom seen hs ++
      (((seen ++ hs).lookup name).map fun first => (name, first, x)).toList := by
  induction hs generalizing seen with
  | nil => simp [repeatedFrom]
  | cons h hs ih => simp [repeatedFrom, ih]

theorem lookup_map (f : α → β) (name : String) (hs : List (String × α)) :
    (hs.map fun h => (h.1, f h.2)).lookup name = (hs.lookup name).map f := by
  induction hs with
  | nil => rfl
  | cons h hs ih =>
    rw [List.map_cons, List.lookup_cons, List.lookup_cons, ih]
    cases name == h.1 <;> rfl

/-- Only the names decide what is repeated. -/
theorem repeated_map (f : α → β) (hs : List (String × α)) :
    repeated (hs.map fun h => (h.1, f h.2)) = (repeated hs).map fun p =>
      (p.1, f p.2.1, f p.2.2) := by
  have hfrom :
      ∀ seen, repeatedFrom (seen.map fun h => (h.1, f h.2)) (hs.map fun h => (h.1, f h.2)) =
      (repeatedFrom seen hs).map fun p => (p.1, f p.2.1, f p.2.2) := by
    induction hs with
    | nil => exact fun _ => rfl
    | cons h hs ih =>
      intro seen
      have hnext := ih (seen ++ [h])
      rw [List.map_append] at hnext
      rw [List.map_cons, repeatedFrom, repeatedFrom, List.map_append, lookup_map, ← hnext]
      cases seen.lookup h.1 <;> rfl
  exact hfrom []

theorem mem_repeatedFrom {seen hs : List (String × α)} {p : String × α × α} :
    p ∈ repeatedFrom seen hs ↔ ∃ before after, hs = before ++ (p.1, p.2.2) :: after ∧
      (seen ++ before).lookup p.1 = some p.2.1 := by
  induction hs generalizing seen with
  | nil => simp [repeatedFrom]
  | cons h hs ih =>
    obtain ⟨name, x⟩ := h
    rw [repeatedFrom, List.mem_append, ih]
    constructor
    · rintro (hp | ⟨before, after, rfl, hfirst⟩)
      · obtain ⟨first, hfirst, rfl⟩ :
            ∃ first, seen.lookup name = some first ∧ (name, first, x) = p := by simpa using hp
        exact ⟨[], hs, rfl, by simpa using hfirst⟩
      · exact ⟨(name, x) :: before, after, rfl, by simpa using hfirst⟩
    · rintro ⟨before, after, heq, hfirst⟩
      cases before with
      | nil =>
        obtain ⟨hhead, rfl⟩ := List.cons.inj heq
        obtain ⟨rfl, rfl⟩ := Prod.mk.inj hhead
        exact .inl (by simp [show seen.lookup p.1 = some p.2.1 by simpa using hfirst])
      | cons h before =>
        obtain ⟨rfl, rfl⟩ := List.cons.inj heq
        exact .inr ⟨before, after, rfl, by simpa using hfirst⟩

/-- What is repeated are uses of a name that has more than one. -/
theorem of_mem_repeated {hs : List (String × α)} {p : String × α × α} (h : p ∈ repeated hs) :
    (p.1, p.2.1) ∈ hs ∧ (p.1, p.2.2) ∈ hs ∧ 1 < (hs.map (·.1)).count p.1 := by
  obtain ⟨before, after, rfl, hfirst⟩ := mem_repeatedFrom.1 h
  obtain ⟨l, r, hbefore, -⟩ := List.lookup_eq_some_iff.1 hfirst
  rw [List.nil_append] at hbefore
  subst hbefore
  refine ⟨by simp, by simp, ?_⟩
  simp only [List.map_append, List.map_cons, List.count_append, List.count_cons_self]
  omega

/-- Every use of a name that has more than one is repeated, or is the first of them. -/
theorem exists_mem_repeated {hs : List (String × α)} {name : String} {x : α} (hmem : (name, x) ∈ hs)
    (hcount : 1 < (hs.map (·.1)).count name) : ∃ p ∈ repeated hs, p.2.1 = x ∨ p.2.2 = x := by
  obtain ⟨before, after, rfl⟩ := List.append_of_mem hmem
  cases hfirst : before.lookup name with
  | some first =>
    exact ⟨(name, first, x), mem_repeatedFrom.2 ⟨before, after, rfl, hfirst⟩, .inr rfl⟩
  | none =>
    -- this is the first use, so there is a later one
    have hbefore : name ∉ before.map (·.1) := by
      intro hname
      obtain ⟨h, hh, rfl⟩ := List.mem_map.1 hname
      simpa using List.lookup_eq_none_iff.1 hfirst h hh
    have hafter : name ∈ after.map (·.1) := by
      rw [List.map_append, List.map_cons, List.count_append, List.count_cons_self,
        List.count_eq_zero_of_not_mem hbefore] at hcount
      exact List.count_pos_iff.1 (by omega)
    obtain ⟨h, hh, rfl⟩ := List.mem_map.1 hafter
    obtain ⟨between, rest, rfl⟩ := List.append_of_mem hh
    refine ⟨(h.1, x, h.2), mem_repeatedFrom.2 ⟨before ++ (h.1, x) :: between, rest, by simp, ?_⟩,
      .inl rfl⟩
    rw [List.nil_append, List.lookup_append, hfirst, Option.none_or, List.lookup_cons_self]

end

/-- The complaints about the definitions whose names were used before, in the order of the
definitions. -/
def repeats (hs : List (String × Nat)) : List Diagnostic :=
  (repeated hs).map fun p => ⟨⟨p.2.2, 1⟩, .redefined p.1 p.2.1⟩

theorem repeats_perm_iff {ks : List (String × Nat)} :
    (repeats hs).Perm (repeats ks) ↔ (repeated hs).Perm (repeated ks) := by
  refine List.map_perm_map_iff fun p q h => ?_
  injection h with hpos hissue
  injection hpos with hline
  injection hissue with hname hfirst
  exact Prod.ext hname (Prod.ext (Int.ofNat.inj hfirst) (Int.ofNat.inj hline))

/-! ## Complaints name by name -/

theorem distinct_concat (names : List String) (name : String) :
    distinct (names ++ [name]) =
      if name ∈ distinct names then distinct names else distinct names ++ [name] := by
  simp [distinct]

theorem mem_distinct {names : List String} {name : String} :
    name ∈ distinct names ↔ name ∈ names := by
  induction names using List.reverseRecOn with
  | nil => simp [distinct]
  | append_singleton names n ih =>
    rw [distinct_concat]
    split <;> grind

theorem nodup_distinct (names : List String) : (distinct names).Nodup := by
  induction names using List.reverseRecOn with
  | nil => simp [distinct]
  | append_singleton names n ih =>
    rw [distinct_concat]
    split
    · exact ih
    · next hn => exact List.concat_eq_append ▸ ih.concat hn

/-- The complaints about one name. -/
def again (hs : List (String × Nat)) (name : String) : List Diagnostic :=
  (hs.filter (·.1 == name)).tail.map fun h => ⟨⟨h.2, 1⟩, .redefined name ((hs.lookup name).getD 0)⟩

theorem lookup_eq_head?_filter {α : Type} (hs : List (String × α)) (name : String) :
    hs.lookup name = (hs.filter (·.1 == name)).head?.map (·.2) := by
  rw [List.head?_filter]
  induction hs with
  | nil => rfl
  | cons h hs ih =>
    rw [List.lookup_cons, List.find?_cons, ih, show (name == h.1) = (h.1 == name) from BEq.comm]
    cases h.1 == name <;> rfl

theorem redefinitions_eq (content : List Char) :
    redefinitions content =
      (distinct ((heads content).map (·.1))).flatMap (again (heads content)) := by
  rw [redefinitions]
  congr 1
  funext name
  rw [again, lookup_eq_head?_filter]
  cases (heads content).filter (·.1 == name) with
  | nil => rfl
  | cons h hs => rfl

theorem again_concat_of_ne (hs : List (String × Nat)) (line : Nat) {name other : String}
    (h : other ≠ name) : again (hs ++ [(name, line)]) other = again hs other := by
  have hname : (name == other) = false := beq_false_of_ne h.symm
  have hother : (other == name) = false := beq_false_of_ne h
  simp [again, List.filter_append, List.lookup_append, List.lookup_cons, hname, hother]

theorem again_concat_of_none {name : String} (h : hs.lookup name = none) (line : Nat) :
    again (hs ++ [(name, line)]) name = [] := by
  rw [lookup_eq_head?_filter, Option.map_eq_none_iff, List.head?_eq_none_iff] at h
  simp [again, List.filter_append, h]

theorem again_concat_of_some {name : String} {first : Nat}
    (h : hs.lookup name = some first) (line : Nat) :
    again (hs ++ [(name, line)]) name = again hs name ++ [⟨⟨line, 1⟩, .redefined name first⟩] := by
  have hne : hs.filter (·.1 == name) ≠ [] := by
    intro hnil
    rw [lookup_eq_head?_filter, hnil] at h
    cases h
  simp [again, List.filter_append, List.lookup_append, h, List.tail_append_of_ne_nil hne]

/-- One group that gets one element more. -/
theorem flatMap_perm_concat {α β : Type} {l : List α} (hl : l.Nodup) {a : α} (ha : a ∈ l)
    {f g : α → List β} (hrest : ∀ b ∈ l, b ≠ a → g b = f b) {x : β} (hg : g a = f a ++ [x]) :
    (l.flatMap g).Perm (l.flatMap f ++ [x]) := by
  obtain ⟨l₁, l₂, rfl⟩ := List.append_of_mem ha
  rw [List.nodup_middle, List.nodup_cons, List.mem_append, not_or] at hl
  have h₁ : l₁.flatMap g = l₁.flatMap f :=
    List.flatMap_congr fun b hb => hrest b (by simp [hb]) (by rintro rfl; exact hl.1.1 hb)
  have h₂ : l₂.flatMap g = l₂.flatMap f :=
    List.flatMap_congr fun b hb => hrest b (by simp [hb]) (by rintro rfl; exact hl.1.2 hb)
  simp only [List.flatMap_append, List.flatMap_cons, h₁, h₂, hg, List.append_assoc]
  exact ((List.perm_append_comm).append_left _).append_left _

/-- Name by name or in the order of the definitions, the complaints are the same ones. -/
theorem flatMap_again_perm (hs : List (String × Nat)) :
    ((distinct (hs.map (·.1))).flatMap (again hs)).Perm (repeats hs) := by
  induction hs using List.reverseRecOn with
  | nil => exact .refl _
  | append_singleton hs h ih =>
    obtain ⟨name, line⟩ := h
    have hrest : ∀ other ∈ distinct (hs.map (·.1)), other ≠ name →
        again (hs ++ [(name, line)]) other = again hs other :=
      fun other _ hne => again_concat_of_ne hs line hne
    have hnew : repeats (hs ++ [(name, line)]) =
        repeats hs ++
          ((hs.lookup name).map fun first => ⟨⟨line, 1⟩, .redefined name first⟩).toList := by
      rw [repeats, repeated, repeatedFrom_concat, List.map_append, List.nil_append]
      cases hs.lookup name <;> rfl
    rw [hnew, List.map_append, List.map_singleton, distinct_concat]
    cases hfirst : hs.lookup name with
    | none =>
      have hname : name ∉ distinct (hs.map (·.1)) := by
        rw [mem_distinct, List.mem_map]
        rintro ⟨h, hh, rfl⟩
        simpa using List.lookup_eq_none_iff.1 hfirst h hh
      rw [if_neg hname, List.flatMap_append, List.flatMap_singleton, again_concat_of_none hfirst,
        List.append_nil, List.flatMap_congr fun other hother =>
          hrest other hother (by rintro rfl; exact hname hother)]
      simpa using ih
    | some first =>
      have hname : name ∈ distinct (hs.map (·.1)) := by
        obtain ⟨l, r, rfl, -⟩ := List.lookup_eq_some_iff.1 hfirst
        simp [mem_distinct]
      rw [if_pos hname]
      exact (flatMap_perm_concat (nodup_distinct _) hname hrest
        (again_concat_of_some hfirst line)).trans (ih.append_right _)

/-! ## Heads on their lines -/

section
variable {n : Nat}

theorem headsFrom_cons_of_none {c : Char} {r : List Char} (h : plainHead? (c :: r) = none) :
    headsFrom n atStart (c :: r) = headsFrom (if c = '\n' then n + 1 else n) (c == '\n') r := by
  rw [headsFrom]
  split
  · next hsome =>
    rw [h, ite_self] at hsome
    cases hsome
  · rfl

theorem headsFrom_skip {w : List Char} (hw : '\n' ∉ w) (rest : List Char) :
    headsFrom n false (w ++ '\n' :: rest) = headsFrom (n + 1) true rest := by
  induction w with
  | nil =>
    rw [List.nil_append, headsFrom]
    rfl
  | cons c w ih =>
    rw [List.mem_cons, not_or] at hw
    have hc : (c == '\n') = false := beq_false_of_ne (Ne.symm hw.1)
    rw [List.cons_append, headsFrom]
    simp [hc, Ne.symm hw.1, ih hw.2]

theorem headsFrom_head {cs name : List Char} (h : plainHead? cs = some (name, rest)) :
    headsFrom n true cs = (String.ofList name, n) ::
      headsFrom (n + lineFeeds (cs.take (cs.length - rest.length))) false rest := by
  cases cs with
  | nil => cases h
  | cons c r =>
    rw [headsFrom]
    split
    · next hsome =>
      rw [if_pos rfl, h] at hsome
      cases hsome
      rfl
    · next hnone =>
      rw [if_pos rfl, h] at hnone
      cases hnone

end

/-- A plain ASCII name. -/
def IsPlainName : List Char → Prop
  | [] => False
  | c :: r => isNameStart c = true ∧ r.all isNameChar = true

instance : (name : List Char) → Decidable (IsPlainName name)
  | [] => inferInstanceAs (Decidable False)
  | c :: r => inferInstanceAs (Decidable (isNameStart c = true ∧ r.all isNameChar = true))

theorem isNameChar_of_isNameStart {c : Char} (h : isNameStart c = true) : isNameChar c = true := by
  rw [isNameStart, Bool.or_eq_true] at h
  rw [isNameChar, Bool.or_eq_true, Char.isAlphanum, Bool.or_eq_true]
  exact h.imp .inl id

theorem IsPlainName.isNameChar {name : List Char} (h : IsPlainName name) :
    ∀ c ∈ name, isNameChar c = true := by
  cases name with
  | nil => simp
  | cons a r => exact List.forall_mem_cons.2 ⟨isNameChar_of_isNameStart h.1, List.all_eq_true.1 h.2⟩

theorem plainHead?_entry {blank : List Char} (hblank : AllBlank blank) {name : List Char}
    (hname : IsPlainName name) (tail : List Char) :
    plainHead? (blank ++ name ++ [' ', '"'] ++ tail) = some (name, tail) := by
  cases name with
  | nil => exact hname.elim
  | cons c r =>
    have hc := not_isBlank_of_isNameChar (isNameChar_of_isNameStart hname.1)
    exact head?_entry hblank hname.1 hc (List.all_eq_true.1 hname.2) (by decide) tail

/-! ## Plugins with blank lines between their members -/

/-- A line of nothing but blanks. -/
def IsBlankLine (l : List Char) : Prop := AllBlank l ∧ '\n' ∉ l

instance (l : List Char) : Decidable (IsBlankLine l) :=
  inferInstanceAs (Decidable (AllBlank l ∧ '\n' ∉ l))

/-- A member with the blank lines above it. -/
structure Spaced where
  above : List (List Char)
  indent : List Char
  entry : Entry
deriving DecidableEq, Repr

namespace Spaced

/-- A member on one line, with a plain name. The text may hold any quotes. -/
structure Valid (s : Spaced) : Prop where
  above : ∀ l ∈ s.above, IsBlankLine l
  indent : IsBlankLine s.indent
  name : IsPlainName s.entry.name
  content : '\n' ∉ s.entry.content

instance (s : Spaced) : Decidable s.Valid :=
  decidable_of_iff ((∀ l ∈ s.above, IsBlankLine l) ∧ IsBlankLine s.indent ∧
    IsPlainName s.entry.name ∧ '\n' ∉ s.entry.content)
    ⟨fun h => ⟨h.1, h.2.1, h.2.2.1, h.2.2.2⟩, fun h => ⟨h.above, h.indent, h.name, h.content⟩⟩

def name (s : Spaced) : String := String.ofList s.entry.name

/-- The line with the name. -/
def line (s : Spaced) : List Char := s.entry.text s.indent

/-- All the lines. -/
def block (s : Spaced) : List (List Char) := s.above ++ [s.line]

end Spaced

/-- A plugin file with these members, and blank lines below them. -/
def page (ss : List Spaced) (below : List (List Char)) : List Char :=
  unlines (['\x7b'] :: ss.flatMap Spaced.block ++ (below ++ [['\x7d']]))

/-- The members with the lines of their names, where the first of all lines is the `n`-th. -/
def placed (n : Nat) : List Spaced → List (Spaced × Nat)
  | [] => []
  | s :: ss => (s, n + s.above.length) :: placed (n + s.above.length + 1) ss

/-- The names of a page, each with the line on which it stands. -/
def nameLines (ss : List Spaced) : List (String × Nat) := (placed 2 ss).map fun x => (x.1.name, x.2)

/-- The names of a page, each with the first of the blank lines above it if there are any. -/
def startLines (ss : List Spaced) : List (String × Nat) :=
  (placed 2 ss).map fun x => (x.1.name, x.2 - x.1.above.length)

variable {ss : List Spaced} {x : Spaced × Nat}

@[simp] theorem map_fst_placed (n : Nat) (ss : List Spaced) : (placed n ss).map (·.1) = ss := by
  induction ss generalizing n with
  | nil => rfl
  | cons s ss ih => rw [placed, List.map_cons, ih]

theorem IsPlainName.not_mem_newline {name : List Char} (h : IsPlainName name) : '\n' ∉ name :=
  fun hmem => absurd (h.isNameChar _ hmem) (by decide)

namespace Spaced.Valid

variable {s : Spaced} (h : s.Valid)
include h

theorem not_mem_line : '\n' ∉ s.line := by
  simp [line, Entry.text, h.indent.2, h.name.not_mem_newline, h.content]

theorem not_mem_block : ∀ l ∈ s.block, '\n' ∉ l := by
  intro l hl
  rcases List.mem_append.1 hl with hl | hl
  · exact (h.above l hl).2
  · rw [List.mem_singleton.1 hl]
    exact h.not_mem_line

end Spaced.Valid

theorem getElem?_placed {n : Nat} (tail : List (List Char)) (hx : x ∈ placed n ss) :
    n + x.1.above.length ≤ x.2 ∧ (ss.flatMap Spaced.block ++ tail)[x.2 - n]? = some x.1.line := by
  induction ss generalizing n with
  | nil => cases hx
  | cons s ss ih =>
    rcases List.mem_cons.1 hx with rfl | hx
    · simp [Spaced.block]
    · obtain ⟨hle, hline⟩ := ih hx
      refine ⟨by omega, ?_⟩
      rw [List.flatMap_cons, List.append_assoc,
        List.getElem?_append_right (by simp [Spaced.block]; omega), ← hline]
      congr 1
      simp [Spaced.block]
      omega

theorem allBlank_flatMap_newline {ls : List (List Char)} (h : ∀ l ∈ ls, IsBlankLine l) :
    AllBlank (ls.flatMap (· ++ ['\n'])) := by
  intro c hc
  obtain ⟨l, hl, hc⟩ := List.mem_flatMap.1 hc
  rcases List.mem_append.1 hc with hc | hc
  · exact (h l hl).1 c hc
  · rw [List.mem_singleton.1 hc]
    decide

theorem lineFeeds_append (a b : List Char) : lineFeeds (a ++ b) = lineFeeds a + lineFeeds b :=
  List.countP_append

theorem lineFeeds_of_not_mem {l : List Char} (h : '\n' ∉ l) : lineFeeds l = 0 :=
  List.countP_eq_zero.2 fun _ hc hnew => h (eq_of_beq hnew ▸ hc)

theorem lineFeeds_flatMap_newline {ls : List (List Char)} (h : ∀ l ∈ ls, '\n' ∉ l) :
    lineFeeds (ls.flatMap (· ++ ['\n'])) = ls.length := by
  induction ls with
  | nil => rfl
  | cons l ls ih =>
    rw [List.forall_mem_cons] at h
    rw [List.flatMap_cons, lineFeeds_append, lineFeeds_append, lineFeeds_of_not_mem h.1, ih h.2,
      List.length_cons]
    exact Nat.add_comm ..

/-- The head of a member is found on the first of the blank lines above it, and the search goes on
below the member. -/
theorem headsFrom_block {s : Spaced} (h : s.Valid) (n : Nat) (rest : List Char) :
    headsFrom n true (s.block.flatMap (· ++ ['\n']) ++ rest) =
      (s.name, n) :: headsFrom (n + s.above.length + 1) true rest := by
  have hblank : AllBlank (s.above.flatMap (· ++ ['\n']) ++ s.indent) :=
    allBlank_append.2 ⟨allBlank_flatMap_newline h.above, h.indent.1⟩
  have htext :
      s.block.flatMap (· ++ ['\n']) ++ rest =
        (s.above.flatMap (· ++ ['\n']) ++ s.indent) ++ s.entry.name ++ [' ', '"'] ++
      ((s.entry.content ++ ['"']) ++ '\n' :: rest) := by
    simp [Spaced.block, Spaced.line, Entry.text]
  have hfeeds :
      lineFeeds ((s.above.flatMap (· ++ ['\n']) ++ s.indent) ++ s.entry.name ++ [' ', '"']) =
        s.above.length := by
    rw [lineFeeds_append, lineFeeds_append, lineFeeds_append,
      lineFeeds_flatMap_newline fun l hl => (h.above l hl).2, lineFeeds_of_not_mem h.indent.2,
      lineFeeds_of_not_mem h.name.not_mem_newline]
    rfl
  rw [htext, headsFrom_head (plainHead?_entry hblank h.name _), List.length_append,
    Nat.add_sub_cancel, List.take_left, hfeeds, headsFrom_skip (by simp [h.content])]
  rfl

theorem headsFrom_blocks (h : ∀ s ∈ ss, s.Valid) (n : Nat) (rest : List Char) :
    headsFrom n true ((ss.flatMap Spaced.block).flatMap (· ++ ['\n']) ++ rest) =
      ((placed n ss).map fun x => (x.1.name, x.2 - x.1.above.length)) ++
        headsFrom (n + (ss.flatMap Spaced.block).length) true rest := by
  induction ss generalizing n with
  | nil => rfl
  | cons s ss ih =>
    rw [List.forall_mem_cons] at h
    rw [List.flatMap_cons, List.flatMap_append, List.append_assoc, headsFrom_block h.1, ih h.2,
      placed, List.map_cons, Nat.add_sub_cancel, List.cons_append, List.length_append]
    simp [Spaced.block, Nat.add_assoc]

theorem headsFrom_of_allBlank {n : Nat} {cs : List Char} (h : AllBlank cs) :
    headsFrom n atStart cs = [] := by
  induction cs generalizing n atStart with
  | nil => rw [headsFrom]
  | cons c r ih =>
    rw [headsFrom_cons_of_none (head?_of_allBlank h)]
    exact ih fun x hx => h x (List.mem_cons_of_mem _ hx)

theorem headsFrom_brace {n : Nat} {blank : List Char} (hblank : AllBlank blank)
    (hrest : AllBlank rest) : headsFrom n atStart (blank ++ '\x7d' :: rest) = [] := by
  induction blank generalizing n atStart with
  | nil =>
    rw [List.nil_append,
      headsFrom_cons_of_none (head?_append_cons allBlank_nil (by decide) (by decide) rest)]
    exact headsFrom_of_allBlank hrest
  | cons c blank ih =>
    have hnone : plainHead? (c :: (blank ++ '\x7d' :: rest)) = none :=
      head?_append_cons hblank (by decide) (by decide) rest
    rw [List.cons_append, headsFrom_cons_of_none hnone]
    exact ih fun x hx => hblank x (List.mem_cons_of_mem _ hx)

theorem headsFrom_open (n : Nat) (rest : List Char) :
    headsFrom n true ('\x7b' :: '\n' :: rest) = headsFrom (n + 1) true rest := by
  have hnone : plainHead? ('\x7b' :: '\n' :: rest) = none :=
    head?_append_cons allBlank_nil (by decide) (by decide) _
  rw [headsFrom_cons_of_none hnone]
  exact headsFrom_skip List.not_mem_nil rest

theorem heads_page (hss : ∀ s ∈ ss, s.Valid) {below : List (List Char)}
    (hbelow : ∀ l ∈ below, IsBlankLine l) (hrest : AllBlank rest) :
    heads (page ss below ++ rest) = startLines ss := by
  have htext :
      page ss below ++ rest = '\x7b' :: '\n' :: ((ss.flatMap Spaced.block).flatMap (· ++ ['\n']) ++
      (below.flatMap (· ++ ['\n']) ++ '\x7d' :: rest)) := by
    rw [page, List.cons_append, unlines_cons (by simp), unlines_append_eq _ (by simp),
      unlines_append_eq _ (by simp)]
    simp
  rw [heads, htext, headsFrom_open, headsFrom_blocks hss,
    headsFrom_brace (allBlank_flatMap_newline hbelow) hrest, List.append_nil]
  rfl

theorem getElem?_lines_page (hss : ∀ s ∈ ss, s.Valid) {below : List (List Char)}
    (hbelow : ∀ l ∈ below, IsBlankLine l) (rest : List Char) (hx : x ∈ placed 2 ss) :
    (lines (page ss below ++ rest))[x.2 - 1]? = some x.1.line := by
  have hlines : lines (page ss below ++ rest) =
      ['\x7b'] :: (ss.flatMap Spaced.block ++ (below ++ lines ('\x7d' :: rest))) := by
    rw [page, ← List.append_assoc, unlines_concat_append, lines_unlines (by simp),
      List.flatMap_append, flatMap_lines_of_not_mem]
    · simp
    · simp only [List.mem_append, List.mem_cons, List.mem_flatMap]
      rintro l ((rfl | ⟨s, hs, hl⟩) | hl)
      · decide
      · exact (hss s hs).not_mem_block l hl
      · exact (hbelow l hl).2
  obtain ⟨hle, hline⟩ := getElem?_placed (below ++ lines ('\x7d' :: rest)) hx
  rw [hlines, show x.2 - 1 = x.2 - 2 + 1 by omega, List.getElem?_cons_succ, hline]

/-! ## The lines of the complaints -/

/-- Numbers that do not get smaller and have the same sum stay what they are. -/
theorem eq_of_sum_map_eq {α : Type} {l : List α} {f g : α → Nat} (hle : ∀ x ∈ l, f x ≤ g x)
    (hsum : (l.map f).sum = (l.map g).sum) : ∀ x ∈ l, f x = g x := by
  intro x hx
  by_contra hne
  have hlt := List.sum_lt_sum f g hle ⟨x, hx, Nat.lt_of_le_of_ne (hle x hx) hne⟩
  exact Nat.ne_of_lt hlt hsum

/-- The members of a page with their lines, under their names. -/
def members (ss : List Spaced) : List (String × Spaced × Nat) :=
  (placed 2 ss).map fun x => (x.1.name, x)

theorem map_fst_members (ss : List Spaced) : (members ss).map (·.1) = ss.map (·.name) := by
  rw [members, List.map_map, ← map_fst_placed 2 ss, List.map_map, map_fst_placed]
  rfl

theorem repeated_startLines (ss : List Spaced) : repeated (startLines ss) =
    (repeated (members ss)).map fun p =>
      (p.1, p.2.1.2 - p.2.1.1.above.length, p.2.2.2 - p.2.2.1.above.length) := by
  rw [← repeated_map fun x : Spaced × Nat => x.2 - x.1.above.length, members, List.map_map]
  rfl

theorem repeated_nameLines (ss : List Spaced) :
    repeated (nameLines ss) = (repeated (members ss)).map fun p => (p.1, p.2.1.2, p.2.2.2) := by
  rw [← repeated_map fun x : Spaced × Nat => x.2, members, List.map_map]
  rfl

theorem of_mem_members {name : String} (h : (name, x) ∈ members ss) :
    x.1 ∈ ss ∧ x.1.name = name ∧ x.1.above.length ≤ x.2 := by
  obtain ⟨y, hy, heq⟩ := List.mem_map.1 h
  obtain ⟨rfl, rfl⟩ := Prod.mk.inj heq
  have hplace := (getElem?_placed [] hy).1
  exact ⟨map_fst_placed 2 ss ▸ List.mem_map_of_mem hy, rfl, by omega⟩

/-- The lines are right where no member with a repeated name has a blank line above it, and there
only. -/
theorem repeated_perm_iff (ss : List Spaced) :
    (repeated (startLines ss)).Perm (repeated (nameLines ss)) ↔
    ∀ s ∈ ss, 1 < (ss.map (·.name)).count s.name → s.above = [] := by
  rw [repeated_startLines, repeated_nameLines, ← map_fst_members]
  constructor
  · intro hperm s hs hcount
    -- no line is too large, so all are right as soon as their sum is
    have hsum := (hperm.map fun q => q.2.1 + q.2.2).sum_nat
    rw [List.map_map, List.map_map] at hsum
    have hsame := eq_of_sum_map_eq (fun p _ => Nat.add_le_add (Nat.sub_le ..) (Nat.sub_le ..)) hsum
    obtain ⟨x, hx, rfl⟩ := List.mem_map.1 (map_fst_placed 2 ss ▸ hs)
    have hmem : (x.1.name, x) ∈ members ss := List.mem_map.2 ⟨x, hx, rfl⟩
    obtain ⟨p, hp, hpx⟩ := exists_mem_repeated hmem hcount
    obtain ⟨hfirst, hthis, -⟩ := of_mem_repeated hp
    have hfirst := (of_mem_members hfirst).2.2
    have hthis := (of_mem_members hthis).2.2
    have hp := hsame p hp
    rw [← List.length_eq_zero_iff]
    rcases hpx with rfl | rfl <;> omega
  · intro h
    refine .of_eq (List.map_congr_left fun p hp => ?_)
    obtain ⟨hfirst, hthis, hcount⟩ := of_mem_repeated hp
    obtain ⟨hfirst, hname, -⟩ := of_mem_members hfirst
    obtain ⟨hthis, hname', -⟩ := of_mem_members hthis
    rw [h _ hfirst (hname ▸ hcount), h _ hthis (hname' ▸ hcount)]
    rfl

/-- Every member whose name an earlier one has is reported once. The line of a member in the reports
is the first of the blank lines above it, so the lines are those of the names if and only if the
members with repeated names have no blank line above them. -/
theorem redefinitions_page {ss : List Spaced} (hss : ∀ s ∈ ss, s.Valid) {below : List (List Char)}
    (hbelow : ∀ l ∈ below, IsBlankLine l) {rest : List Char} (hrest : AllBlank rest) :
    (∀ x ∈ placed 2 ss, (lines (page ss below ++ rest))[x.2 - 1]? = some x.1.line) ∧
      (redefinitions (page ss below ++ rest)).Perm (repeats (startLines ss)) ∧
      ((redefinitions (page ss below ++ rest)).Perm (repeats (nameLines ss)) ↔
        ∀ s ∈ ss, 1 < (ss.map (·.name)).count s.name → s.above = []) := by
  have hreported : (redefinitions (page ss below ++ rest)).Perm (repeats (startLines ss)) := by
    rw [redefinitions_eq, heads_page hss hbelow hrest]
    exact flatMap_again_perm (startLines ss)
  refine ⟨fun x hx => getElem?_lines_page hss hbelow rest hx, hreported, ?_⟩
  rw [← repeated_perm_iff, ← repeats_perm_iff]
  exact ⟨hreported.symm.trans, hreported.trans⟩

/-- Blank lines above a member with a name of its own do no harm. -/
theorem redefinitions_page_single :
    (redefinitions
      (page [⟨[], [], ⟨['A'], ['x']⟩⟩, ⟨[[' ']], ['\t'], ⟨['B'], []⟩⟩, ⟨[], [], ⟨['A'], ['y']⟩⟩]
    [[]] ++ ['\n'])).Perm [⟨⟨5, 1⟩, .redefined "A" 2⟩] :=
  (redefinitions_page (by decide) (by decide) (by decide)).2.2.2 (by decide)

/-- The second definition stands on the fourth line and is reported on the third. -/
theorem redefined_below_blank_line :
    page [⟨[], [], ⟨['A'], ['x']⟩⟩, ⟨[[]], [], ⟨['A'], ['y']⟩⟩]
    [] = "\x7b\nA \"x\"\n\nA \"y\"\n\x7d".toList ∧
      nameLines [⟨[], [], ⟨['A'], ['x']⟩⟩, ⟨[[]], [], ⟨['A'], ['y']⟩⟩] = [("A", 2), ("A", 4)] ∧
      redefinitions "\x7b\nA \"x\"\n\nA \"y\"\n\x7d".toList = [⟨⟨3, 1⟩, .redefined "A" 2⟩] ∧
      ¬(redefinitions "\x7b\nA \"x\"\n\nA \"y\"\n\x7d".toList).Perm
        (repeats [("A", 2), ("A", 4)]) := by
  decide +kernel

end Partitura.Lint
