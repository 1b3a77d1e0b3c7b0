import Mathlib.Data.List.Nodup
import Partitura.Proofs.ManuScript.Places
import Partitura.Proofs.ManuScript.Roles

/-!
# Undefined and unused names

Which names of a program are told to be undefined or unused, by the roles of its tokens.

A name is told to be undefined where it stands as an operand and has no value (`Occurrence.Unset`).
Values come from the targets of assignments and from loops, and count from their token on, whatever
blocks lie between. This is exact for programs without `nested` names
(`undefined_at_unset_operands`).

A name is told to be unused if it is `Lonely`: it is told as a target and stands nowhere else. One
would expect the `Unread` names, which may be targets as often as they like and nothing else. The
two differ in two ways and in no other (`unused_at_lonely_targets`): a second assignment to a name
counts as its use, and a nested name counts as a target.

Both follow from what the analysis knows after a prefix of the tokens (`known`): the names with a
value (`mem_locals_known`), the first assignments (`assignments_known`) and the names that count as
used (`mem_used_known`).
-/

namespace Partitura.ManuScript

open Grammar Reader

/-! ## Occurrences -/

/-- A token of a program with its role and what stands before and after it. -/
structure Occurrence where
  before : List (Token × Role)
  token : Token
  role : Role
  after : List (Token × Role)

/-- The occurrences of marked tokens that stand behind others. -/
def occurrencesAfter (before : List (Token × Role)) : List (Token × Role) → List Occurrence
  | [] => []
  | m :: ms => ⟨before, m.1, m.2, ms⟩ :: occurrencesAfter (before ++ [m]) ms

/-- The occurrences of the tokens of a program. -/
def Grammar.Tree.occurrences (a : Tree .statements) : List Occurrence :=
  occurrencesAfter [] (a.marked false)

/-- The token of an occurrence with its role. -/
def Occurrence.mark (o : Occurrence) : Token × Role := (o.token, o.role)

theorem map_mark_occurrencesAfter (before ms : List (Token × Role)) :
    (occurrencesAfter before ms).map Occurrence.mark = ms := by
  induction ms generalizing before with
  | nil => rfl
  | cons m ms ih => rw [occurrencesAfter, List.map_cons, ih]; rfl

/-- Marked tokens are chosen by choosing their occurrences. -/
theorem filter_marked (q : Token × Role → Bool) (ms : List (Token × Role)) :
    ms.filter q = ((occurrencesAfter [] ms).filter fun o => q o.mark).map Occurrence.mark := by
  conv_lhs => rw [← map_mark_occurrencesAfter [] ms, List.filter_map]
  rfl

theorem eq_of_mem_occurrencesAfter {before ms : List (Token × Role)} {o : Occurrence}
    (h : o ∈ occurrencesAfter before ms) : before ++ ms = o.before ++ o.mark :: o.after := by
  induction ms generalizing before with
  | nil => cases h
  | cons m ms ih =>
    rcases List.mem_cons.1 h with rfl | h
    · rfl
    · rw [← ih h, List.append_assoc, List.singleton_append]

/-- A name in the place of an operand that has no value yet and is no name of a callee or an
object. -/
def Occurrence.Unset (env : Surroundings) (o : Occurrence) : Prop :=
  o.role.isOperand = true ∧ o.token.text ∉ env.defined ∧
    env.language.isGlobal o.token.text = false ∧ kindAt (o.after.map Prod.fst) ∉ [.lparen, .dot] ∧
    ∀ m ∈ o.before ++ [(o.token, o.role)], m.2.defines = true → m.1.text ≠ o.token.text

instance (env : Surroundings) : DecidablePred (Occurrence.Unset env) := fun _ => instDecidableAnd

/-- A name that is told as a target and stands nowhere else as an operand or the variable of a
loop. -/
def Occurrence.Lonely (env : Surroundings) (o : Occurrence) : Prop :=
  o.role.assigns = true ∧ o.token.text ∉ env.defined ∧
    ∀ m ∈ o.before ++ o.after, m.2.isOperand = true ∨ m.2 = .loop → m.1.text ≠ o.token.text

instance (env : Surroundings) : DecidablePred (Occurrence.Lonely env) := fun _ => instDecidableAnd

/-- The first target of a name that stands nowhere as the variable of a loop or as an operand other
than a target. -/
def Occurrence.Unread (env : Surroundings) (o : Occurrence) : Prop :=
  o.role = .target ∧ o.token.text ∉ env.defined ∧
    (∀ m ∈ o.before, m.2 = .target → m.1.text ≠ o.token.text) ∧
    ∀ m ∈ o.before ++ o.after, m.2 = .loop ∨ m.2.isOperand = true ∧ m.2 ≠ .target →
      m.1.text ≠ o.token.text

instance (env : Surroundings) : DecidablePred (Occurrence.Unread env) := fun _ => instDecidableAnd

/-! ## What the analysis keeps about names -/

/-- What a state knows about names. -/
def Scope.naming (s : Scope) : List String × List Token × List String :=
  (s.locals, s.assignments, s.used)

section Naming

variable {env : Surroundings} {s s' : Scope} {e : Event} {p : Diagnostic → Bool}

theorem naming_next_of_isCourse (h : e.isCourse = true) (s : Scope) :
    (s.next e).naming = s.naming := by
  cases e with
  | statement =>
    simp only [Scope.next]
    split <;> rfl
  | closed =>
    simp only [Scope.next]
    split <;> rfl
  | returned | opened => rfl
  | issue | assigned | bound | read | called | accessed => cases h

/-- What is known about names after an event depends on what was known about them before. -/
theorem naming_next (h : e.isCourse = false) (hs : s.naming = s'.naming) :
    (s.next e).naming = (s'.next e).naming := by
  simp only [Scope.naming, Prod.mk.injEq] at hs
  obtain ⟨hlocals, hassignments, hused⟩ := hs
  have hfirst (name : String) : s.firstAssignment? name = s'.firstAssignment? name := by
    rw [Scope.firstAssignment?, hassignments]
    rfl
  cases e with
  | assigned t => simp [Scope.next, Scope.naming, *]
  | bound name => simp [Scope.next, Scope.naming, *]
  | read t qualified =>
    simp only [Scope.next, hfirst]
    split <;> simp [Scope.naming, *]
  | issue | called | accessed => simp [Scope.next, Scope.naming, *]
  | statement | returned | opened | closed => cases h

theorem complaints_congr (h : e.isCourse = false) (hs : s.naming = s'.naming) :
    env.complaints s e = env.complaints s' e := by
  simp only [Scope.naming, Prod.mk.injEq] at hs
  cases e with
  | assigned t | read t qualified => rw [Surroundings.complaints, hs.1]; rfl
  | bound | issue | called | accessed => rfl
  | statement | returned | opened | closed => cases h

/-- The course of a body does not matter for its names. -/
theorem naming_foldl_names (hs : s.naming = s'.naming) (es : List Event) :
    (es.foldl Scope.next s).naming = ((names es).foldl Scope.next s').naming := by
  induction es generalizing s s' with
  | nil => exact hs
  | cons e es ih =>
    cases h : e.isCourse with
    | true =>
      rw [names, List.filter_cons_of_neg (by simp [h])]
      exact ih ((naming_next_of_isCourse h s).trans hs)
    | false =>
      rw [names, List.filter_cons_of_pos (by simp [h])]
      exact ih (naming_next h hs)

theorem filter_along_names (hp : ∀ pos, p ⟨pos, .unreachable⟩ = false) (hs : s.naming = s'.naming)
    (es : List Event) : (env.along s es).filter p = (env.along s' (names es)).filter p := by
  induction es generalizing s s' with
  | nil => rfl
  | cons e es ih =>
    cases h : e.isCourse with
    | true =>
      have hnone : (env.complaints s e).filter p = [] := by
        cases e with
        | statement pos =>
          simp only [Surroundings.complaints]
          split <;> simp [hp]
        | returned | opened | closed => rfl
        | issue | assigned | bound | read | called | accessed => cases h
      rw [names, List.filter_cons_of_neg (by simp [h]), Surroundings.along, List.filter_append,
        hnone, List.nil_append]
      exact ih ((naming_next_of_isCourse h s).trans hs)
    | false =>
      rw [names, List.filter_cons_of_pos (by simp [h]), Surroundings.along, Surroundings.along,
        List.filter_append, List.filter_append, complaints_congr h hs, ih (naming_next h hs)]
      rfl

end Naming

/-- What is known after a marked token. -/
def Scope.take (s : Scope) (m : Token × Role) : Scope := (m.2.tells m.1 .fin).foldl Scope.next s

/-- What is known after marked tokens from the start of a body. -/
def known (ms : List (Token × Role)) : Scope := ms.foldl Scope.take {}

section Known

variable {m : Token × Role} {ms : List (Token × Role)}

/-- What follows a token does not matter for what is known after it. -/
theorem foldl_tells (m : Token × Role) (k : Kind) (s : Scope) :
    (m.2.tells m.1 k).foldl Scope.next s = s.take m := by
  obtain ⟨t, ρ⟩ := m
  cases ρ <;> rfl

theorem foldl_told (rest : List Token) (ms : List (Token × Role)) (s : Scope) :
    (told rest ms).foldl Scope.next s = ms.foldl Scope.take s := by
  induction ms generalizing s with
  | nil => rfl
  | cons m ms ih => rw [told, List.foldl_append, foldl_tells, ih, List.foldl_cons]

theorem known_concat (ms : List (Token × Role)) (m : Token × Role) :
    known (ms ++ [m]) = (known ms).take m := by
  rw [known, List.foldl_concat]
  rfl

section Fields

variable (s : Scope) (t : Token) (k : Kind) (name : String)

@[simp] theorem locals_assigned : (s.next (.assigned t)).locals = t.text :: s.locals := rfl

@[simp] theorem assignments_assigned :
    (s.next (.assigned t)).assignments = if (s.firstAssignment? t.text).isSome then s.assignments
      else s.assignments ++ [t] := rfl

@[simp] theorem used_assigned : (s.next (.assigned t)).used = s.used := rfl

@[simp] theorem locals_bound : (s.next (.bound name)).locals = name :: s.locals := rfl

@[simp] theorem assignments_bound : (s.next (.bound name)).assignments = s.assignments := rfl

@[simp] theorem used_bound : (s.next (.bound name)).used = name :: s.used := rfl

@[simp] theorem locals_mentioned : (s.next (mentioned t k)).locals = s.locals := by
  simp only [mentioned, Scope.next]
  split <;> rfl

@[simp] theorem assignments_mentioned : (s.next (mentioned t k)).assignments = s.assignments := by
  simp only [mentioned, Scope.next]
  split <;> rfl

@[simp] theorem used_mentioned :
    (s.next (mentioned t k)).used =
      if s.firstAssignment? t.text = some t then s.used else t.text :: s.used := by
  simp only [mentioned, Scope.next]
  split <;> rfl

@[simp] theorem firstAssignment?_mentioned :
    (s.next (mentioned t k)).firstAssignment? name = s.firstAssignment? name := by
  rw [Scope.firstAssignment?, assignments_mentioned]
  rfl

end Fields

theorem locals_take (s : Scope) (m : Token × Role) :
    (s.take m).locals = if m.2.binds then m.1.text :: s.locals else s.locals := by
  obtain ⟨t, ρ⟩ := m
  cases ρ <;> simp [Scope.take, Role.tells, Role.binds]

/-- Of the assignments to a name the first is kept. -/
theorem assignments_take (s : Scope) (m : Token × Role) :
    (s.take m).assignments =
      if m.2.assigns = true ∧ s.firstAssignment? m.1.text = none then s.assignments ++ [m.1]
      else s.assignments := by
  obtain ⟨t, ρ⟩ := m
  cases h : s.firstAssignment? t.text <;> cases ρ <;> simp [Scope.take, Role.tells, Role.assigns, h]

/-- A name is used by a loop, and by an operand that is not its first assignment. -/
theorem used_take (s : Scope) (m : Token × Role) :
    (s.take m).used =
      if m.2 = .loop ∨ m.2.isOperand = true ∧ (s.take m).firstAssignment? m.1.text ≠ some m.1 then
        m.1.text :: s.used
      else s.used := by
  obtain ⟨t, ρ⟩ := m
  cases ρ <;> simp [Scope.take, Role.tells, Role.isOperand]

/-- The names with a value are those of targets and loops. -/
theorem mem_locals_known {name : String} :
    name ∈ (known ms).locals ↔ ∃ m ∈ ms, m.2.binds = true ∧ m.1.text = name := by
  induction ms using List.reverseRecOn with
  | nil => simp [known]
  | append_singleton ms m ih =>
    simp only [known_concat, locals_take, List.mem_append, List.mem_singleton, or_and_right,
      exists_or, exists_eq_left, ← ih]
    cases h : m.2.binds with
    | false => simp
    | true => simp [or_comm, eq_comm]

end Known

/-! ## Undefined names -/

/-- A complaint that a name may be undefined. -/
def Issue.isUndefined : Issue → Bool
  | .undefinedVariable _ => true
  | _ => false

/-- A complaint that a name is never used. -/
def Issue.isUnused : Issue → Bool
  | .unusedVariable _ => true
  | _ => false

theorem Issue.code_beq_undefined (i : Issue) : (i.code == "MS-W020") = i.isUndefined := by
  rw [Bool.eq_iff_iff, beq_iff_eq, Issue.code_eq_undefined]
  cases i <;> simp [isUndefined]

theorem Issue.code_beq_unused (i : Issue) : (i.code == "MS-W025") = i.isUnused := by
  rw [Bool.eq_iff_iff, beq_iff_eq, Issue.code_eq_unused]
  cases i <;> simp [isUnused]

theorem Issue.isConclusion_of_isUnused (i : Issue) (h : i.isUnused = true) :
    i.isConclusion = true := by
  unfold isUnused at h
  split at h
  · rfl
  · cases h

theorem Issue.isConclusion_of_isUndefined (i : Issue) (h : i.isUndefined = true) :
    i.isConclusion = true := by
  unfold isUndefined at h
  split at h
  · rfl
  · cases h

section Undefined

variable {env : Surroundings} {before ms : List (Token × Role)} {t : Token} {ρ : Role}

/-- A name has a value if it was a target or the variable of a loop. -/
theorem mem_locals_known_of_not_nested {name : String} (h : ∀ m ∈ ms, m.2 ≠ .nested) :
    name ∈ (known ms).locals ↔ ∃ m ∈ ms, m.2.defines = true ∧ m.1.text = name := by
  have hdefines (ρ : Role) (hρ : ρ ≠ .nested) : ρ.binds = ρ.defines := by
    cases ρ with
    | nested => exact absurd rfl hρ
    | operand | target | loop | other => rfl
  rw [mem_locals_known]
  exact exists_congr fun m => and_congr_right fun hm => by rw [hdefines m.2 (h m hm)]

/-- An operand without a value is complained about, unless it is defined outside or the name of a
callee or an object. -/
theorem complaints_mentioned (s : Scope) (k : Kind) :
    env.complaints s (mentioned t k) =
      if t.text ∉ env.defined ∧ env.language.isGlobal t.text = false ∧ k ∉ [.lparen, .dot] ∧
        t.text ∉ s.locals
      then [⟨t.pos, .undefinedVariable t.text⟩] else [] := by
  simp only [mentioned, Surroundings.complaints]
  rw [← ite_not]
  refine if_congr ?_ rfl rfl
  simp only [Bool.or_eq_true, beq_iff_eq, List.contains_iff_mem, List.mem_cons, List.not_mem_nil,
    or_false, not_or, Bool.not_eq_true]
  tauto

/-- Of a target it is told at most that it hides a parameter. -/
theorem filter_complaints_assigned {p : Diagnostic → Bool}
    (hp : ∀ pos name, p ⟨pos, .shadowsParameter name⟩ = false) (s : Scope) (t : Token) :
    (env.complaints s (.assigned t)).filter p = [] := by
  simp only [Surroundings.complaints]
  split
  · rw [List.filter_cons_of_neg (by simp [hp]), List.filter_nil]
  · rfl

/-- A token is complained about if it is unset. -/
theorem filter_along_tells (hbefore : ∀ m ∈ before, m.2 ≠ .nested) (hρ : ρ ≠ .nested) :
    (env.along (known before) (ρ.tells t (kindAt (ms.map Prod.fst)))).filter (·.issue.isUndefined) =
      if Occurrence.Unset env ⟨before, t, ρ, ms⟩ then [⟨t.pos, .undefinedVariable t.text⟩]
      else [] := by
  cases ρ with
  | operand =>
    simp only [Role.tells, Surroundings.along, List.append_nil, complaints_mentioned,
      mem_locals_known_of_not_nested hbefore]
    have hunset : Occurrence.Unset env ⟨before, t, .operand, ms⟩ ↔
        t.text ∉ env.defined ∧ env.language.isGlobal t.text = false ∧
        kindAt (ms.map Prod.fst) ∉ [.lparen, .dot] ∧ ¬ ∃ m ∈ before, m.2.defines = true ∧
          m.1.text = t.text := by
      have hoperand : Role.operand.defines = false := rfl
      simp [Occurrence.Unset, Role.isOperand, or_imp, forall_and, hoperand]
    rw [if_congr hunset rfl rfl]
    split <;> rfl
  | target =>
    have hset : ¬ Occurrence.Unset env ⟨before, t, .target, ms⟩ :=
      fun h => h.2.2.2.2 (t, .target) (by simp) rfl rfl
    simp [Role.tells, Surroundings.along, complaints_mentioned, hset, filter_complaints_assigned,
      Issue.isUndefined]
  | loop =>
    simp [Role.tells, Surroundings.along, Surroundings.complaints, Occurrence.Unset, Role.isOperand]
  | other => simp [Role.tells, Surroundings.along, Occurrence.Unset, Role.isOperand]
  | nested => exact absurd rfl hρ

/-- The complaints along marked tokens are about those that are unset. -/
theorem filter_along_told (hbefore : ∀ m ∈ before, m.2 ≠ .nested) (hms : ∀ m ∈ ms, m.2 ≠ .nested) :
    (env.along (known before) (told [] ms)).filter (·.issue.isUndefined) =
      ((occurrencesAfter before ms).filter (·.Unset env)).map fun o =>
        ⟨o.token.pos, .undefinedVariable o.token.text⟩ := by
  induction ms generalizing before with
  | nil => rfl
  | cons m ms ih =>
    rw [List.forall_mem_cons] at hms
    have hmore : ∀ k ∈ before ++ [m], k.2 ≠ .nested :=
      List.forall_mem_append.2 ⟨hbefore, List.forall_mem_singleton.2 hms.1⟩
    rw [told, List.append_nil, env.along_append, List.filter_append,
      filter_along_tells hbefore hms.1, foldl_tells, ← known_concat, ih hmore hms.2,
      occurrencesAfter, List.filter_cons]
    by_cases h : Occurrence.Unset env ⟨before, m.1, m.2, ms⟩ <;> simp [h]

end Undefined

/-- **Names are told to be undefined where they are read without a value.** In a program where no
name is nested, the complaints that a name may be undefined are one for each unset operand, at its
place and in the order of the tokens. -/
theorem undefined_at_unset_operands (env : Surroundings) (fin : Position) (a : Tree .statements)
    (h : ∀ m ∈ a.marked false, m.2 ≠ .nested) :
    (checkTokens env fin a.tokens).filter (·.code == "MS-W020") =
      (a.occurrences.filter (·.Unset env)).map fun o =>
        ⟨o.token.pos, .undefinedVariable o.token.text⟩ := by
  have hcode (d : Diagnostic) : (d.code == "MS-W020") = d.issue.isUndefined :=
    d.issue.code_beq_undefined
  have hunused (s : Scope) : (env.unused s).filter (·.issue.isUndefined) = [] := by
    refine List.filter_eq_nil_iff.2 fun d hd => ?_
    obtain ⟨t, -, rfl⟩ := List.mem_map.1 hd
    simp [Issue.isUndefined]
  have hstart : ∀ m ∈ ([] : List (Token × Role)), m.2 ≠ .nested :=
    fun _ hm => absurd hm List.not_mem_nil
  rw [List.filter_congr fun d _ => hcode d,
    filter_checkTokens fun d => d.issue.isConclusion_of_isUndefined, env.analyse_eq_along,
    List.filter_append, hunused, List.append_nil,
    filter_along_names (fun _ => rfl) rfl, a.names_tells]
  exact filter_along_told hstart h

/-- The surroundings of a body that stands alone. -/
def alone : Surroundings := ⟨⟨[], [], []⟩, [], []⟩

/-- A chain as an operand of a comparison. -/
def asOperand (a : Tree .chain) : Tree (.expression 3) :=
  .operand (by decide) (.operand (by decide) (.link a))

/-- The expression `x = v` from a column on, where both sides have one character. -/
def equationAt (column : Int) (x : String) (k : Kind) (v : String) (hk : k ∈ atoms) :
    Tree (.expression 0) :=
  .operand (by decide) (.operand (by decide) (.operation
    (.operand (by decide) (asOperand (.atom ⟨⟨.identifier, x, ⟨1, column⟩⟩, by simp [atoms]⟩)))
    ⟨⟨.assign, "=", ⟨1, column + 2⟩⟩, by simp [operators]⟩
    (asOperand (.atom ⟨⟨k, v, ⟨1, column + 4⟩⟩, hk⟩))))

/-- The statement `x = v;` from a column on, where both sides have one character. -/
def assignmentAt (column : Int) (x : String) (k : Kind) (v : String) (hk : k ∈ atoms) :
    Tree .statement :=
  .simple (equationAt column x k v hk) ⟨⟨.semicolon, ";", ⟨1, column + 5⟩⟩, rfl⟩

/-- Two statements. -/
def twoStatements (a b : Tree .statement) : Tree .statements :=
  .nextStatement a (.nextStatement b .noStatement)

/-- The program `x = y; y = x;`. -/
def swapped : Tree .statements :=
  twoStatements (assignmentAt 1 "x" .identifier "y" (by decide))
    (assignmentAt 8 "y" .identifier "x" (by decide))

/-- A name is undefined before its assignment and not behind it. -/
theorem undefined_in_swapped : (∀ m ∈ swapped.marked false, m.2 ≠ .nested) ∧
    (checkTokens alone ⟨1, 14⟩ swapped.tokens).filter (·.code == "MS-W020") =
      [⟨⟨1, 5⟩, .undefinedVariable "y"⟩] := by
  have h : ∀ m ∈ swapped.marked false, m.2 ≠ .nested := by decide
  refine ⟨h, ?_⟩
  rw [undefined_at_unset_operands alone ⟨1, 14⟩ swapped h]
  decide +kernel

/-! ## Unused names -/

/-- The first assignment to a name among marked tokens. -/
def firstTarget? (ms : List (Token × Role)) (name : String) : Option Token :=
  ((ms.filter (·.2.assigns)).map Prod.fst).find? (·.text == name)

section Unused

variable {env : Surroundings} {ms : List (Token × Role)} {m : Token × Role} {name : String}
  {o : Occurrence}

theorem firstTarget?_concat (ms : List (Token × Role)) (m : Token × Role) (name : String) :
    firstTarget? (ms ++ [m]) name =
      (firstTarget? ms name).or
        (if m.2.assigns = true ∧ m.1.text = name then some m.1 else none) := by
  unfold firstTarget?
  rw [List.filter_append, List.map_append, List.find?_append]
  cases h : m.2.assigns <;> simp [List.find?_singleton, h]

theorem exists_of_firstTarget? {t : Token} (h : firstTarget? ms name = some t) :
    ∃ m ∈ ms, m.2.assigns = true ∧ m.1 = t ∧ t.text = name := by
  obtain ⟨m, hm, rfl⟩ := List.mem_map.1 (List.mem_of_find?_eq_some h)
  obtain ⟨hms, hassigns⟩ := List.mem_filter.1 hm
  exact ⟨m, hms, hassigns, rfl, by simpa using List.find?_some h⟩

theorem firstTarget?_ne_none (hm : m ∈ ms) (hassigns : m.2.assigns = true) :
    firstTarget? ms m.1.text ≠ none := by
  intro h
  have hmem : m.1 ∈ (ms.filter (·.2.assigns)).map Prod.fst :=
    List.mem_map_of_mem (List.mem_filter.2 ⟨hm, hassigns⟩)
  simpa using List.find?_eq_none.1 h m.1 hmem

/-- A token further on is not the first assignment to a name that has one. -/
theorem firstTarget?_concat_eq_some {t : Token} (ht : t ≠ m.1) :
    firstTarget? (ms ++ [m]) name = some t ↔ firstTarget? ms name = some t := by
  rw [firstTarget?_concat]
  cases firstTarget? ms name with
  | some x => simp
  | none =>
    simp only [Option.none_or]
    split
    · simpa using ht.symm
    · rfl

theorem firstAssignment?_known (ms : List (Token × Role)) (name : String) :
    (known ms).firstAssignment? name = firstTarget? ms name := by
  induction ms using List.reverseRecOn generalizing name with
  | nil => rfl
  | append_singleton ms m ih =>
    have hbefore : (known ms).assignments.find? (·.text == name) = firstTarget? ms name := ih name
    rw [firstTarget?_concat, known_concat, Scope.firstAssignment?, assignments_take, ih]
    split
    case isTrue h => simp [List.find?_append, List.find?_singleton, hbefore, h.1]
    case isFalse h =>
      rw [hbefore]
      split
      case isTrue hm =>
        -- the name has an assignment, for otherwise this one would be kept
        cases hfirst : firstTarget? ms name with
        | some t => rfl
        | none => exact absurd ⟨hm.1, hm.2 ▸ hfirst⟩ h
      case isFalse => exact (Option.or_none).symm

theorem nodup_of_concat (h : ((ms ++ [m]).map Prod.fst).Nodup) :
    (ms.map Prod.fst).Nodup ∧ ∀ k ∈ ms, k.1 ≠ m.1 := by
  rw [List.map_append, List.map_singleton, ← List.concat_eq_append, List.nodup_concat] at h
  exact ⟨h.2, fun k hk heq => h.1 (heq ▸ List.mem_map_of_mem hk)⟩

/-- The names that count as used are those of loops, and those that stand as operands elsewhere than
in their first assignment. -/
theorem mem_used_known (h : (ms.map Prod.fst).Nodup) :
    name ∈ (known ms).used ↔
      ∃ m ∈ ms, m.1.text = name ∧
        (m.2 = .loop ∨ m.2.isOperand = true ∧ firstTarget? ms name ≠ some m.1) := by
  induction ms using List.reverseRecOn with
  | nil => simp [known]
  | append_singleton ms m ih =>
    obtain ⟨hms, hm⟩ := nodup_of_concat h
    have hbefore : name ∈ (known ms).used ↔
        ∃ k ∈ ms, k.1.text = name ∧
          (k.2 = .loop ∨ k.2.isOperand = true ∧ firstTarget? (ms ++ [m]) name ≠ some k.1) := by
      rw [ih hms]
      refine exists_congr fun k => and_congr_right fun hk => ?_
      rw [ne_eq, ne_eq, firstTarget?_concat_eq_some (hm k hk)]
    have hlast : name ∈ (known (ms ++ [m])).used ↔ name ∈ (known ms).used ∨
        m.1.text = name ∧
          (m.2 = .loop ∨ m.2.isOperand = true ∧ firstTarget? (ms ++ [m]) name ≠ some m.1) := by
      rw [known_concat, used_take, ← known_concat, firstAssignment?_known]
      split
      case isTrue hused =>
        rw [List.mem_cons, or_comm]
        exact or_congr_right ⟨fun heq => ⟨heq.symm, heq ▸ hused⟩, fun heq => heq.1.symm⟩
      case isFalse hused =>
        refine (or_iff_left ?_).symm
        rintro ⟨rfl, hused'⟩
        exact hused hused'
    rw [hlast, hbefore]
    simp [or_and_right, exists_or]

/-- The assignments that are kept are the first ones. -/
theorem assignments_known (h : (ms.map Prod.fst).Nodup) :
    (known ms).assignments =
      (ms.filter fun m => m.2.assigns && firstTarget? ms m.1.text == some m.1).map Prod.fst := by
  induction ms using List.reverseRecOn with
  | nil => rfl
  | append_singleton ms m ih =>
    obtain ⟨hms, hm⟩ := nodup_of_concat h
    have hbefore :
        (ms.filter fun k => k.2.assigns && firstTarget? (ms ++ [m]) k.1.text == some k.1) =
        ms.filter fun k => k.2.assigns && firstTarget? ms k.1.text == some k.1 := by
      refine List.filter_congr fun k hk => ?_
      rw [Bool.eq_iff_iff]
      simp [firstTarget?_concat_eq_some (hm k hk)]
    have hlast (hassigns : m.2.assigns = true) :
        firstTarget? (ms ++ [m]) m.1.text = some m.1 ↔ firstTarget? ms m.1.text = none := by
      rw [firstTarget?_concat, if_pos ⟨hassigns, rfl⟩]
      cases hfirst : firstTarget? ms m.1.text with
      | none => simp
      | some t =>
        obtain ⟨k, hk, -, rfl, -⟩ := exists_of_firstTarget? hfirst
        simpa using hm k hk
    rw [known_concat, assignments_take, firstAssignment?_known, ih hms, List.filter_append,
      List.map_append, hbefore]
    cases hassigns : m.2.assigns with
    | false => simp [hassigns]
    | true =>
      by_cases hfirst : firstTarget? ms m.1.text = none <;> simp [hassigns, hlast hassigns, hfirst]

/-- What stands around an occurrence are the other tokens. -/
theorem mem_around (h : (ms.map Prod.fst).Nodup) (ho : o ∈ occurrencesAfter [] ms) :
    m ∈ o.before ++ o.after ↔ m ∈ ms ∧ m.1 ≠ o.token := by
  have hms : ms = o.before ++ o.mark :: o.after := eq_of_mem_occurrencesAfter ho
  rw [hms, List.map_append, List.map_cons, List.nodup_middle, List.nodup_cons, ← List.map_append]
    at h
  rw [hms]
  refine ⟨fun hm => ⟨?_, ?_⟩, fun ⟨hm, hne⟩ => ?_⟩
  · exact (List.perm_middle.mem_iff).2 (List.mem_cons_of_mem _ hm)
  · exact fun heq => h.1 (List.mem_map.2 ⟨m, hm, heq⟩)
  · exact (List.mem_cons.1 (List.perm_middle.mem_iff.1 hm)).resolve_left fun heq => hne (heq ▸ rfl)

/-- A lonely name is assigned once and not used, as far as the analysis knows. -/
theorem lonely_iff (h : (ms.map Prod.fst).Nodup) (ho : o ∈ occurrencesAfter [] ms) :
    o.Lonely env ↔ (o.token.text ∉ (known ms).used ∧ o.token.text ∉ env.defined) ∧
      o.role.assigns = true ∧ firstTarget? ms o.token.text = some o.token := by
  have hmem : o.mark ∈ ms := by
    rw [← map_mark_occurrencesAfter [] ms]
    exact List.mem_map_of_mem ho
  rw [mem_used_known h]
  constructor
  · rintro ⟨hassigns, hdefined, hothers⟩
    have hfirst : firstTarget? ms o.token.text = some o.token := by
      obtain ⟨t, ht⟩ := Option.ne_none_iff_exists'.1 (firstTarget?_ne_none hmem hassigns)
      obtain ⟨k, hk, hkassigns, rfl, htext⟩ := exists_of_firstTarget? ht
      by_contra hne
      have haround : k ∈ o.before ++ o.after :=
        (mem_around h ho).2 ⟨hk, fun heq => hne (ht.trans (congrArg some heq))⟩
      exact hothers k haround (.inl (Role.isOperand_of_assigns hkassigns)) htext
    refine ⟨⟨?_, hdefined⟩, hassigns, hfirst⟩
    rintro ⟨k, hk, htext, hused⟩
    by_cases heq : k.1 = o.token
    · obtain rfl : k = o.mark := List.inj_on_of_nodup_map h hk hmem heq
      rcases hused with hloop | ⟨-, hne⟩
      · rw [show o.role = .loop from hloop] at hassigns
        cases hassigns
      · exact hne hfirst
    · exact hothers k ((mem_around h ho).2 ⟨hk, heq⟩) (hused.symm.imp_left And.left) htext
  · rintro ⟨⟨hused, hdefined⟩, hassigns, hfirst⟩
    refine ⟨hassigns, hdefined, fun m hm hname heq => hused ?_⟩
    obtain ⟨hms, hne⟩ := (mem_around h ho).1 hm
    refine ⟨m, hms, heq, hname.symm.imp_right fun hoperand => ⟨hoperand, fun hsome => hne ?_⟩⟩
    rw [hfirst] at hsome
    exact (Option.some.inj hsome).symm

/-- The complaints about unused names are about the lonely ones. -/
theorem unused_known (env : Surroundings) (h : (ms.map Prod.fst).Nodup) :
    env.unused (known ms) =
      ((occurrencesAfter [] ms).filter (·.Lonely env)).map fun o =>
        ⟨o.token.pos, .unusedVariable o.token.text⟩ := by
  have hlonely :
      (occurrencesAfter [] ms).filter (·.Lonely env) = (occurrencesAfter [] ms).filter fun o =>
      (!(known ms).used.contains o.mark.1.text && !env.defined.contains o.mark.1.text) &&
        (o.mark.2.assigns && firstTarget? ms o.mark.1.text == some o.mark.1) := by
    refine List.filter_congr fun o ho => ?_
    rw [Bool.eq_iff_iff, decide_eq_true_iff, lonely_iff h ho]
    simp [Occurrence.mark]
  rw [Surroundings.unused, assignments_known h, List.filter_map, List.filter_filter, filter_marked,
    List.map_map, List.map_map, hlonely]
  rfl

/-- Along the way no name is told to be unused. -/
theorem filter_along_told_unused (env : Surroundings) (s : Scope) (rest : List Token)
    (ms : List (Token × Role)) : (env.along s (told rest ms)).filter (·.issue.isUnused) = [] := by
  have hassigned (s : Scope) (t : Token) :
      (env.complaints s (.assigned t)).filter (·.issue.isUnused) = [] :=
    filter_complaints_assigned (fun _ _ => rfl) s t
  have hmentioned (s : Scope) (t : Token) (k : Kind) :
      (env.complaints s (mentioned t k)).filter (·.issue.isUnused) = [] := by
    rw [complaints_mentioned]
    split <;> rfl
  induction ms generalizing s with
  | nil => rfl
  | cons m ms ih =>
    rw [told, env.along_append, List.filter_append, ih, List.append_nil]
    obtain ⟨t, ρ⟩ := m
    cases ρ with
    | operand | target | nested =>
      simp only [Role.tells, Surroundings.along, List.filter_append, hassigned, hmentioned,
        List.append_nil]
    | loop | other => rfl

theorem unused_eq_of_naming {s s' : Scope} (h : s.naming = s'.naming) :
    env.unused s = env.unused s' := by
  simp only [Scope.naming, Prod.mk.injEq] at h
  rw [Surroundings.unused, h.2.1, h.2.2]
  rfl

theorem filter_unused (env : Surroundings) (s : Scope) :
    (env.unused s).filter (·.issue.isUnused) = env.unused s := by
  refine List.filter_eq_self.2 fun d hd => ?_
  obtain ⟨t, -, rfl⟩ := List.mem_map.1 hd
  rfl

/-- No issue with characters is about a name. -/
theorem filter_issues_unused (p : Position) (body : String) :
    (lexBody p body).issues.filter (·.issue.isUnused) = [] := by
  refine List.filter_eq_nil_iff.2 fun d hd => ?_
  obtain ⟨x, -, hx⟩ := List.mem_filterMap.1 hd
  unfold Lexer.issue? at hx
  split at hx <;> cases hx <;> simp [Issue.isUnused]

/-- The names of a program that are told to be unused are the lonely ones. -/
theorem filter_checkTokens_unused (env : Surroundings) (fin : Position) {a : Tree .statements}
    (h : a.tokens.Nodup) : (checkTokens env fin a.tokens).filter (·.issue.isUnused) =
      (a.occurrences.filter (·.Lonely env)).map fun o =>
        ⟨o.token.pos, .unusedVariable o.token.text⟩ := by
  rw [← a.map_fst_marked false] at h
  have hnames :
      ((a.tells false []).foldl Scope.next {}).naming = (known (a.marked false)).naming := by
    rw [naming_foldl_names rfl, a.names_tells, foldl_told]
    rfl
  rw [filter_checkTokens fun d => d.issue.isConclusion_of_isUnused, env.analyse_eq_along,
    List.filter_append, filter_along_names (fun _ => rfl) rfl, a.names_tells,
    filter_along_told_unused, List.nil_append, filter_unused, unused_eq_of_naming hnames,
    unused_known env h]
  rfl

theorem Occurrence.Lonely.unread (h : o.Lonely env) (hrole : o.role ≠ .nested) : o.Unread env := by
  obtain ⟨hassigns, hdefined, hothers⟩ := h
  have htarget : o.role = .target := by
    cases hr : o.role with
    | target => rfl
    | nested => exact absurd hr hrole
    | operand | loop | other => rw [hr] at hassigns; cases hassigns
  refine ⟨htarget, hdefined, fun m hm hm' => ?_,
    fun m hm hm' => hothers m hm (hm'.symm.imp_left And.left)⟩
  exact hothers m (List.mem_append_left _ hm) (.inl (by rw [hm']; rfl))

theorem Occurrence.Unread.lonely (h : o.Unread env)
    (hafter : ∀ m ∈ o.after, m.2 = .target → m.1.text ≠ o.token.text) : o.Lonely env := by
  obtain ⟨htarget, hdefined, hbefore, hothers⟩ := h
  refine ⟨by rw [htarget]; rfl, hdefined, fun m hm hname => ?_⟩
  by_cases hm' : m.2 = .target
  · exact (List.mem_append.1 hm).elim (fun hm => hbefore m hm hm') (fun hm => hafter m hm hm')
  · exact hothers m hm (hname.symm.imp_right fun hoperand => ⟨hoperand, hm'⟩)

/-- A name that is lonely is unread and the other way round, unless it is assigned again or
nested. -/
theorem lonely_iff_unread :
    (o.Lonely env ↔ o.Unread env) ↔
      (o.Unread env → ∀ m ∈ o.after, m.2 = .target → m.1.text ≠ o.token.text) ∧
        (o.Lonely env → o.role ≠ .nested) := by
  refine ⟨fun h => ⟨fun hunread m hm hm' => ?_, fun hlonely => ?_⟩,
    fun h => ⟨fun hlonely => ?_, fun hunread => ?_⟩⟩
  · exact (h.2 hunread).2.2 m (List.mem_append_right _ hm) (.inl (by rw [hm']; rfl))
  · rw [(h.1 hlonely).1]
    decide
  · exact hlonely.unread (h.2 hlonely)
  · exact hunread.lonely (h.1 hunread)

/-- Two choices from a list look the same only if they are the same, as long as different members
look different. -/
theorem map_filter_eq_iff {α β : Type} {f : α → β} {l : List α} {q r : α → Bool}
    (hf : (l.map f).Nodup) : (l.filter q).map f = (l.filter r).map f ↔ ∀ x ∈ l, q x = r x := by
  refine ⟨fun h x hx => ?_, fun h => by rw [List.filter_congr h]⟩
  have hchosen (q : α → Bool) : f x ∈ (l.filter q).map f ↔ q x = true := by
    rw [List.mem_map]
    refine ⟨fun ⟨y, hy, hyx⟩ => ?_, fun hq => ⟨x, List.mem_filter.2 ⟨hx, hq⟩, rfl⟩⟩
    obtain ⟨hy, hq⟩ := List.mem_filter.1 hy
    rwa [List.inj_on_of_nodup_map hf hy hx hyx] at hq
  rw [Bool.eq_iff_iff, ← hchosen q, ← hchosen r, h]

end Unused

/-- **Names are told to be unused where they are assigned and stand nowhere else.** These are the
first targets of the names that are never read just if no such name is assigned again and no nested
name is lonely. -/
theorem unused_at_lonely_targets {p : Position} {body : String} {a : Tree .statements}
    (h : (lexBody p body).tokens = a.tokens) (env : Surroundings) :
    (checkBody env p body).filter (·.code == "MS-W025") =
        (a.occurrences.filter (·.Lonely env)).map
          (fun o => ⟨o.token.pos, .unusedVariable o.token.text⟩) ∧
      ((checkBody env p body).filter (·.code == "MS-W025") =
          (a.occurrences.filter (·.Unread env)).map
            (fun o => ⟨o.token.pos, .unusedVariable o.token.text⟩) ↔
        ∀ o ∈ a.occurrences,
          (o.Unread env → ∀ m ∈ o.after, m.2 = .target → m.1.text ≠ o.token.text) ∧
          (o.Lonely env → o.role ≠ .nested)) := by
  have hcode (d : Diagnostic) : (d.code == "MS-W025") = d.issue.isUnused := d.issue.code_beq_unused
  have hplaces : (a.tokens.map Token.pos).Nodup := by
    rw [← h]
    exact (nodup_places .body p body.toList).of_append_left
  have hlonely : (checkBody env p body).filter (·.code == "MS-W025") =
      (a.occurrences.filter (·.Lonely env)).map
        (fun o => ⟨o.token.pos, .unusedVariable o.token.text⟩) := by
    rw [List.filter_congr fun d _ => hcode d, checkBody, List.filter_append, filter_issues_unused,
      List.nil_append, h, filter_checkTokens_unused env _ hplaces.of_map]
  have hdifferent :
      (a.occurrences.map fun o =>
        (⟨o.token.pos, .unusedVariable o.token.text⟩ : Diagnostic)).Nodup := by
    refine List.Nodup.of_map Diagnostic.pos ?_
    rw [← a.map_fst_marked false, ← map_mark_occurrencesAfter [] (a.marked false), List.map_map,
      List.map_map] at hplaces
    rw [List.map_map]
    exact hplaces
  refine ⟨hlonely, ?_⟩
  rw [hlonely, map_filter_eq_iff hdifferent]
  refine forall₂_congr fun o _ => ?_
  rw [decide_eq_decide, lonely_iff_unread]

/-- The program `x = 1; y = x;`. -/
def passedOn : Tree .statements :=
  twoStatements (assignmentAt 1 "x" .number "1" (by decide))
    (assignmentAt 8 "y" .identifier "x" (by decide))

theorem unused_in_passedOn : (lexBody ⟨1, 1⟩ "x = 1; y = x;").tokens = passedOn.tokens ∧
    (checkBody alone ⟨1, 1⟩ "x = 1; y = x;").filter (·.code == "MS-W025") =
      [⟨⟨1, 8⟩, .unusedVariable "y"⟩] := by
  have h : (lexBody ⟨1, 1⟩ "x = 1; y = x;").tokens = passedOn.tokens := by decide +kernel
  refine ⟨h, ?_⟩
  rw [(unused_at_lonely_targets h alone).1]
  decide +kernel

/-- The program `x = 1; x = 2;`. -/
def overwritten : Tree .statements :=
  twoStatements (assignmentAt 1 "x" .number "1" (by decide))
    (assignmentAt 8 "x" .number "2" (by decide))

/-- The program `f(x = 1);`. -/
def compared : Tree .statements :=
  .nextStatement
    (.simple (.operand (by decide) (.operand (by decide) (.operand (by decide) (asOperand
    (.call (.atom ⟨⟨.identifier, "f", ⟨1, 1⟩⟩, by decide⟩) ⟨⟨.lparen, "(", ⟨1, 2⟩⟩, rfl⟩
      (.firstArgument (equationAt 3 "x" .number "1" (by decide)) .lastArgument)
        ⟨⟨.rparen, ")", ⟨1, 8⟩⟩, rfl⟩)))))
    ⟨⟨.semicolon, ";", ⟨1, 9⟩⟩, rfl⟩) .noStatement

/-- A name that is only ever assigned is not told to be unused if it is assigned twice, and a name
that is only compared is told to be unused. -/
theorem unused_ne_unread :
    ((lexBody ⟨1, 1⟩ "x = 1; x = 2;").tokens = overwritten.tokens ∧
      (overwritten.occurrences.filter (·.Unread alone)).map (fun o => (o.token.pos, o.token.text)) =
        [(⟨1, 1⟩, "x")] ∧
      (checkBody alone ⟨1, 1⟩ "x = 1; x = 2;").filter (·.code == "MS-W025") = []) ∧
    (lexBody ⟨1, 1⟩ "f(x = 1);").tokens = compared.tokens ∧
      (compared.occurrences.filter (·.Unread alone)).map (fun o => (o.token.pos, o.token.text)) =
        [] ∧
      (checkBody alone ⟨1, 1⟩ "f(x = 1);").filter (·.code == "MS-W025") =
        [⟨⟨1, 3⟩, .unusedVariable "x"⟩] := by
  decide +kernel

end Partitura.ManuScript
