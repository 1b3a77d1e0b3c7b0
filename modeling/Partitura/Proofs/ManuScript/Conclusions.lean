import Partitura.Proofs.ManuScript.Gist

/-!
# What is concluded about a body

Three kinds of complaints are about a body as a whole: names that may be undefined, names that are
never used, and statements that cannot be reached. They depend on the gist of what the body says
(`filter_analyse_gist`), so for a program of the grammar they can be told from its tree
(`filter_checkTokens`).
-/

namespace Partitura.ManuScript

open Grammar Reader

/-! ## Codes -/

namespace Issue

variable {i : Issue}

theorem number_rule_lt (i : Issue) : i.rule.number < 51 := by
  cases i <;> exact Nat.le_of_ble_eq_true rfl

/-- The codes of these three warnings tell their rules. -/
theorem code_eq_iff {n : Nat} (hn : n ∈ [20, 25, 26]) :
    i.code = Rule.code ⟨.warning, n⟩ ↔ i.rule = ⟨.warning, n⟩ := by
  refine ⟨fun h => ?_, fun h => by rw [code, h]⟩
  have hlt := i.number_rule_lt
  unfold code at h
  generalize i.rule = r at h hlt
  obtain ⟨severity, m⟩ := r
  have hcodes : ∀ n ∈ [20, 25, 26], ∀ m < 51, Rule.code ⟨.error, m⟩ ≠ Rule.code ⟨.warning, n⟩ ∧
      (Rule.code ⟨.warning, m⟩ = Rule.code ⟨.warning, n⟩ → m = n) := by decide +kernel
  obtain ⟨herror, hwarning⟩ := hcodes n hn m hlt
  cases severity with
  | error => exact absurd h herror
  | warning => rw [hwarning h]

/-- The issues of these three rules. -/
theorem rule_eq_iff (i : Issue) :
    (i.rule = ⟨.warning, 20⟩ ↔ ∃ name, i = .undefinedVariable name) ∧
      (i.rule = ⟨.warning, 25⟩ ↔ ∃ name, i = .unusedVariable name) ∧
        (i.rule = ⟨.warning, 26⟩ ↔ i = .unreachable) := by
  cases i <;> simp [rule]

theorem code_eq_undefined : i.code = "MS-W020" ↔ ∃ name, i = .undefinedVariable name := by
  have hcode : "MS-W020" = Rule.code ⟨.warning, 20⟩ := by decide
  rw [hcode, code_eq_iff (by decide), i.rule_eq_iff.1]

theorem code_eq_unused : i.code = "MS-W025" ↔ ∃ name, i = .unusedVariable name := by
  have hcode : "MS-W025" = Rule.code ⟨.warning, 25⟩ := by decide
  rw [hcode, code_eq_iff (by decide), i.rule_eq_iff.2.1]

theorem code_eq_unreachable : i.code = "MS-W026" ↔ i = .unreachable := by
  have hcode : "MS-W026" = Rule.code ⟨.warning, 26⟩ := by decide
  rw [hcode, code_eq_iff (by decide), i.rule_eq_iff.2.2]

end Issue

/-! ## What counts for conclusions -/

namespace Surroundings

variable (env : Surroundings)

/-- The complaints about a sequence of events, without those about the names left unused at its
end. -/
def along (s : Scope) : List Event → List Diagnostic
  | [] => []
  | e :: es => env.complaints s e ++ along (s.next e) es

theorem along_append (s : Scope) (es fs : List Event) :
    env.along s (es ++ fs) = env.along s es ++ env.along (es.foldl Scope.next s) fs := by
  induction es generalizing s with
  | nil => rfl
  | cons e es ih => rw [List.cons_append, along, along, ih, List.append_assoc, List.foldl_cons]

theorem analyse_eq_along (s : Scope) (es : List Event) :
    env.analyse s es = env.along s es ++ env.unused (es.foldl Scope.next s) := by
  induction es generalizing s with
  | nil => rfl
  | cons e es ih => rw [analyse, ih, along, List.append_assoc, List.foldl_cons]

/-- What does not belong to the gist changes nothing. -/
theorem next_of_not_isGist {e : Event} (h : e.isGist = false) (s : Scope) : s.next e = s := by
  cases e with
  | issue | called | accessed => rfl
  | _ => cases h

theorem foldl_next_gist (s : Scope) (es : List Event) :
    (gist es).foldl Scope.next s = es.foldl Scope.next s := by
  induction es generalizing s with
  | nil => rfl
  | cons e es ih =>
    by_cases h : e.isGist = true
    · rw [gist_cons_of_isGist h, List.foldl_cons, List.foldl_cons, ih]
    · have h : e.isGist = false := by simpa using h
      rw [List.foldl_cons, next_of_not_isGist h, ← ih]
      exact congrArg _ (List.filter_cons_of_neg (by rw [h]; decide))

/-- What is told about calls and members is no conclusion. -/
theorem not_isConclusion_complaints {e : Event} (he : e.isGist = false) {s : Scope} {d : Diagnostic}
    (h : d ∈ env.complaints s e) : d.issue.isConclusion = false := by
  cases e with
  | issue d' =>
    rw [List.mem_singleton.1 h]
    exact he
  | called receiver name got => exact (callComplaints_mild h).2
  | accessed receiver name => exact (memberComplaints_mild h).2
  | _ => cases he

theorem filter_along_gist (s : Scope) (es : List Event) :
    (env.along s (gist es)).filter (·.issue.isConclusion) =
      (env.along s es).filter (·.issue.isConclusion) := by
  induction es generalizing s with
  | nil => rfl
  | cons e es ih =>
    by_cases h : e.isGist = true
    · rw [gist_cons_of_isGist h, along, along, List.filter_append, List.filter_append, ih]
    · have h : e.isGist = false := by simpa using h
      have hnone : (env.complaints s e).filter (·.issue.isConclusion) = [] :=
        List.filter_eq_nil_iff.2 fun d hd => by rw [env.not_isConclusion_complaints h hd]; decide
      have hgist : gist (e :: es) = gist es := List.filter_cons_of_neg (by rw [h]; decide)
      rw [hgist, ih, along, List.filter_append, hnone, next_of_not_isGist h, List.nil_append]

/-- Conclusions depend on the gist of the events. -/
theorem filter_analyse_gist (s : Scope) (es : List Event) :
    (env.analyse s (gist es)).filter (·.issue.isConclusion) =
      (env.analyse s es).filter (·.issue.isConclusion) := by
  rw [analyse_eq_along, analyse_eq_along, List.filter_append, List.filter_append, filter_along_gist,
    foldl_next_gist]

end Surroundings

/-- What is concluded about a program can be told from its tree. -/
theorem filter_checkTokens {p : Diagnostic → Bool}
    (hp : ∀ d, p d = true → d.issue.isConclusion = true) (env : Surroundings) (fin : Position)
    (a : Tree .statements) :
    (checkTokens env fin a.tokens).filter p = (env.analyse {} (a.tells false [])).filter p := by
  have hfilter (ds : List Diagnostic) :
      ds.filter p = (ds.filter (·.issue.isConclusion)).filter p := by
    rw [List.filter_filter]
    refine List.filter_congr fun d _ => ?_
    cases h : p d with
    | false => rfl
    | true => rw [hp d h]; rfl
  rw [hfilter, checkTokens, ← env.filter_analyse_gist, (bears_program fin a).2.gist_eq, ← hfilter]

end Partitura.ManuScript
