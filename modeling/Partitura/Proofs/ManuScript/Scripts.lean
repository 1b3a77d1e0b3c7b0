import Partitura.Proofs.ManuScript.Acceptance
import Partitura.Proofs.ManuScript.Lexemes

/-!
# Scripts

The grammar of method bodies has no comments. A `Script` is a body with some: comments and
statements of the grammar in any order. Whether tokens are a phrase depends on their kinds alone, so
scripts are lists of kinds (`Fits`).

A comment between two statements changes nothing but where the reader stops: an `if` looks past the
comments behind it for an `else`, every other statement ends before them. So the statements of a
script are read one by one, each as its tree says (`Tree.conveyed`), and no script has an error
(`checkBody_of_script`).
-/

namespace Partitura.ManuScript

open Grammar Lexer Reader

/-- All tokens of these kinds are a phrase of the kind `σ`. -/
def Fits (σ : Symbol) (ks : List Kind) : Prop :=
  ∀ ts : List Token, ts.map Token.kind = ks → Derives σ ts

/-- The kinds of comments and statements in any order. -/
inductive Script : List Kind → Prop where
  | nil : Script []
  | remark {ks : List Kind} : Script ks → Script (.comment :: ks)
  | statement {a ks : List Kind} : Fits .statement a → Script ks → Script (a ++ ks)

theorem Script.append {ks ls : List Kind} (h : Script ks) (h' : Script ls) : Script (ks ++ ls) := by
  induction h with
  | nil => exact h'
  | remark _ ih => exact .remark ih
  | statement ha _ ih =>
    rw [List.append_assoc]
    exact .statement ha ih

/-- No script starts with `else`, and a script is read without errors. -/
theorem Script.harmless {ks : List Kind} (h : Script ks) {ts : List Token}
    (hts : ts.map Token.kind = ks) (fin : Position) :
    kindAt (skip ts) ≠ .kwElse ∧ (program fin ts).all Event.isHarmless = true := by
  induction h generalizing ts with
  | nil =>
    obtain rfl := List.map_eq_nil_iff.1 hts
    exact ⟨by decide, by rw [program_of_skip_nil rfl]; rfl⟩
  | remark _ ih =>
    obtain ⟨t, r, rfl, ht, hr⟩ := List.map_eq_cons_iff.1 hts
    have hskip : skip (t :: r) = skip r := List.dropWhile_cons_of_pos (by simpa using ht)
    rw [hskip, program_congr hskip]
    exact ih hr
  | statement ha _ ih =>
    obtain ⟨a, r, rfl, ha', hr⟩ := List.map_eq_append_iff.1 hts
    obtain ⟨b, rfl⟩ := (ha a ha').exists_tree
    obtain ⟨helse, hharmless⟩ := ih hr
    obtain ⟨u, hu, e, hstatement, hbears⟩ := b.conveyed fin false r helse
    obtain ⟨t, a, htokens, hcomment, hfirst, -⟩ := b.statement_tokens
    rw [htokens, List.cons_append] at hstatement ⊢
    have hskip : skip (t :: (a ++ r)) = t :: (a ++ r) := skip_cons hcomment _
    obtain ⟨rfl, rfl⟩ : Yields (Reader.statement fin (t :: (a ++ r))) e u := hstatement.does
    rw [program_of_skip_cons hskip, program_congr hu, hskip, List.all_append,
      hbears.harmless, hharmless]
    exact ⟨hfirst, rfl⟩

/-- The kinds of the tokens of a text. -/
def kinds (cs : List Char) : List Kind := (lexemes .body cs).map Prod.fst

/-- **No script has a syntax error,** whatever is known about its surroundings. -/
theorem checkBody_of_script {body : String} (hok : Faultless .body body.toList)
    (h : Script (kinds body.toList)) (env : Surroundings) (p : Position) :
    ∀ d ∈ checkBody env p body, Text.hasStart d.code "MS-E" = false := by
  intro d hd
  have htokens : (lexBody p body).tokens.map Token.kind = kinds body.toList := by
    rw [lexBody, kinds, ← map_lexeme_tokens .body p body.toList, List.map_map]
    rfl
  rw [checkBody, lexBody, issues_eq_nil_iff.2 hok, List.nil_append] at hd
  rw [hasStart_code]
  exact isError_of_mem_analyse (h.harmless htokens _).2 hd

end Partitura.ManuScript
