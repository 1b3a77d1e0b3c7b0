import Partitura.Proofs.ManuScript.Gist

/-!
# Programs of the grammar have no errors

The reader finds no error in a program of the grammar (`bears_program`), and what is said about the
names of a program are only warnings (`isError_of_mem_analyse`). So a program of the grammar gets no
error at all.
-/

namespace Partitura.ManuScript

open Grammar Reader

variable {d : Diagnostic} {env : Surroundings}

/-- What is said about names is never an error. -/
theorem isError_of_mem_complaints {s : Scope} {e : Event} (he : e.isHarmless = true)
    (h : d ∈ env.complaints s e) : d.isError = false := by
  have hone {p : Prop} [Decidable p] {d' : Diagnostic} (hd : d ∈ if p then [d'] else []) :
      d = d' := by
    split at hd
    · exact List.mem_singleton.1 hd
    · cases hd
  cases e with
  | issue d' =>
    rw [List.mem_singleton.1 h]
    simpa [Event.isHarmless] using he
  | statement pos =>
    rw [hone h]
    rfl
  | assigned t =>
    rw [hone h]
    rfl
  | read t qualified =>
    simp only [Surroundings.complaints] at h
    split at h
    · cases h
    · rw [List.mem_singleton.1 h]
      rfl
  | called receiver name got => exact (callComplaints_mild h).1
  | accessed receiver name => exact (memberComplaints_mild h).1
  | returned | opened | closed | bound => cases h

theorem isError_of_mem_analyse {es : List Event} (hes : es.all Event.isHarmless = true) {s : Scope}
    (h : d ∈ env.analyse s es) : d.isError = false := by
  induction es generalizing s with
  | nil =>
    obtain ⟨t, -, rfl⟩ := List.mem_map.1 h
    rfl
  | cons e es ih =>
    rw [List.all_cons, Bool.and_eq_true] at hes
    rcases List.mem_append.1 h with h | h
    · exact isError_of_mem_complaints hes.1 h
    · exact ih hes.2 h

/-- The code of a diagnostic tells whether it is an error. -/
theorem hasStart_code (d : Diagnostic) : Text.hasStart d.code "MS-E" = d.isError := by
  rw [Diagnostic.code, Issue.code, Rule.code, Diagnostic.isError, Issue.isError, Text.hasStart]
  cases d.issue.rule.severity <;> simp [List.isPrefixOf]

/-- **No program of the grammar has a syntax error.** Whatever is known about its surroundings,
every complaint about it is a warning, and its statements are read up to the end of the text. -/
theorem checkTokens_of_derives {ts : List Token} (h : Derives .statements ts) (env : Surroundings)
    (fin : Position) : (∀ d ∈ checkTokens env fin ts, Text.hasStart d.code "MS-E" = false) ∧
      (Reader.statements fin ts).rest = [] ∧
        Reader.program fin ts = (Reader.statements fin ts).events := by
  obtain ⟨a, rfl⟩ := h.exists_tree
  obtain ⟨hstatements, hbears⟩ := bears_program fin a
  refine ⟨fun d hd => ?_, hstatements.rest_eq, hstatements.events_eq.symm⟩
  rw [hasStart_code]
  exact isError_of_mem_analyse hbears.harmless hd

/-- A token that stands at the start of a text. -/
def sampleToken (k : Kind) (text : String) : Token := ⟨k, text, ⟨1, 1⟩⟩

/-- The tokens of `if (not a.n = 1) { f(-x, a[0]:u); } else { return; }`. -/
def sampleTokens : List Token :=
  [sampleToken .kwIf "if", sampleToken .lparen "(", sampleToken .kwNot "not",
    sampleToken .identifier "a", sampleToken .dot ".", sampleToken .identifier "n",
    sampleToken .assign "=", sampleToken .number "1", sampleToken .rparen ")",
    sampleToken .lbrace "\x7b", sampleToken .identifier "f", sampleToken .lparen "(",
    sampleToken .minus "-", sampleToken .identifier "x", sampleToken .comma ",",
    sampleToken .identifier "a", sampleToken .lbracket "[", sampleToken .number "0",
    sampleToken .rbracket "]", sampleToken .colon ":", sampleToken .identifier "u",
    sampleToken .rparen ")", sampleToken .semicolon ";", sampleToken .rbrace "\x7d",
    sampleToken .kwElse "else", sampleToken .lbrace "\x7b", sampleToken .kwReturn "return",
    sampleToken .semicolon ";", sampleToken .rbrace "\x7d"]

theorem derives_sampleTokens : Derives .statements sampleTokens := by
  have atom (k : Kind) (text : String) (hk : k ∈ atoms) :
      Derives .chain [sampleToken k text] := .atom hk
  have hmember :
      Derives .chain [sampleToken .identifier "a", sampleToken .dot ".",
        sampleToken .identifier "n"] :=
    .member (atom .identifier "a" (by decide)) rfl rfl
  have hcondition :
      Derives (.expression 2) [sampleToken .kwNot "not", sampleToken .identifier "a",
        sampleToken .dot ".",
      sampleToken .identifier "n", sampleToken .assign "=", sampleToken .number "1"] :=
    .operation (Derives.loosen (by decide) (by decide) (.sign (by decide) (.link hmember)))
      (by decide)
      (Derives.loosen (by decide) (by decide) (.link (atom .number "1" (by decide))))
  have hindexed :
      Derives .chain [sampleToken .identifier "a", sampleToken .lbracket "[",
        sampleToken .number "0",
      sampleToken .rbracket "]", sampleToken .colon ":", sampleToken .identifier "u"] :=
    .property (.index (atom .identifier "a" (by decide)) rfl
      (Derives.loosen (by decide) (by decide) (.link (atom .number "0" (by decide)))) rfl) rfl rfl
  have harguments :
      Derives .arguments [sampleToken .minus "-", sampleToken .identifier "x",
        sampleToken .comma ",",
      sampleToken .identifier "a", sampleToken .lbracket "[", sampleToken .number "0",
      sampleToken .rbracket "]", sampleToken .colon ":", sampleToken .identifier "u"] :=
    .firstArgument
      (Derives.loosen (by decide) (by decide)
        (.sign (by decide) (.link (atom .identifier "x" (by decide)))))
      (.nextArgument rfl (Derives.loosen (by decide) (by decide) (.link hindexed)) .lastArgument)
  have hcall :=
    Derives.call (l := sampleToken .lparen "(") (r := sampleToken .rparen ")")
      (atom .identifier "f" (by decide))
    rfl harguments rfl
  have hthen :=
    Derives.block (l := sampleToken .lbrace "\x7b") (r := sampleToken .rbrace "\x7d") rfl
    (.nextStatement
      (.simple (c := sampleToken .semicolon ";")
        (Derives.loosen (by decide) (by decide) (.link hcall)) rfl)
      .noStatement) rfl
  have helse :=
    Derives.block (l := sampleToken .lbrace "\x7b") (r := sampleToken .rbrace "\x7d") rfl
    (.nextStatement
      (.returnNothing (k := sampleToken .kwReturn "return")
        (c := sampleToken .semicolon ";") rfl rfl)
      .noStatement) rfl
  exact .nextStatement
    (.ifThen (k := sampleToken .kwIf "if") rfl (.conditional (l := sampleToken .lparen "(")
    (r := sampleToken .rparen ")") rfl (Derives.loosen (by decide) (by decide) hcondition) rfl hthen
    (.otherwise (e := sampleToken .kwElse "else") rfl helse))) .noStatement

/-- The name `x` and the function `f` are not known, which are two warnings and no error. -/
theorem checkTokens_sampleTokens : Derives .statements sampleTokens ∧
    (checkTokens ⟨⟨[], [], []⟩, ["a"], []⟩ ⟨1, 46⟩ sampleTokens).map Diagnostic.code =
      ["MS-W020", "MS-W022"] ∧
    (∀ d ∈ checkTokens ⟨⟨[], [], []⟩, ["a"], []⟩ ⟨1, 46⟩ sampleTokens,
      Text.hasStart d.code "MS-E" = false) ∧
    (Reader.statements ⟨1, 46⟩ sampleTokens).rest = [] := by
  obtain ⟨hcodes, hrest, -⟩ :=
    checkTokens_of_derives derives_sampleTokens ⟨⟨[], [], []⟩, ["a"], []⟩ ⟨1, 46⟩
  exact ⟨derives_sampleTokens, by decide +kernel, hcodes, hrest⟩

end Partitura.ManuScript
