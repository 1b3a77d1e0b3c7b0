import Partitura.ManuScript.Check
import Partitura.Proofs.ManuScript.Retelling

/-!
# Comments in a body

The reader passes over the comments that it meets, but not at every place: in some it looks at the
very next token. `Admits` says between which kinds of tokens comments are passed over, and
`Unobtrusive` that the comments of a body stand only there. To leave out comments is a retelling of
the tokens, so what is told about such a body is what is told about it without its comments
(`program_bare`).
-/

namespace Partitura.ManuScript

namespace Reader

open Grammar

/-- The tokens that are no comments. -/
def bare (ts : List Token) : List Token := ts.filter (·.kind != .comment)

/-! ## Where comments may stand -/

instance (before after : Kind) : Decidable (Admits before after) :=
  decidable_of_iff ((before = .lbrace → after ≠ .rbrace) ∧ before ≠ .colon ∧
      (before = .identifier → after ∉ .dot :: .lparen :: operators 2) ∧
      (before ∈ operators 0 ++ operators 1 ++ operators 2 ++ signs → after ∉ .identifier :: signs))
    ⟨fun h => ⟨h.1, h.2.1, h.2.2.1, h.2.2.2⟩, fun h => ⟨h.block, h.property, h.name, h.operator⟩⟩

/-- Comments stand only where they are passed over. Behind a comparison or an assignment no comment
stands right behind a name either: whether that name is the whole operand is told by the number of
tokens up to the next one. -/
def Unobtrusive : List Token → Prop
  | [] => True
  | t :: r => (kindAt r = .comment → Admits t.kind (kindAt (skip r))) ∧
      (t.kind ∈ operators 2 → kindAt r = .identifier → kindAt r.tail ≠ .comment) ∧ Unobtrusive r

instance Unobtrusive.decide : (ts : List Token) → Decidable (Unobtrusive ts)
  | [] => isTrue trivial
  | _ :: r => @instDecidableAnd _ _ _ (@instDecidableAnd _ _ _ (Unobtrusive.decide r))

/-- Comments are left out and all else stays as it is. -/
def uncommented : Retelling where
  place := id
  token := id
  comments := false
  kind_token _ := rfl
  pos_token _ := rfl
  token_eq _ := rfl

theorem tokens_uncommented (ts : List Token) : uncommented.tokens ts = bare ts := List.map_id _

theorem Unobtrusive.suits {ts : List Token} (h : Unobtrusive ts) : uncommented.Suits ts := by
  induction ts with
  | nil => trivial
  | cons t r ih => exact ⟨fun _ _ _ _ => rfl, fun _ => ⟨h.1, h.2.1⟩, ih h.2.2⟩

/-- A program is read alike without its comments. -/
theorem program_bare {fin : Position} {ts : List Token} (h : Unobtrusive ts) :
    program fin (bare ts) = program fin ts := by
  have hmove : Event.move id = id := by
    funext e
    cases e <;> rfl
  rw [← tokens_uncommented]
  exact (Retelling.program_tokens fin h.suits).trans
    ((congrArg (List.map · _) hmove).trans (List.map_id _))

end Reader

open Reader

/-- **Comments out of the way change nothing.** Whatever is known to a body from outside, what is
told about tokens whose comments stand only where they are passed over is the same, in the same
order and at the same places, as what is told about them without their comments. -/
theorem checkTokens_bare {env : Surroundings} {fin : Position} {ts : List Token}
    (h : Unobtrusive ts) : checkTokens env fin (bare ts) = checkTokens env fin ts := by
  rw [checkTokens, checkTokens, program_bare h]

/-- The comments behind a brace, within a sum and behind a block are out of the way here. -/
theorem checkTokens_bare_commented :
    Unobtrusive (lexBody ⟨1, 1⟩ "if (x < y) \x7b // one\nz = x + // two\n1; \x7d // three").tokens ∧
      bare (lexBody ⟨1, 1⟩ "if (x < y) \x7b // one\nz = x + // two\n1; \x7d // three").tokens ≠
        (lexBody ⟨1, 1⟩ "if (x < y) \x7b // one\nz = x + // two\n1; \x7d // three").tokens ∧
      checkTokens ⟨⟨[], [], []⟩, [], []⟩ ⟨3, 14⟩
          (bare (lexBody
            ⟨1, 1⟩ "if (x < y) \x7b // one\nz = x + // two\n1; \x7d // three").tokens) =
        checkTokens ⟨⟨[], [], []⟩, [], []⟩ ⟨3, 14⟩
          (lexBody ⟨1, 1⟩ "if (x < y) \x7b // one\nz = x + // two\n1; \x7d // three").tokens := by
  have h :
      Unobtrusive
        (lexBody ⟨1, 1⟩ "if (x < y) \x7b // one\nz = x + // two\n1; \x7d // three").tokens := by
          decide +kernel
  exact ⟨h, by decide +kernel, checkTokens_bare h⟩

/-- A comment in an empty block makes two errors of it. So does each other way of standing in the
way change what is told: behind a colon, between a name and what is looked for behind it, between an
operator and a sign or a name, and behind the second name of an assignment. -/
theorem checkTokens_bare_ne :
    (checkTokens ⟨⟨[], [], []⟩, [], []⟩ ⟨2, 2⟩
      (bare (lexBody ⟨1, 1⟩ "if (x) \x7b // nothing yet\n\x7d").tokens)).map
        Diagnostic.code = ["MS-W020"] ∧
      (checkTokens ⟨⟨[], [], []⟩, [], []⟩ ⟨2, 2⟩
        (lexBody ⟨1, 1⟩ "if (x) \x7b // nothing yet\n\x7d").tokens).map
        Diagnostic.code = ["MS-W020", "MS-E001", "MS-E040"] ∧
      ∀ body ∈
        ["x: // whose\ny;", "x // count\n= 1;", "f // of\n(1);", "a or // even\nnot b;",
          "a and // also\nf(1);", "x = x // again\n;"],
        checkTokens ⟨⟨[], [], []⟩, [], []⟩ ⟨3, 1⟩ (bare (lexBody ⟨1, 1⟩ body).tokens) ≠
          checkTokens ⟨⟨[], [], []⟩, [], []⟩ ⟨3, 1⟩ (lexBody ⟨1, 1⟩ body).tokens := by
  decide +kernel

end Partitura.ManuScript
