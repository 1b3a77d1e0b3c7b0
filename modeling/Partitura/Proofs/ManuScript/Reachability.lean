import Partitura.Proofs.ManuScript.Conclusions

/-!
# Statements that cannot be reached

A return ends its block, so what stands behind it there cannot be reached. `goesOn` says that a
block has a return that is not its last statement, and `behindReturn` what stands behind its first
return. Every such block gets one complaint, at the first token behind its first return, and no
other complaint of that kind is made (`unreachable_once_per_block`). The statements of a program
count as a block.

While it goes through the events, the analysis keeps two flags for the present block and stacks
those of the blocks around it. A block restores them at its end, so that what follows it is not
affected (`Passes`); only the statements of a sequence see the flags of each other (`Tree.Runs`).
-/

namespace Partitura.ManuScript

open Grammar Reader

variable {e : Event} {σ : Symbol} {a : Tree .statement}

/-! ## Blocks and returns -/

namespace Grammar.Tree

/-- The statements of a sequence. -/
def items : Tree .statements → List (Tree .statement)
  | .noStatement => []
  | .nextStatement a b => a :: b.items

/-- The statements of each block in a tree, at any depth. -/
@[simp] def blocks : {σ : Symbol} → Tree σ → List (List (Tree .statement))
  | _, .block _ a _ => a.items :: a.blocks
  | _, .nextStatement a b => a.blocks ++ b.blocks
  | _, .nested a => a.blocks
  | _, .ifThen _ a => a.blocks
  | _, .whileDo _ _ _ _ b => b.blocks
  | _, .forTo _ _ _ _ _ _ c => c.blocks
  | _, .forEach _ _ _ _ _ b => b.blocks
  | _, .forEachTyped _ _ _ _ _ _ b => b.blocks
  | _, .switch _ _ _ _ _ b _ => b.blocks
  | _, .conditional _ _ _ b c => b.blocks ++ c.blocks
  | _, .otherwise _ b => b.blocks
  | _, .otherwiseIf _ _ a => a.blocks
  | _, .caseEntry _ _ _ _ b c => b.blocks ++ c.blocks
  | _, .defaultEntry _ b c => b.blocks ++ c.blocks
  | _, _ => []

/-- A return. -/
def isReturn : Tree .statement → Bool
  | .returnNothing _ _ | .returnValue _ _ _ => true
  | _ => false

end Grammar.Tree

/-- A block with a return that is not its last statement. -/
def goesOn (b : List (Tree .statement)) : Bool := b.dropLast.any Tree.isReturn

/-- The tokens that stand behind the first return of a block. -/
def behindReturn (b : List (Tree .statement)) : List Token :=
  (b.dropWhile (!·.isReturn)).tail.flatMap Tree.tokens

/-- The complaint about tokens that cannot be reached, at the first of them. -/
def lost (fin : Position) (ts : List Token) : Diagnostic := ⟨posAt fin ts, .unreachable⟩

/-- The complaints about some blocks: one for each that goes on behind a return. -/
def lostIn (fin : Position) (bs : List (List (Tree .statement))) : List Diagnostic :=
  (bs.filter goesOn).map fun b => lost fin (behindReturn b)

theorem lostIn_cons (fin : Position) (b : List (Tree .statement))
    (bs : List (List (Tree .statement))) :
    lostIn fin (b :: bs) =
      (if goesOn b then [lost fin (behindReturn b)] else []) ++ lostIn fin bs := by
  unfold lostIn
  cases h : goesOn b <;> simp [h]

theorem lostIn_append (fin : Position) (bs cs : List (List (Tree .statement))) :
    lostIn fin (bs ++ cs) = lostIn fin bs ++ lostIn fin cs := by
  rw [lostIn, List.filter_append, List.map_append]
  rfl

/-! ## What events do to the flags -/

/-- The flags of the present block and those of the blocks around it. -/
def Scope.course (s : Scope) : Bool × Bool × List (Bool × Bool) := (s.returned, s.warned, s.outer)

/-- The complaints about unreachable statements among those about events. -/
def Surroundings.unreached (env : Surroundings) (s : Scope) (es : List Event) : List Diagnostic :=
  (env.along s es).filter (·.issue == .unreachable)

section Flags

variable {env : Surroundings} {s : Scope} {es fs : List Event} {ds ds' : List Diagnostic}

theorem unreached_append (env : Surroundings) (s : Scope) (es fs : List Event) :
    env.unreached s (es ++ fs) =
      env.unreached s es ++ env.unreached (es.foldl Scope.next s) fs := by
  rw [Surroundings.unreached, env.along_append, List.filter_append]
  rfl

/-- Events that leave the flags as they were, whatever they were, and make the complaints `ds`. -/
def Passes (env : Surroundings) (es : List Event) (ds : List Diagnostic) : Prop :=
  ∀ s : Scope, (env.unreached s es).Perm ds ∧ (es.foldl Scope.next s).course = s.course

theorem Passes.append (h : Passes env es ds) (h' : Passes env fs ds') :
    Passes env (es ++ fs) (ds ++ ds') := by
  intro s
  obtain ⟨hperm, hcourse⟩ := h s
  obtain ⟨hperm', hcourse'⟩ := h' (es.foldl Scope.next s)
  rw [unreached_append, List.foldl_append]
  exact ⟨hperm.append hperm', hcourse'.trans hcourse⟩

/-- An event about a name. -/
def Event.isNaming : Event → Bool
  | .assigned _ | .bound _ | .read _ _ => true
  | _ => false

/-- The end of a block takes back the flags that were stacked last. -/
theorem course_closed {r w : Bool} {o : List (Bool × Bool)} (h : s.outer = (r, w) :: o) :
    (s.next .closed).course = (r, w, o) := by
  rw [Scope.next, h]
  rfl

theorem course_next (h : e.isNaming = true) (s : Scope) : (s.next e).course = s.course := by
  cases e with
  | assigned t => rfl
  | bound name => rfl
  | read t qualified =>
    simp only [Scope.next]
    split <;> rfl
  | _ => cases h

theorem unreached_of_naming (h : e.isNaming = true) (s : Scope) : env.unreached s [e] = [] := by
  refine List.filter_eq_nil_iff.2 fun d hd => ?_
  rw [Surroundings.along, Surroundings.along, List.append_nil] at hd
  cases e with
  | assigned t =>
    simp only [Surroundings.complaints] at hd
    split at hd
    · rw [List.mem_singleton.1 hd]
      simp
    · cases hd
  | bound name => cases hd
  | read t qualified =>
    simp only [Surroundings.complaints] at hd
    split at hd
    · cases hd
    · rw [List.mem_singleton.1 hd]
      simp
  | _ => cases h

/-- Events about names have nothing to do with the flags. -/
theorem passes_naming (h : ∀ e ∈ es, e.isNaming = true) : Passes env es [] := by
  induction es with
  | nil => exact fun s => ⟨.refl _, rfl⟩
  | cons e es ih =>
    have hone : Passes env [e] [] := fun s =>
      ⟨by rw [unreached_of_naming (h e List.mem_cons_self)], course_next (h e List.mem_cons_self) s⟩
    exact hone.append (ih fun f hf => h f (List.mem_cons_of_mem e hf))

end Flags

/-! ## Expressions -/

/-- The kinds of phrases that stand in expressions. -/
def Grammar.Symbol.isExpression : Symbol → Bool
  | .expression _ | .chain | .arguments | .moreArguments => true
  | _ => false

theorem isNaming_of_mem_assigned {s : Bool} {ts : List Token} (h : e ∈ assigned s ts) :
    e.isNaming = true := by
  unfold assigned at h
  split at h
  · split at h
    · rw [List.mem_singleton.1 h]
      rfl
    · cases h
  · cases h

/-- An expression tells only of names. -/
theorem Grammar.Tree.isNaming_of_mem_tells (hσ : σ.isExpression = true) (a : Tree σ) {s : Bool}
    {rest : List Token} (h : e ∈ a.tells s rest) : e.isNaming = true := by
  induction a generalizing rest with
  | atom t =>
    rw [tells] at h
    split at h
    · rw [List.mem_singleton.1 h]
      rfl
    · cases h
  | group _ _ _ ih =>
    rcases List.mem_append.1 h with h | h
    · exact isNaming_of_mem_assigned h
    · exact ih rfl h
  | member _ _ _ ih | property _ _ _ ih | link _ ih | sign _ _ ih | operand _ _ ih => exact ih rfl h
  | call _ _ _ _ iha ihb | operation _ _ _ iha ihb =>
    exact (List.mem_append.1 h).elim (iha rfl) (ihb rfl)
  | index _ _ _ _ iha ihb =>
    rcases List.mem_append.1 h with h | h
    · exact iha rfl h
    · exact (List.mem_append.1 h).elim isNaming_of_mem_assigned (ihb rfl)
  | noArgument | lastArgument => cases h
  | firstArgument _ _ iha ihb | nextArgument _ _ _ iha ihb =>
    rcases List.mem_append.1 h with h | h
    · exact (List.mem_append.1 h).elim isNaming_of_mem_assigned (iha rfl)
    · exact ihb rfl h
  | _ => cases hσ

/-! ## Sequences of statements -/

/-- The complaint about what is left of a block when its flags are `returned` and `warned`. -/
def pending (fin : Position) (returned warned : Bool) (b : List (Tree .statement)) :
    List Diagnostic :=
  if returned then if warned || b.isEmpty then [] else [lost fin (b.flatMap Tree.tokens)]
  else if goesOn b then [lost fin (behindReturn b)] else []

/-- The flags after a statement lead to the complaint about what is left behind it. -/
theorem pending_cons {fin : Position} {returned warned : Bool}
    (hw : warned = true → returned = true) {t : Token} {r : List Token} (ht : a.tokens = t :: r)
    (b : List (Tree .statement)) :
    (if returned && !warned then [⟨t.pos, .unreachable⟩] else []) ++
      pending fin (returned || a.isReturn) (warned || returned) b =
      pending fin returned warned (a :: b) := by
  cases returned with
  | true => cases warned <;> simp [pending, lost, ht, posAt]
  | false =>
    obtain rfl : warned = false := by
      cases warned with
      | false => rfl
      | true => cases hw rfl
    cases ha : a.isReturn with
    | false =>
      cases b with
      | nil => simp [pending, goesOn]
      | cons c b => simp [pending, goesOn, behindReturn, ha]
    | true =>
      cases b with
      | nil => simp [pending, goesOn]
      | cons c b => simp [pending, goesOn, behindReturn, ha]

/-- What a tree does to the flags: a statement may be a return, a sequence sees the flags, and
everything else passes. -/
def Grammar.Tree.Runs (env : Surroundings) (fin : Position) : {σ : Symbol} → Tree σ → Prop
  | .statement, a => ∀ s b rest, (env.unreached s (a.tells b rest)).Perm (lostIn fin a.blocks) ∧
      ((a.tells b rest).foldl Scope.next s).course = (s.returned || a.isReturn, s.warned, s.outer)
  | .statements, a => ∀ s b rest, (s.warned = true → s.returned = true) →
      (env.unreached s (a.tells b rest)).Perm
        (pending fin s.returned s.warned a.items ++ lostIn fin a.blocks) ∧
        ((a.tells b rest).foldl Scope.next s).outer = s.outer
  | _, a => ∀ b rest, Passes env (a.tells b rest) (lostIn fin a.blocks)

section Runs

variable {env : Surroundings} {fin : Position}

theorem runs_block {l : Leaf .lbrace} {a : Tree .statements} {r : Leaf .rbrace}
    (h : a.Runs env fin) : (Tree.block l a r).Runs env fin := by
  intro b rest s
  obtain ⟨hperm, houter⟩ := h (s.next .opened) b (r.1 :: rest) (by simp [Scope.next])
  have hopened : env.unreached s [.opened] = [] := rfl
  have hclosed (s : Scope) : env.unreached s [.closed] = [] := rfl
  have hcons :
      (Tree.block l a r).tells b rest = [.opened] ++ (a.tells b (r.1 :: rest) ++ [.closed]) := rfl
  refine ⟨?_, ?_⟩
  · rw [hcons, unreached_append, unreached_append, hopened, hclosed, List.append_nil,
      List.nil_append, Tree.blocks, lostIn_cons]
    exact hperm
  · rw [hcons, List.foldl_append, List.foldl_append]
    -- the flags that were stacked at the start are taken back at the end
    exact course_closed houter

theorem runs_nextStatement {b : Tree .statements} (ha : a.Runs env fin) (hb : b.Runs env fin) :
    (Tree.nextStatement a b).Runs env fin := by
  intro s c rest hs
  obtain ⟨t, r, ht, -⟩ := a.statement_tokens
  have hcourse :
      (s.next (.statement t.pos)).course = (s.returned, s.warned || s.returned, s.outer) := by
    cases hr : s.returned <;> simp [Scope.next, Scope.course, hr]
  have hstart : env.unreached s [.statement t.pos] =
      if s.returned && !s.warned then [⟨t.pos, .unreachable⟩] else [] := by
    cases hr : s.returned <;> cases hw : s.warned <;>
      simp [Surroundings.unreached, Surroundings.along, Surroundings.complaints, hr, hw]
  obtain ⟨hfirst, hafter⟩ := ha (s.next (.statement t.pos)) c (b.tokens ++ rest)
  simp only [Scope.course, Prod.mk.injEq] at hcourse hafter
  obtain ⟨hreturned, hwarned, houter⟩ := hcourse
  rw [hreturned, hwarned, houter] at hafter
  generalize hlast :
      (a.tells c (b.tokens ++ rest)).foldl Scope.next (s.next (.statement t.pos)) = last at hafter
  obtain ⟨hreturned', hwarned', houter'⟩ := hafter
  obtain ⟨hmore, hend⟩ :=
    hb last c rest (by rw [hreturned', hwarned']; cases hr : s.returned <;> simp_all)
  have htells :
      (Tree.nextStatement a b).tells c rest =
        [.statement t.pos] ++ (a.tells c (b.tokens ++ rest) ++ b.tells c rest) := by
    rw [Tree.tells, ht, List.append_assoc]
    rfl
  have hstep : [Event.statement t.pos].foldl Scope.next s = s.next (.statement t.pos) := rfl
  refine ⟨?_, ?_⟩
  · rw [htells, unreached_append, unreached_append, hstep, hlast, hstart, Tree.blocks,
      lostIn_append, Tree.items, ← pending_cons hs ht, List.append_assoc]
    rw [hreturned', hwarned'] at hmore
    refine List.Perm.append_left _ ((hfirst.append hmore).trans ?_)
    rw [← List.append_assoc, ← List.append_assoc]
    exact List.perm_append_comm.append_right _
  · rw [htells, List.foldl_append, List.foldl_append, hstep, hlast, hend, houter']

/-- A statement that is no return and passes with its parts. -/
theorem runs_of_passes (hreturn : a.isReturn = false)
    (h : ∀ b rest, Passes env (a.tells b rest) (lostIn fin a.blocks)) : a.Runs env fin := by
  intro s b rest
  obtain ⟨hperm, hcourse⟩ := h b rest s
  rw [hreturn, Bool.or_false]
  exact ⟨hperm, hcourse⟩

theorem passes_bound (name : String) : Passes env [.bound name] [] :=
  passes_naming (by simp [Event.isNaming])

/-- A return sets its flag, whatever it returns. -/
theorem runs_of_returned (hreturn : a.isReturn = true) (hblocks : a.blocks = [])
    (h : ∀ b rest, ∃ es, a.tells b rest = es ++ [.returned] ∧ Passes env es []) :
    a.Runs env fin := by
  intro s b rest
  obtain ⟨es, htells, hes⟩ := h b rest
  obtain ⟨hperm, hcourse⟩ := hes s
  simp only [Scope.course, Prod.mk.injEq] at hcourse
  rw [htells, unreached_append, List.foldl_append, hblocks, hreturn, Bool.or_true]
  refine ⟨hperm.append (.refl []), ?_⟩
  simp [Scope.course, Scope.next, hcourse]

theorem runs_expression (hσ : σ.isExpression = true) (a : Tree σ) : a.Runs env fin := by
  have hblocks : a.blocks = [] := by
    cases a with
    | atom | group | member | call | index | property | link | sign | operand | operation
    | noArgument | firstArgument | lastArgument
    | nextArgument => rfl
    | _ => cases hσ
  have hpasses (s : Bool) (rest : List Token) :
      Passes env (a.tells s rest) (lostIn fin a.blocks) := by
    rw [hblocks]
    exact passes_naming fun _ => a.isNaming_of_mem_tells hσ
  cases σ with
  | expression | chain | arguments | moreArguments => exact hpasses
  | _ => cases hσ

end Runs

/-- What every tree does to the flags. -/
theorem Grammar.Tree.runs (env : Surroundings) (fin : Position) (a : Tree σ) : a.Runs env fin := by
  have expression (a : Tree (.expression 0)) (s : Bool) (rest : List Token) :
      Passes env (a.tells s rest) [] :=
    passes_naming fun _ => a.isNaming_of_mem_tells rfl
  induction a with
  | atom | group | member | call | index | property | link | sign | operand | operation | noArgument
  | firstArgument | lastArgument
  | nextArgument => exact runs_expression rfl _
  | block _ _ _ ih => exact runs_block ih
  | noStatement =>
    intro s b rest _
    have hpending : pending fin s.returned s.warned noStatement.items = [] := by
      simp [pending, goesOn, items]
    rw [hpending]
    exact ⟨.refl _, rfl⟩
  | nextStatement _ _ iha ihb => exact runs_nextStatement iha ihb
  | empty _ => exact runs_of_passes rfl fun _ _ => passes_naming (by simp)
  | simple a _ _ =>
    refine runs_of_passes rfl fun _ _ => passes_naming fun e he => ?_
    exact (List.mem_append.1 he).elim isNaming_of_mem_assigned (a.isNaming_of_mem_tells rfl)
  | nested _ ih => exact runs_of_passes rfl ih
  | returnNothing _ _ =>
    exact runs_of_returned rfl rfl fun _ _ => ⟨[], rfl, passes_naming (by simp)⟩
  | returnValue _ a _ _ => exact runs_of_returned rfl rfl fun _ _ => ⟨_, rfl, expression a _ _⟩
  | ifThen _ _ ih => exact runs_of_passes rfl ih
  | whileDo _ _ a _ _ _ ihb =>
    exact runs_of_passes rfl fun s rest => (expression a _ _).append (ihb s rest)
  | forTo _ _ _ a _ b _ _ _ ihc =>
    exact runs_of_passes rfl fun s rest =>
      (passes_bound _).append (((expression a _ _).append (expression b _ _)).append (ihc s rest))
  | forEach _ _ _ _ a _ _ ihb | forEachTyped _ _ _ _ _ a _ _ ihb =>
    exact runs_of_passes rfl fun s rest =>
      (passes_bound _).append ((expression a _ _).append (ihb s rest))
  | switch _ _ a _ _ _ _ _ ihb =>
    exact runs_of_passes rfl fun s _ => (expression a _ _).append (ihb s _)
  | conditional _ a _ _ _ _ ihb ihc | caseEntry _ _ a _ _ _ _ ihb ihc =>
    intro s rest
    rw [blocks, lostIn_append]
    exact ((expression a _ _).append (ihb s _)).append (ihc s rest)
  | defaultEntry _ _ _ ihb ihc =>
    intro s rest
    rw [blocks, lostIn_append]
    exact (ihb s _).append (ihc s rest)
  | noElse | noEntry => exact fun _ _ => passes_naming (by simp)
  | otherwise _ _ ih | otherwiseIf _ _ _ ih => exact ih

/-- No complaint about an unused name is about unreachable statements. -/
theorem filter_unused_unreachable (env : Surroundings) (s : Scope) :
    (env.unused s).filter (·.issue == .unreachable) = [] := by
  refine List.filter_eq_nil_iff.2 fun d hd => ?_
  obtain ⟨t, -, rfl⟩ := List.mem_map.1 hd
  simp

/-- **Unreachable statements are told once for each block.** There are as many complaints as there
are blocks with a return that is not their last statement, and each of them stands at the first
token behind the first return of its block. -/
theorem unreachable_once_per_block (env : Surroundings) (fin : Position) (a : Tree .statements) :
    ((checkTokens env fin a.tokens).filter (·.code == "MS-W026")).length =
      (a.items :: a.blocks).countP goesOn ∧
        ((checkTokens env fin a.tokens).filter (·.code == "MS-W026")).Perm
        (((a.items :: a.blocks).filter goesOn).map fun b =>
          ⟨posAt fin (behindReturn b), .unreachable⟩) := by
  have hcode (d : Diagnostic) : (d.code == "MS-W026") = (d.issue == .unreachable) :=
    Bool.eq_iff_iff.2 (by simpa [Diagnostic.code] using Issue.code_eq_unreachable)
  have hfound : (checkTokens env fin a.tokens).filter (·.code == "MS-W026") =
      env.unreached {} (a.tells false []) := by
    rw [List.filter_congr fun d _ => hcode d, filter_checkTokens fun d hd => by
      rw [eq_of_beq hd]; rfl, env.analyse_eq_along, List.filter_append, filter_unused_unreachable,
      List.append_nil]
    rfl
  have hperm :
      ((checkTokens env fin a.tokens).filter (·.code == "MS-W026")).Perm
        (lostIn fin (a.items :: a.blocks)) := by
    rw [hfound, lostIn_cons]
    exact (a.runs env fin {} false [] (by decide)).1
  refine ⟨?_, hperm⟩
  rw [hperm.length_eq, lostIn, List.length_map, List.countP_eq_length_filter]

end Partitura.ManuScript
