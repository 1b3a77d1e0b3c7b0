import Partitura.Lint.Calls
import Partitura.Proofs.ManuScript.Locations

/-!
# Where the tokens of plugins are said to stand

In a plugin a line feed between tokens is counted twice: once as a character, and once more as the
start of a line. A line feed inside a string is counted once. So tokens stand in the columns that
are told for them, but from the first loose line feed on the told lines drift away from the true
ones (`Drifted`), by one for each loose line feed before the token (`looseFeeds`). Calls and what is
wrong with the number of their arguments are told at the tokens of the names, and drift with them.
-/

namespace Partitura.ManuScript

/-! ## Places further down -/

/-- The place `k` lines further down. -/
def Position.down (p : Position) (k : Nat) : Position := ⟨p.line + k, p.col⟩

theorem Position.step_down (p : Position) (k : Nat) (c : Char) :
    (p.down k).step c = (p.step c).down k := by
  unfold Position.step
  split
  · simp only [Position.down, Position.mk.injEq, and_true]
    omega
  · rfl

theorem Position.after_down (p : Position) (k : Nat) (cs : List Char) :
    (p.down k).after cs = (p.after cs).down k := by
  induction cs generalizing p with
  | nil => rfl
  | cons c cs ih =>
    simp only [Position.after, List.foldl_cons] at ih ⊢
    rw [Position.step_down, ih]

theorem Position.down_eq_self_iff {p : Position} {k : Nat} : p.down k = p ↔ k = 0 := by
  obtain ⟨line, col⟩ := p
  simp only [Position.down, Position.mk.injEq, and_true]
  omega

instance decidableCovers (m : Nat × Token) (i : Nat) : Decidable (Covers m i) :=
  inferInstanceAs (Decidable (_ ∧ _))

/-- The number of line feeds before the character `i` that are in no token. -/
def looseFeeds (cs : List Char) (marks : List (Nat × Token)) (i : Nat) : Nat :=
  (List.range i).countP fun j => cs[j]? = some '\n' ∧ ∀ m ∈ marks, ¬ Covers m j

namespace Lexer

variable {cs : List Char} {n : Nat} {q : Piece}

/-- The number of line feeds before the character `i` that are pieces of their own. -/
def drift (cs : List Char) (i : Nat) : Nat :=
  (List.range i).countP fun j => (j, Piece.gap '\n') ∈ offsets 0 (pieces .plugin cs)

theorem drift_add (h : (n, q) ∈ offsets 0 (pieces .plugin cs)) :
    drift cs (n + q.text.length) = drift cs n + if q = .gap '\n' then 1 else 0 := by
  unfold drift
  rw [List.range_add, List.countP_append, List.countP_map]
  congr 1
  split
  · next hq =>
    subst hq
    simpa [Piece.text] using h
  · next hq =>
    rw [List.countP_eq_zero]
    intro j hj hfeed
    have hfeed : (n + j, Piece.gap '\n') ∈ offsets 0 (pieces .plugin cs) := by simpa using hfeed
    have hj := List.mem_range.1 hj
    -- two pieces with a character in common are the same one
    have heq :=
      eq_of_mem_offsets h hfeed (i := n + j) ⟨by simp, by simpa using hj⟩
        ⟨by simp, by simp [Piece.text]⟩
    exact hq (Prod.mk.inj heq).2

/-- The place that is told for the character with the number `i`. -/
def toldPlace (p : Position) (cs : List Char) (i : Nat) : Position :=
  (p.ofOffset cs i).down (drift cs i)

/-- The place after a piece is told from the place where it starts. -/
theorem afterPiece_toldPlace (p : Position) (h : (n, q) ∈ offsets 0 (pieces .plugin cs)) :
    afterPiece .plugin (toldPlace p cs n) q = toldPlace p cs (n + q.text.length) := by
  obtain ⟨t, ht⟩ := isPrefix_of_mem_offsets h
  rw [flatMap_text_pieces, Nat.sub_zero] at ht
  dsimp only at ht
  have hle : n + q.text.length ≤ cs.length := by
    have hpos := q.length_text_pos
    have hlength := congrArg List.length ht
    simp only [List.length_append, List.length_drop] at hlength
    omega
  have hplace : p.ofOffset cs (n + q.text.length) = (p.ofOffset cs n).after q.text := by
    rw [← Position.after_take p hle, ← Position.after_take p (Nat.le_of_add_right_le hle),
      List.take_add, ← ht, List.take_left]
    exact List.foldl_append
  unfold toldPlace
  rw [hplace, drift_add h]
  split
  · next hq =>
    subst hq
    simp only [afterPiece, Position.down, Position.after, Piece.text, List.foldl_cons,
      List.foldl_nil, Position.step, Position.mk.injEq, and_true, if_true]
    omega
  · next hq =>
    have hafter : afterPiece .plugin ((p.ofOffset cs n).down (drift cs n)) q =
        ((p.ofOffset cs n).down (drift cs n)).after q.text := by
      unfold afterPiece
      split
      · exact absurd rfl hq
      · rfl
    rw [hafter, Position.after_down, Nat.add_zero]

theorem place_eq_map_toldPlace (p : Position) {ps : List Piece}
    (h : ∀ x ∈ offsets n ps, x ∈ offsets 0 (pieces .plugin cs)) :
    place .plugin (toldPlace p cs n) ps = (offsets n ps).map fun x =>
      (toldPlace p cs x.1, x.2) := by
  induction ps generalizing n with
  | nil => rfl
  | cons q ps ih =>
    rw [offsets, List.forall_mem_cons] at h
    rw [place, offsets, List.map_cons, afterPiece_toldPlace p h.1, ih h.2]

theorem foldl_afterPiece_toldPlace (p : Position) {ps : List Piece}
    (h : ∀ x ∈ offsets n ps, x ∈ offsets 0 (pieces .plugin cs)) :
    ps.foldl (afterPiece .plugin)
    (toldPlace p cs n) = toldPlace p cs (n + (ps.flatMap Piece.text).length) := by
  induction ps generalizing n with
  | nil => rfl
  | cons q ps ih =>
    rw [offsets, List.forall_mem_cons] at h
    rw [List.foldl_cons, afterPiece_toldPlace p h.1, ih h.2, List.flatMap_cons,
      List.length_append, Nat.add_assoc]

theorem toldPlace_zero (p : Position) (cs : List Char) : toldPlace p cs 0 = p := by
  simp [toldPlace, Position.ofOffset, drift, Position.down]

end Lexer

/-! ## Tokens -/

open Lexer

/-- The tokens of a lexed plugin as segments of the text, with what is told about their places. -/
structure Drifted (cs : List Char) (l : Lexed) (marks : List (Nat × Token)) : Prop where
  /-- All tokens are told, in order, and the end of the text stands after its last character. -/
  all_eq : l.all =
    marks.map Prod.snd ++
      [⟨.fin, "", ((Position.mk 1 1).ofOffset cs cs.length).down (looseFeeds cs marks cs.length)⟩]
  /-- A token has the text of its segment. -/
  spelled : ∀ m ∈ marks, m.2.text ≠ "" ∧ m.2.text.toList <+: cs.drop m.1
  /-- A segment ends before the next one starts. -/
  apart : marks.Pairwise fun m m' => m.1 + m.2.text.length ≤ m'.1
  /-- A character outside of all tokens is white space, or starts no token. -/
  outside : ∀ i c r, cs.drop i = c :: r → (∀ m ∈ marks, ¬ Covers m i) → isGap c = true ∨
    front .plugin c r = .stray c
  /-- A token stands in its column, but as many lines down as there are line feeds before it that
  belong to no token. -/
  placed : ∀ m ∈ marks, m.2.pos = ((Position.mk 1 1).ofOffset cs m.1).down (looseFeeds cs marks m.1)

/-- The tokens of a plugin, each with the number of its first character. -/
def pluginMarks (cs : List Char) : List (Nat × Token) := marksAt (toldPlace ⟨1, 1⟩ cs) .plugin cs

variable {cs : List Char}

/-- The line feeds that belong to no token are the pieces that let the told lines drift. -/
theorem looseFeeds_pluginMarks (cs : List Char) (i : Nat) :
    looseFeeds cs (pluginMarks cs) i = drift cs i := by
  unfold looseFeeds drift
  refine List.countP_congr fun j _ => ?_
  simp only [decide_eq_true_eq]
  constructor
  · rintro ⟨hfeed, hout⟩
    obtain ⟨hj, hget⟩ := List.getElem?_eq_some_iff.1 hfeed
    have hdrop : cs.drop j = '\n' :: cs.drop (j + 1) := by rw [List.drop_eq_getElem_cons hj, hget]
    rcases piece_of_not_covers hdrop hout with ⟨hpiece, -⟩ | ⟨-, hstray⟩
    · exact hpiece
    · have := not_isGap_of_stray hstray
      cases this
  · intro hpiece
    obtain ⟨c, r, hdrop, hfront⟩ := front_of_mem_offsets hpiece
    obtain ⟨rfl, -⟩ := first_of_front_gap hfront.symm
    refine ⟨?_, fun m hm => not_covers_of_mem_offsets hpiece (by simp) hm⟩
    rw [Nat.sub_zero] at hdrop
    rw [← List.head?_drop, hdrop, List.head?_cons]

theorem drifted_lex (cs : List Char) : Drifted cs (lex .plugin ⟨1, 1⟩ cs) (pluginMarks cs) where
  all_eq := by
    have hplace : place .plugin (toldPlace ⟨1, 1⟩ cs 0) (pieces .plugin cs) = _ :=
      place_eq_map_toldPlace ⟨1, 1⟩ fun x hx => hx
    have hfin : (pieces .plugin cs).foldl (afterPiece .plugin) (toldPlace ⟨1, 1⟩ cs 0) = _ :=
      foldl_afterPiece_toldPlace ⟨1, 1⟩ fun x hx => hx
    rw [toldPlace_zero] at hplace hfin
    rw [flatMap_text_pieces, Nat.zero_add] at hfin
    rw [Lexed.all, Lexed.finToken, looseFeeds_pluginMarks, pluginMarks,
      map_snd_marksAt hplace, lex, hfin]
    rfl
  spelled := fun _ hm => spelled_of_mem_marksAt hm
  apart := pairwise_marksAt _ _ cs
  outside := by
    intro i c r hc hout
    exact (piece_of_not_covers hc hout).imp And.right And.right
  placed := by
    intro m hm
    obtain ⟨k, c, r, hx, ht⟩ := mem_marksAt.1 hm
    rw [ht, looseFeeds_pluginMarks]
    rfl

/-! ## Calls -/

namespace Call

theorem countArguments_suffix (depth commas : Nat) (filled : Bool) (ts : List Token) :
    (countArguments depth commas filled ts).2 <:+ ts := by
  fun_induction countArguments depth commas filled ts <;> simp_all [List.suffix_cons_iff]

/-- The name that is called is one of the tokens. -/
def NamedIn (c : Call) (ts : List Token) : Prop :=
  ∃ t ∈ ts, t.kind = .identifier ∧ t.text = c.name ∧ t.pos = c.pos

theorem NamedIn.mono {c : Call} {ts us : List Token} (h : NamedIn c ts) (hsub : ts ⊆ us) :
    NamedIn c us := by
  obtain ⟨t, ht, hnamed⟩ := h
  exact ⟨t, hsub ht, hnamed⟩

/-- A call is told at the place of its name. -/
theorem namedIn_of_mem_ofTokens {ts : List Token} : ∀ c ∈ ofTokens ts, NamedIn c ts := by
  -- a call of a given name is named by it, or by a token behind it
  refine ofTokens.induct
    (fun object name ts => name.kind = .identifier → ∀ c ∈ ofTokens.ofName object name ts,
      NamedIn c (name :: ts))
    (fun ts => ∀ c ∈ ofTokens ts, NamedIn c ts) ?_ ?_ ?_ ?_ ?_ ?_ ?_ ?_ ?_ ts
  · intro object name _ c hc
    simp [ofTokens.ofName] at hc
  · intro object name t r ht n rest hcount _ ih hname c hc
    rw [ofTokens.ofName, if_pos ht] at hc
    split at hc
    next n' rest' hcount' =>
    obtain ⟨rfl, rfl⟩ := Prod.mk.inj (hcount.symm.trans hcount')
    rcases List.mem_cons.1 hc with rfl | hc
    · exact ⟨name, List.mem_cons_self, hname, rfl, rfl⟩
    · have hrest : rest ⊆ r := by
        have hsuffix := countArguments_suffix 0 0 false r
        rw [hcount] at hsuffix
        exact hsuffix.subset
      exact (ih c hc).mono fun u hu => List.mem_cons_of_mem _ (List.mem_cons_of_mem _ (hrest hu))
  · intro object name t r ht ih _ c hc
    rw [ofTokens.ofName, if_neg ht] at hc
    exact (ih c hc).mono (List.subset_cons_self _ _)
  · intro c hc
    simp [ofTokens] at hc
  · intro t ht d m s hd hm ih c hc
    rw [ofTokens, if_pos ht, if_pos hd, if_pos hm] at hc
    exact (ih hm c hc).mono (by simp)
  · intro t ht d m s hd hm ih c hc
    rw [ofTokens, if_pos ht, if_pos hd, if_neg hm] at hc
    exact (ih c hc).mono (List.subset_cons_self _ _)
  · intro t ht d m s hd ih c hc
    rw [ofTokens, if_pos ht, if_neg hd] at hc
    exact ih ht c hc
  · intro t ht s hs ih c hc
    rw [ofTokens, if_pos ht] at hc
    · exact ih ht c hc
    · exact hs
  · intro t r ht ih c hc
    rw [ofTokens.eq_def] at hc
    dsimp only at hc
    rw [if_neg ht] at hc
    exact (ih c hc).mono (List.subset_cons_self _ _)

end Call

theorem exists_mark_of_namedIn {l : Lexed} {marks : List (Nat × Token)} (h : Drifted cs l marks)
    {c : Call} (hc : c.NamedIn l.all) :
    ∃ m ∈ marks, m.2.kind = .identifier ∧ m.2.text = c.name ∧ m.2.pos = c.pos := by
  obtain ⟨t, ht, hkind, hnamed⟩ := hc
  rw [h.all_eq, List.mem_append, List.mem_singleton, List.mem_map] at ht
  rcases ht with ⟨m, hm, rfl⟩ | rfl
  · exact ⟨m, hm, hkind, hnamed⟩
  · cases hkind

theorem call_of_callIssue? {language : Language} {c : Call} {d : Diagnostic}
    (h : Lint.callIssue? language c = some d) :
    d.pos = c.pos ∧ ∃ bound got, d.issue = .tooFewArguments c.name bound got ∨
      d.issue = .tooManyArguments c.name bound got := by
  unfold Lint.callIssue? at h
  split at h
  · cases h
  · split at h
    · cases h
      exact ⟨rfl, _, _, .inl rfl⟩
    · split at h
      · cases h
        exact ⟨rfl, _, _, .inr rfl⟩
      · cases h

/-- **Tokens and calls are told too far down.** The tokens of a plugin are its segments, in order
and with nothing but white space and stray characters between them. Each one is told in its own
column, and in its own line if and only if every line feed before it is inside a token; otherwise it
is told one line further down for each one that is not. Every call is told at the place that is told
for its name, and so is every call that has too few or too many arguments. -/
theorem drifted_lexPlugin (language : Language) (s : String) :
    ∃ marks, Drifted s.toList (lexPlugin s) marks ∧
      (∀ m ∈ marks, m.2.pos = (Position.mk 1 1).ofOffset s.toList m.1 ↔
        looseFeeds s.toList marks m.1 = 0) ∧
      (∀ c ∈ Call.ofPlugin s, ∃ m ∈ marks, m.2.kind = .identifier ∧ m.2.text = c.name ∧
        m.2.pos = c.pos) ∧
      ∀ d ∈ Lint.callIssues language s.toList, ∃ m ∈ marks, m.2.kind = .identifier ∧
        m.2.pos = d.pos ∧ ∃ bound got, d.issue = .tooFewArguments m.2.text bound got ∨
          d.issue = .tooManyArguments m.2.text bound got := by
  have hdrifted := drifted_lex s.toList
  refine ⟨pluginMarks s.toList, hdrifted, fun m hm => ?_, fun c hc => ?_, fun d hd => ?_⟩
  · rw [hdrifted.placed m hm, Position.down_eq_self_iff]
  · exact exists_mark_of_namedIn hdrifted (Call.namedIn_of_mem_ofTokens c hc)
  · obtain ⟨c, hc, hissue⟩ := List.mem_filterMap.1 hd
    obtain ⟨m, hm, hkind, hname, hpos⟩ :=
      exists_mark_of_namedIn hdrifted (Call.namedIn_of_mem_ofTokens c hc)
    obtain ⟨hplace, hnames⟩ := call_of_callIssue? hissue
    refine ⟨m, hm, hkind, hpos.trans hplace.symm, ?_⟩
    rw [hname]
    exact hnames

/-- A call in the second line is told in the third one, but not if the first line ends inside a
string. -/
theorem call_on_second_line : Call.ofPlugin "\nf();" = [⟨⟨3, 1⟩, none, "f", 0⟩] ∧
    (Position.mk 1 1).ofOffset "\nf();".toList 1 = ⟨2, 1⟩ ∧
    Call.ofPlugin "'\n'f();" = [⟨⟨2, 2⟩, none, "f", 0⟩] ∧
      (Position.mk 1 1).ofOffset "'\n'f();".toList 3 = ⟨2, 2⟩ := by
  decide +kernel

end Partitura.ManuScript
