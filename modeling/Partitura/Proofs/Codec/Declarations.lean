import Mathlib.Data.List.Infix
import Mathlib.Data.List.TakeWhile
import Partitura.Codec.Recode
import Partitura.Proofs.Text.Classes

/-!
# The name of the encoding in a declaration

A document in another encoding has another name in its declaration. `Relabels` says what is done to
the declaration: each label is replaced by the new one and all else stays. It is a symmetric
relation (`Relabels.symm`), because a replacement neither makes nor breaks other labels: the words
of a label cannot start before another one and go on inside of it, and both the old and the new
label have quotes. So if all labels of a declaration name one encoding, this name can be put back
(`relabel_relabel`).
-/

namespace Partitura.Text

theorem stripStart?_eq_some_iff {w cs r : List Char} : stripStart? w cs = some r ↔ cs = w ++ r := by
  fun_induction stripStart? w cs with
  | case1 r' => simp [eq_comm]
  | case2 => simp
  | case3 a w c s hc ih => simp [ih, eq_of_beq hc]
  | case4 a w c s hc => simp [Ne.symm (by simpa using hc : a ≠ c)]

end Partitura.Text

namespace Partitura.Codec

open Text

variable {w r d : List Char} {c : Char}

/-! ## Labels -/

/-- The name of an encoding in quotes of either kind, with the words before it. -/
inductive Label : List Char → Prop where
  | quoted {q q' : Char} {name : List Char} :
      isQuote q = true → (∀ c ∈ name, isQuote c = false) → isQuote q' = true →
      Label ("encoding=".toList ++ q :: (name ++ [q']))

/-- A label starts where its words and a quote stand, and a second quote somewhere behind them. -/
theorem exists_label {q : Char} (hq : isQuote q = true) {z : List Char}
    (hz : ∃ c ∈ z, isQuote c = true) : ∃ w r, "encoding=".toList ++ q :: z = w ++ r ∧ Label w := by
  obtain ⟨q', hfind⟩ := Option.isSome_iff_exists.1 (List.find?_isSome.2 hz)
  obtain ⟨hq', name, r, rfl, hname⟩ := List.find?_eq_some_iff_append.1 hfind
  exact ⟨"encoding=".toList ++ q :: (name ++ [q']), r, by simp,
    .quoted hq (fun c hc => by simpa using hname c hc) hq'⟩

theorem exists_of_encodingLabel? {cs : List Char} {n : Nat} (h : encodingLabel? cs = some n) :
    ∃ w r, cs = w ++ r ∧ Label w := by
  unfold encodingLabel? at h
  split at h
  · next q r hstrip =>
    rw [stripStart?_eq_some_iff.1 hstrip]
    have hif := (Option.ite_none_right_eq_some.1 h).1
    simp only [Bool.and_eq_true, decide_eq_true_eq] at hif
    refine exists_label hif.1 (Classical.byContradiction fun hnone => ?_)
    have hall : r.takeWhile (!isQuote ·) = r := by
      refine List.takeWhile_eq_self_iff.2 fun c hc => ?_
      simpa using fun hquote => hnone ⟨c, hc, hquote⟩
    rw [hall] at hif
    exact Nat.lt_irrefl _ hif.2
  · cases h

/-- The label at the front of a text is found. -/
theorem encodingLabel?_append (h : Label w) (r : List Char) :
    encodingLabel? (w ++ r) = some w.length := by
  cases h with
  | @quoted q q' name hq hname hq' =>
    have hstrip : stripStart? "encoding=".toList ("encoding=".toList ++ q :: (name ++ [q']) ++ r) =
        some (q :: (name ++ q' :: r)) :=
      stripStart?_eq_some_iff.2 (by simp)
    have htake : (name ++ q' :: r).takeWhile (!isQuote ·) = name := by
      rw [List.takeWhile_append_of_pos (fun c hc => by simp [hname c hc]),
        List.takeWhile_cons_of_neg (by simp [hq']), List.append_nil]
    have hwords : "encoding=".length = 9 := rfl
    rw [encodingLabel?, hstrip]
    simp [hq, htake]
    omega

theorem encodingLabel?_eq_none_iff {cs : List Char} :
    encodingLabel? cs = none ↔ ¬ ∃ w, Label w ∧ w <+: cs := by
  constructor
  · rintro hnone ⟨w, hw, r, rfl⟩
    rw [encodingLabel?_append hw] at hnone
    cases hnone
  · intro hnone
    refine Option.eq_none_iff_forall_ne_some.2 fun n hn => ?_
    obtain ⟨w, r, rfl, hw⟩ := exists_of_encodingLabel? hn
    exact hnone ⟨w, hw, List.prefix_append w r⟩

theorem Label.exists_cons (h : Label w) : ∃ r, w = 'e' :: r := by
  cases h with
  | quoted => exact ⟨_, rfl⟩

theorem Label.exists_quote (h : Label w) : ∃ c ∈ w, isQuote c = true := by
  cases h with
  | @quoted q q' name hq => exact ⟨q, by simp, hq⟩

/-! ## Replacing labels -/

theorem relabelAll_skip (label : List Char) (k : Nat) (cs : List Char) :
    relabelAll label k cs = relabelAll label 0 (cs.drop k) := by
  induction cs generalizing k with
  | nil => rw [List.drop_nil, relabelAll, relabelAll]
  | cons c r ih =>
    cases k with
    | zero => rfl
    | succ k => rw [relabelAll, ih, List.drop_succ_cons]

theorem relabelAll_label (h : Label w) (label r : List Char) :
    relabelAll label 0 (w ++ r) = label ++ relabelAll label 0 r := by
  have hfind := encodingLabel?_append h r
  obtain ⟨v, rfl⟩ := h.exists_cons
  rw [List.cons_append] at hfind ⊢
  rw [relabelAll, hfind]
  simp [relabelAll_skip label v.length]

theorem relabelAll_char (h : encodingLabel? (c :: r) = none) (label : List Char) :
    relabelAll label 0 (c :: r) = c :: relabelAll label 0 r := by
  rw [relabelAll, h]

/-- One text is the other with each label, all of them `old`, replaced by `new`. -/
inductive Relabels (old new : List Char) : List Char → List Char → Prop where
  | nil : Relabels old new [] []
  | label {r r' : List Char} : Relabels old new r r' → Relabels old new (old ++ r) (new ++ r')
  | char {c : Char} {r r' : List Char} : encodingLabel? (c :: r) = none → Relabels old new r r' →
      Relabels old new (c :: r) (c :: r')

/-- In a text with one label only, that label is replaced. -/
theorem relabels_relabelAll {old : List Char} (new : List Char) {t : List Char}
    (h : ∀ w, Label w → w <:+: t → w = old) : Relabels old new t (relabelAll new 0 t) := by
  induction hn : t.length using Nat.strong_induction_on generalizing t with
  | _ n ih =>
    subst hn
    cases t with
    | nil => exact .nil
    | cons c r =>
      cases hlabel : encodingLabel? (c :: r) with
      | none =>
        rw [relabelAll_char hlabel]
        exact .char hlabel
          (ih r.length (by simp)
            (fun w hw hr => h w hw (hr.trans (List.infix_cons (List.infix_refl r)))) rfl)
      | some n =>
        obtain ⟨w, rest, heq, hw⟩ := exists_of_encodingLabel? hlabel
        have hold := h w hw (heq ▸ (List.prefix_append w rest).isInfix)
        have hlength := congrArg List.length heq
        obtain ⟨v, hv⟩ := hw.exists_cons
        rw [heq, relabelAll_label hw, ← hold]
        refine .label (hold ▸ ih rest.length ?_ (fun w' hw' hr => ?_) rfl)
        · rw [hlength, hv, List.length_append, List.length_cons]
          omega
        · exact h w' hw' (heq ▸ hr.trans (List.suffix_append w rest).isInfix)

namespace Relabels

variable {old new t t' : List Char}

theorem relabelAll_eq (h : Relabels old new t t') (hold : Label old) : relabelAll new 0 t = t' := by
  induction h with
  | nil => rfl
  | label _ ih => rw [relabelAll_label hold, ih]
  | char hnone _ ih => rw [relabelAll_char hnone, ih]

/-- Characters that are not the first letter of a label are kept. -/
theorem exists_of_append (h : Relabels old new t t') (hnew : Label new) {x y : List Char}
    (hx : 'e' ∉ x) (ht' : t' = x ++ y) : ∃ z, t = x ++ z ∧ Relabels old new z y := by
  induction x generalizing t t' with
  | nil =>
    subst ht'
    exact ⟨t, rfl, h⟩
  | cons a x ih =>
    obtain ⟨ha, hrest⟩ := not_or.1 (List.mem_cons.not.1 hx)
    cases h with
    | nil => cases ht'
    | label hr =>
      obtain ⟨v, rfl⟩ := hnew.exists_cons
      exact absurd (List.cons.inj ht').1 ha
    | char _ hr =>
      obtain ⟨rfl, heq⟩ := List.cons.inj ht'
      obtain ⟨z, rfl, hz⟩ := ih hr hrest heq
      exact ⟨z, rfl, hz⟩

theorem eq_nil (h : Relabels old new t t') (hnew : Label new) (ht' : t' = []) : t = [] := by
  cases h with
  | nil => rfl
  | label _ =>
    obtain ⟨v, rfl⟩ := hnew.exists_cons
    cases ht'
  | char _ _ => cases ht'

theorem exists_quote (h : Relabels old new t t') (hold : Label old)
    (hquote : ∃ c ∈ t', isQuote c = true) : ∃ c ∈ t, isQuote c = true := by
  induction h with
  | nil => exact hquote
  | label _ _ =>
    obtain ⟨c, hc, hq⟩ := hold.exists_quote
    exact ⟨c, List.mem_append_left _ hc, hq⟩
  | @char c r r' _ _ ih =>
    obtain ⟨x, hx, hq⟩ := hquote
    rcases List.mem_cons.1 hx with rfl | hx
    · exact ⟨x, List.mem_cons_self, hq⟩
    · obtain ⟨y, hy, hq⟩ := ih ⟨x, hx, hq⟩
      exact ⟨y, List.mem_cons_of_mem _ hy, hq⟩

/-- A place where no label starts is none afterwards: what would be the words of one are kept, and
so is a quote behind them. -/
theorem encodingLabel?_eq_none (h : Relabels old new t t') (hold : Label old) (hnew : Label new)
    (hnone : encodingLabel? (c :: t) = none) : encodingLabel? (c :: t') = none := by
  refine encodingLabel?_eq_none_iff.2 ?_
  rintro ⟨w, hw, r, hr⟩
  cases hw with
  | @quoted q q' name hq hname hq' =>
    have hwords : 'e' ∉ "ncoding=".toList ++ [q] := by
      simp
      rintro rfl
      cases hq
    have hsplit : c = 'e' ∧ t' = "ncoding=".toList ++ [q] ++ (name ++ q' :: r) := by
      simpa [eq_comm] using hr
    obtain ⟨rfl, ht'⟩ := hsplit
    obtain ⟨z, rfl, hz⟩ := h.exists_of_append hnew hwords ht'
    obtain ⟨v, s, heq, hv⟩ := exists_label hq (hz.exists_quote hold ⟨q', by simp, hq'⟩)
    exact encodingLabel?_eq_none_iff.1 hnone ⟨v, hv, s, heq.symm⟩

/-- The old labels can be put back. -/
theorem symm (h : Relabels old new t t') (hold : Label old) (hnew : Label new) :
    Relabels new old t' t := by
  induction h with
  | nil => exact .nil
  | label _ ih => exact .label ih
  | char hnone hr ih => exact .char (hr.encodingLabel?_eq_none hold hnew hnone) ih

theorem mem (h : Relabels old new t t') (hc : c ∈ t') : c ∈ t ∨ c ∈ new := by
  induction h with
  | nil => exact .inl hc
  | label _ ih =>
    rcases List.mem_append.1 hc with hc | hc
    · exact .inr hc
    · exact (ih hc).imp_left (List.mem_append_right _)
  | char _ _ ih =>
    rcases List.mem_cons.1 hc with rfl | hc
    · exact .inl List.mem_cons_self
    · exact (ih hc).imp_left (List.mem_cons_of_mem _)

end Relabels

/-! ## Declarations -/

/-- The declaration of a document: the text up to the first `?>`. -/
def declaration : List Char → List Char
  | [] => []
  | '?' :: '>' :: _ => ['?', '>']
  | c :: r => c :: declaration r

/-- A text with one `?>`, at its end. -/
inductive Heading : List Char → Prop where
  | close : Heading ['?', '>']
  | char {c : Char} {r : List Char} : ¬ ['?', '>'] <+: c :: r → Heading r → Heading (c :: r)

theorem exists_heading {t : List Char} (h : "?>".toList <:+: t) :
    ∃ rest, t = declaration t ++ rest ∧ Heading (declaration t) := by
  fun_induction declaration t with
  | case1 => simp at h
  | case2 r => exact ⟨r, rfl, .close⟩
  | case3 c r hne ih =>
    have hclose : ¬ ['?', '>'] <+: c :: r := by
      rintro ⟨s, hs⟩
      exact hne s (List.cons.inj hs).1.symm (List.cons.inj hs).2.symm
    obtain ⟨rest, hr, hheading⟩ := ih ((List.infix_cons_iff.1 h).resolve_left hclose)
    refine ⟨rest, by rw [List.cons_append, ← hr], .char (fun hprefix => hclose ?_) hheading⟩
    rw [hr, ← List.cons_append]
    exact hprefix.trans (List.prefix_append ..)

/-- A heading ends at the first `?>` of a text that it starts. -/
theorem Heading.indexOf?_append (h : Heading d) (rest : List Char) :
    ∃ n, indexOf? "?>".toList (d ++ rest) = some n ∧ d.length = n + 2 := by
  induction h with
  | close => exact ⟨0, rfl, rfl⟩
  | @char c r hclose hr ih =>
    obtain ⟨n, hn, hlength⟩ := ih
    refine ⟨n + 1, ?_, by rw [List.length_cons, hlength]⟩
    have hno : ¬ "?>".toList.isPrefixOf (c :: (r ++ rest)) = true := fun hprefix => by
      refine hclose
        (List.prefix_of_prefix_length_le (List.isPrefixOf_iff_prefix.1 hprefix) ?_ (by simp; omega))
      exact List.prefix_append (c :: r) rest
    rw [List.cons_append, indexOf?, if_neg hno, hn]
    rfl

theorem heading_cons_iff (hc : c ≠ '?') : Heading (c :: r) ↔ Heading r := by
  constructor
  · intro h
    cases h with
    | close => exact absurd rfl hc
    | char _ h => exact h
  · refine .char ?_
    rintro ⟨s, hs⟩
    exact hc (List.cons.inj hs).1.symm

theorem heading_append_iff {x : List Char} (hx : '?' ∉ x) : Heading (x ++ r) ↔ Heading r := by
  induction x with
  | nil => rfl
  | cons c x ih =>
    obtain ⟨hc, hx⟩ := not_or.1 (List.mem_cons.not.1 hx)
    rw [List.cons_append, heading_cons_iff (Ne.symm hc), ih hx]

/-- Labels without question marks do not matter for the end of a declaration. -/
theorem Relabels.heading {old new d' : List Char} (h : Relabels old new d d') (hold : Label old)
    (hnew : Label new) (hmark : '?' ∉ old) (hmark' : '?' ∉ new) (hd : Heading d) : Heading d' := by
  induction h with
  | nil => exact hd
  | label _ ih => exact (heading_append_iff hmark').2 (ih ((heading_append_iff hmark).1 hd))
  | @char c r r' hnone hr ih =>
    cases hd with
    | close =>
      obtain ⟨z, rfl, hz⟩ :=
        (hr.symm hold hnew).exists_of_append hold (x := ['>']) (y := []) (by decide) rfl
      rw [hz.eq_nil hold rfl]
      exact .close
    | char hclose hd =>
      refine .char ?_ (ih hd)
      rintro ⟨s, hs⟩
      obtain ⟨rfl, rfl⟩ := List.cons.inj hs
      obtain ⟨z, rfl, -⟩ := hr.exists_of_append hnew (x := ['>']) (by decide) rfl
      exact hclose (List.prefix_append ['?', '>'] z)

/-! ## Documents -/

/-- The label of an encoding in the declaration of a document. -/
def Encoding.label (e : Encoding) : List Char :=
  "encoding=\"".toList ++ e.declaredName.toList ++ ['"']

theorem not_isQuote_of_mem_declaredName (e : Encoding) :
    ∀ c ∈ e.declaredName.toList, isQuote c = false := by
  apply forall_mem_of_all
  cases e with
  | utf16Plain order | utf32Plain order => cases order <;> decide
  | _ => decide

theorem label_label (e : Encoding) : Label e.label :=
  .quoted (q := '"') rfl (not_isQuote_of_mem_declaredName e) rfl

theorem not_mem_label (e : Encoding) : '?' ∉ e.label ∧ '\r' ∉ e.label := by
  cases e with
  | utf16Plain order | utf32Plain order => cases order <;> decide
  | _ => decide

/-- The new label is put into the declaration, and the text behind it stays. -/
theorem relabel_append (hd : Heading d) (hxml : "<?xml".toList <+: d) (e : Encoding)
    (rest : List Char) : relabel e (d ++ rest) = relabelAll e.label 0 d ++ rest := by
  obtain ⟨n, hn, hlength⟩ := hd.indexOf?_append rest
  have hstart : "<?xml".toList.isPrefixOf (d ++ rest) = true :=
    List.isPrefixOf_iff_prefix.2 (hxml.trans (List.prefix_append d rest))
  rw [relabel, if_pos hstart, hn]
  simp only [← hlength, List.take_left, List.drop_left]
  rfl

theorem isPrefix_declaration {s : List Char} (h : "<?xml".toList <+: s) :
    "<?xml".toList <+: declaration s := by
  obtain ⟨r, rfl⟩ := h
  exact ⟨declaration r, by simp [declaration]⟩

/-- A document with a declaration in which all labels name one encoding. -/
structure Labelled (e : Encoding) (s : List Char) : Prop where
  starts : "<?xml".toList <+: s
  ends : "?>".toList <:+: s
  labels : ∀ w, Label w → w <:+: declaration s → w = e.label

/-- A label in a text is found at the front of what follows. -/
theorem forall_label_iff {l : List Char} :
    (∀ w, Label w → w <:+: d → w = l) ↔ ∀ t ∈ d.tails, ∀ n ∈ encodingLabel? t, t.take n = l := by
  constructor
  · intro h t ht n hn
    obtain ⟨w, r, rfl, hw⟩ := exists_of_encodingLabel? hn
    rw [encodingLabel?_append hw, Option.mem_some] at hn
    rw [← hn, List.take_left]
    exact h w hw ((List.prefix_append w r).isInfix.trans ((List.mem_tails _ _).1 ht).isInfix)
  · rintro h w hw ⟨a, b, rfl⟩
    have htail : w ++ b ∈ (a ++ w ++ b).tails :=
      (List.mem_tails _ _).2 ⟨a, (List.append_assoc ..).symm⟩
    have htake := h (w ++ b) htail w.length (encodingLabel?_append hw b)
    rwa [List.take_left] at htake

instance decidableLabelled (e : Encoding) (s : List Char) : Decidable (Labelled e s) :=
  decidable_of_iff
    ("<?xml".toList <+: s ∧ "?>".toList <:+: s ∧ ∀ t ∈ (declaration s).tails,
      ∀ n ∈ encodingLabel? t, t.take n = e.label)
    ⟨fun h => ⟨h.1, h.2.1, forall_label_iff.2 h.2.2⟩,
      fun h => ⟨h.starts, h.ends, forall_label_iff.1 h.labels⟩⟩

namespace Labelled

variable {e : Encoding} {s : List Char}

/-- How a document and its copy with another label are made up. -/
theorem exists_relabels (h : Labelled e s) (e' : Encoding) :
    ∃ d d' rest, s = d ++ rest ∧ relabel e' s = d' ++ rest ∧
      Relabels e.label e'.label d d' ∧ Heading d' ∧ "<?xml".toList <+: d' := by
  obtain ⟨rest, hs, hheading⟩ := exists_heading h.ends
  have hxml := isPrefix_declaration h.starts
  have hrel := relabels_relabelAll e'.label h.labels
  have hheading' :=
    hrel.heading (label_label e) (label_label e') (not_mem_label e).1 (not_mem_label e').1 hheading
  refine ⟨declaration s, relabelAll e'.label 0 (declaration s), rest, hs, ?_, hrel, hheading', ?_⟩
  · conv => lhs; rw [hs]
    exact relabel_append hheading hxml e' rest
  · -- the letters of the opening are none of a label
    obtain ⟨r, hr⟩ := hxml
    obtain ⟨z, hz, -⟩ :=
      (hrel.symm (label_label e) (label_label e')).exists_of_append (label_label e)
        (x := "<?xml".toList)
      (by decide) hr.symm
    exact ⟨z, hz.symm⟩

/-- The name of the encoding can be put back. -/
theorem relabel_relabel (h : Labelled e s) (e' : Encoding) : relabel e (relabel e' s) = s := by
  obtain ⟨d, d', rest, rfl, hrelabel, hrel, hheading, hxml⟩ := h.exists_relabels e'
  have hback := hrel.symm (label_label e) (label_label e')
  rw [hrelabel, relabel_append hheading hxml, hback.relabelAll_eq (label_label e')]

theorem isPrefix_relabel (h : Labelled e s) (e' : Encoding) : "<?xml".toList <+: relabel e' s := by
  obtain ⟨d, d', rest, -, hrelabel, -, -, hxml⟩ := h.exists_relabels e'
  rw [hrelabel]
  exact hxml.trans (List.prefix_append d' rest)

theorem not_mem_relabel (h : Labelled e s) (hs : '\r' ∉ s) (e' : Encoding) :
    '\r' ∉ relabel e' s := by
  obtain ⟨d, d', rest, rfl, hrelabel, hrel, -, -⟩ := h.exists_relabels e'
  rw [hrelabel]
  intro hmem
  rcases List.mem_append.1 hmem with hmem | hmem
  · rcases hrel.mem hmem with hmem | hmem
    · exact hs (List.mem_append_left _ hmem)
    · exact (not_mem_label e').2 hmem
  · exact hs (List.mem_append_right _ hmem)

end Labelled

end Partitura.Codec
