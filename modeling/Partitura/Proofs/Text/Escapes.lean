import Partitura.Proofs.Text.Lines

/-!
# Escapes

A text in double quotes may hold a quote that a backslash stands before. `scan` reads on past
escapes and says whether the end of a text is escaped; it finds nothing in a text with a bare quote.
A line feed sets it back, so that a text can be scanned line by line (`scan_unlines_eq_none`). What
it finds can be said by counting: a quote is escaped if the number of backslashes right before it is
odd (`escaped_iff`).
-/

namespace Partitura.Text

variable {w cs : List Char} {c : Char}

/-- Whether the end of a text is escaped, when its front is or is not; nothing for a text with a
bare quote. -/
def scan : Bool → List Char → Option Bool
  | e, [] => some e
  | true, _ :: r => scan false r
  | false, c :: r => if c == '\\' then scan true r else if c == '"' then none else scan false r

@[simp] theorem scan_nil (e : Bool) : scan e [] = some e := by cases e <;> rfl

theorem scan_append (e : Bool) (a b : List Char) :
    scan e (a ++ b) = (scan e a).bind (scan · b) := by
  induction a generalizing e with
  | nil => simp
  | cons c r ih =>
    cases e with
    | true => exact ih false
    | false =>
      rw [List.cons_append, scan, scan]
      split
      · exact ih true
      · split
        · rfl
        · exact ih false

/-- Characters that neither escape nor are quotes. -/
theorem scan_of_forall (h : ∀ c ∈ w, c ≠ '\\' ∧ c ≠ '"') (e : Bool) :
    scan e w = some (if w = [] then e else false) := by
  induction w generalizing e with
  | nil => simp
  | cons c r ih =>
    have hr : scan false r = some false := by rw [ih (fun x hx => h x (by simp [hx]))]; simp
    cases e with
    | true => simpa [scan] using hr
    | false => simpa [scan, h c (by simp)] using hr

theorem scan_append_of_forall (h : ∀ c ∈ w, c ≠ '\\' ∧ c ≠ '"') (rest : List Char) :
    scan false (w ++ rest) = scan false rest := by
  rw [scan_append, scan_of_forall h]
  simp

/-- A line feed sets the scan back. -/
theorem scan_newline (e : Bool) (r : List Char) : scan e ('\n' :: r) = scan false r := by
  cases e <;> rfl

theorem scan_append_newline (e : Bool) (a b : List Char) :
    scan e (a ++ '\n' :: b) = (scan e a).bind fun _ => scan false b := by
  rw [scan_append]
  simp only [scan_newline]

/-- A text without double quotes has no bare one. -/
theorem scan_of_not_mem (h : '"' ∉ w) (e : Bool) : (scan e w).isSome = true := by
  induction w generalizing e with
  | nil => rfl
  | cons c r ih =>
    obtain ⟨hc, hr⟩ := not_or.1 (List.mem_cons.not.1 h)
    cases e with
    | true => exact ih hr false
    | false =>
      rw [scan, if_neg (show ¬ (c == '"') = true by simpa using Ne.symm hc)]
      split
      · exact ih hr true
      · exact ih hr false

theorem not_isBlank_backslash_quote (h : isBlank c = true) : c ≠ '\\' ∧ c ≠ '"' := by
  constructor <;> rintro rfl <;> exact absurd h (by decide)

theorem scan_allBlank_append {a : List Char} (h : AllBlank a) (rest : List Char) :
    scan false (a ++ rest) = scan false rest :=
  scan_append_of_forall (fun c hc => not_isBlank_backslash_quote (h c hc)) rest

/-- Blanks at the end do not hide a quote. -/
theorem scan_append_allBlank_eq_none {b : List Char} (h : AllBlank b) (e : Bool) (a : List Char) :
    scan e (a ++ b) = none ↔ scan e a = none := by
  rw [scan_append, Option.bind_eq_none_iff]
  constructor
  · intro hn
    cases ha : scan e a with
    | none => rfl
    | some e' =>
      have := hn e' ha
      rw [scan_of_forall fun c hc => not_isBlank_backslash_quote (h c hc)] at this
      cases this
  · intro hn e' he'
    rw [hn] at he'
    cases he'

theorem scan_trim_eq_none (cs : List Char) :
    scan false (trim cs) = none ↔ scan false cs = none := by
  obtain ⟨a, b, ha, hb, hcs⟩ := exists_trim cs
  conv_rhs => rw [hcs, scan_append_allBlank_eq_none hb, scan_allBlank_append ha]

/-- A text has a bare quote if one of its lines has. -/
theorem scan_unlines_eq_none {ls : List (List Char)} :
    scan false (unlines ls) = none ↔ ∃ l ∈ ls, scan false l = none := by
  induction ls with
  | nil => simp
  | cons l r ih =>
    by_cases hr : r = []
    · simp [hr]
    · rw [unlines_cons hr, scan_append_newline]
      cases hl : scan false l with
      | none => simp [hl]
      | some e => simp [hl, ih]

theorem scan_cons_of_ne (hc : c ≠ '\\' ∧ c ≠ '"') (e : Bool) (r : List Char) :
    scan e (c :: r) = scan false r := by
  cases e <;> simp [scan, hc]

/-! ## Counting backslashes -/

/-- The number of backslashes at the end of a text. -/
def backslashes (cs : List Char) : Nat := (cs.reverse.takeWhile (· == '\\')).length

/-- Every double quote of a text stands behind an odd number of backslashes, and the text does not
end with an odd number. -/
structure Escaped (cs : List Char) : Prop where
  quotes : ∀ a b, cs = a ++ '"' :: b → backslashes a % 2 = 1
  fin : backslashes cs % 2 = 0

theorem backslashes_concat (cs : List Char) (c : Char) :
    backslashes (cs ++ [c]) = if c = '\\' then backslashes cs + 1 else 0 := by
  by_cases hc : c = '\\' <;> simp [backslashes, hc]

theorem quotes_concat :
    (∀ a b, cs ++ [c] = a ++ '"' :: b → backslashes a % 2 = 1) ↔
      (∀ a b, cs = a ++ '"' :: b → backslashes a % 2 = 1) ∧ (c = '"' → backslashes cs % 2 = 1) := by
  constructor
  · intro h
    refine ⟨fun a b hab => h a (b ++ [c]) (by simp [hab]), ?_⟩
    rintro rfl
    exact h cs [] rfl
  · rintro ⟨h, hc⟩ a b hab
    rcases List.eq_nil_or_concat b with rfl | ⟨b, x, rfl⟩
    · obtain ⟨rfl, hx⟩ := List.append_inj' hab rfl
      exact hc (List.cons.inj hx).1
    · rw [List.concat_eq_append, ← List.cons_append, ← List.append_assoc] at hab
      exact h a b (List.append_inj' hab rfl).1

theorem scan_eq (cs : List Char) :
    ((∀ a b, cs = a ++ '"' :: b → backslashes a % 2 = 1) →
      scan false cs = some (decide (backslashes cs % 2 = 1))) ∧
      ((¬ ∀ a b, cs = a ++ '"' :: b → backslashes a % 2 = 1) → scan false cs = none) := by
  induction cs using List.reverseRecOn with
  | nil => simp [backslashes]
  | append_singleton cs c ih =>
    rw [scan_append, quotes_concat, backslashes_concat]
    by_cases hq : ∀ a b, cs = a ++ '"' :: b → backslashes a % 2 = 1
    · rw [ih.1 hq, Option.bind_some]
      by_cases hodd : backslashes cs % 2 = 1
      · have hnext : ¬ (if c = '\\' then backslashes cs + 1 else 0) % 2 = 1 := by split <;> omega
        exact ⟨fun _ => by simp [hodd, hnext, scan], fun h => absurd ⟨hq, fun _ => hodd⟩ h⟩
      · by_cases hc : c = '\\'
        · have hnext : (backslashes cs + 1) % 2 = 1 := by omega
          refine ⟨fun _ => by simp [hodd, hc, hnext, scan], fun h => absurd ⟨hq, fun hc' => ?_⟩ h⟩
          rw [hc] at hc'
          cases hc'
        · by_cases hquote : c = '"'
          · exact ⟨fun h => absurd (h.2 hquote) hodd, fun _ => by simp [hodd, hquote, scan]⟩
          · exact ⟨fun _ => by simp [hodd, hc, hquote, scan],
              fun h => absurd ⟨hq, fun hc' => absurd hc' hquote⟩ h⟩
    · rw [ih.2 hq]
      exact ⟨fun h => absurd h.1 hq, fun _ => rfl⟩

/-- A text is escaped when a quote behind it is the first bare one. -/
theorem escaped_iff : Escaped cs ↔ scan false cs = some false := by
  constructor
  · intro h
    rw [(scan_eq cs).1 h.quotes, h.fin]
    rfl
  · intro h
    have hq : ∀ a b, cs = a ++ '"' :: b → backslashes a % 2 = 1 := by
      by_contra hn
      rw [(scan_eq cs).2 hn] at h
      cases h
    refine ⟨hq, ?_⟩
    rw [(scan_eq cs).1 hq, Option.some.injEq, decide_eq_false_iff_not] at h
    omega

theorem escaped_concat (h : '"' ∉ cs) (hquote : c ≠ '"') (hbackslash : c ≠ '\\') :
    Escaped (cs ++ [c]) := by
  obtain ⟨e, he⟩ := Option.isSome_iff_exists.1 (scan_of_not_mem h false)
  rw [escaped_iff, scan_append, he]
  cases e <;> simp [scan, hquote, hbackslash]

end Partitura.Text
