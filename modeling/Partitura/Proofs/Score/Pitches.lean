import Partitura.Score.LilyPond

/-!
# How written pitches sound

A name of a pitch is a letter with endings and marks: each ending moves the letter by a semitone and
each mark by an octave. `sounding` reads a name so, by itself and not through the writer. A pitch
without an accidental is written as it sounds. With an accidental it is not: the ending is put to
the letter of the white key at or below the pitch (`whiteKey`), as if the pitch had not been moved
by the accidental yet. Only a sharp on a black key comes out right (`sounding_pitchName?`).
-/

namespace Partitura.Score.LilyPond

/-! ## Reading names -/

/-- The semitones of a letter above C. -/
def letter? : Char → Option Int
  | 'c' => some 0
  | 'd' => some 2
  | 'e' => some 4
  | 'f' => some 5
  | 'g' => some 7
  | 'a' => some 9
  | 'b' => some 11
  | _ => none

/-- The semitones of endings and marks. -/
def moved? : List Char → Option Int
  | [] => some 0
  | 'i' :: 's' :: cs => (moved? cs).map (1 + ·)
  | 'e' :: 's' :: cs => (moved? cs).map (-1 + ·)
  | '\'' :: cs => (moved? cs).map (12 + ·)
  | ',' :: cs => (moved? cs).map (-12 + ·)
  | _ => none

/-- The pitch of a name; letters alone stand in the octave of 48. -/
def sounding (name : String) : Option Int :=
  match name.toList with
  | [] => none
  | c :: cs => (letter? c).bind fun letter => (moved? cs).map (48 + letter + ·)

/-- The semitones of an accidental. -/
def shift? : String → Option Int
  | "#" => some 1
  | "b" => some (-1)
  | "x" => some 2
  | "bb" => some (-2)
  | _ => none

/-- The pitch is that of a black key. -/
def isBlack (pitch : Int) : Bool := [1, 3, 6, 8, 10].contains (pitch.fmod 12)

/-- The white key at a pitch or right below it. -/
def whiteKey (pitch : Int) : Int := if isBlack pitch then pitch - 1 else pitch

/-! ## Names and marks -/

theorem moved?_append {cs ds : List Char} {v w : Int} (hcs : moved? cs = some v)
    (hds : moved? ds = some w) : moved? (cs ++ ds) = some (v + w) := by
  induction cs using moved?.induct generalizing v with
  | case1 =>
    cases hcs
    rw [List.nil_append, hds, Int.zero_add]
  | case2 cs ih | case3 cs ih | case4 cs ih | case5 cs ih =>
    rw [moved?, Option.map_eq_some_iff] at hcs
    obtain ⟨u, hu, rfl⟩ := hcs
    simp only [List.cons_append, moved?, ih hu, Option.map_some, Int.add_assoc]
  | case6 cs _ _ _ _ _ =>
    rw [moved?] at hcs
    · cases hcs
    all_goals assumption

theorem sounding_append {name : String} {marks : List Char} {v w : Int}
    (hname : sounding name = some v) (hmarks : moved? marks = some w) :
    sounding (name ++ String.ofList marks) = some (v + w) := by
  unfold sounding at hname ⊢
  rw [String.toList_append, String.toList_ofList]
  cases hcs : name.toList with
  | nil =>
    rw [hcs] at hname
    cases hname
  | cons c cs =>
    simp only [hcs, Option.bind_eq_some_iff, Option.map_eq_some_iff] at hname
    obtain ⟨letter, hletter, u, hu, rfl⟩ := hname
    simp only [List.cons_append, hletter, Option.bind_some, moved?_append hu hmarks,
      Option.map_some, Int.add_assoc]

theorem moved?_replicate {c : Char} {v : Int}
    (hc : ∀ cs, moved? (c :: cs) = (moved? cs).map (v + ·)) (n : Nat) :
    moved? (List.replicate n c) = some (v * n) := by
  induction n with
  | zero =>
    rw [Int.natCast_zero, Int.mul_zero]
    rfl
  | succ n ih =>
    rw [List.replicate_succ, hc, ih, Option.map_some, Int.natCast_succ, Int.mul_add,
      Int.mul_one, Int.add_comm]

/-- The marks of an octave move by as many semitones as the octave has. -/
theorem moved?_octaveMarks (octave : Int) :
    moved? (List.replicate octave.toNat '\'' ++ List.replicate (-octave).toNat ',') =
      some (12 * octave) := by
  rw [moved?_append (moved?_replicate (fun _ => rfl) _) (moved?_replicate (fun _ => rfl) _)]
  congr 1
  omega

/-! ## Written pitches -/

section Written

/-- The endings for accidentals, with their semitones. -/
def endings : List (String × Int) := [("is", 1), ("es", -1), ("isis", 2), ("eses", -2)]

/-- The name of a pitch class is that of its pitch in the octave of 48. -/
theorem sounding_pitchNames :
    ∀ i < 12, sounding (pitchNames.getD i "c") = some (48 + (i : Int)) := by decide

/-- The ending for an accidental moves the letter of a pitch class from the white key. -/
theorem sounding_letters : ∀ i < 12, ∀ e ∈ endings,
    sounding (letters.getD i "c" ++ e.1) = some (48 + whiteKey i + e.2) := by decide

variable {pitch : Int} {accidental : String}

theorem ending?_cases (accidental : String) :
    (ending? accidental = none ∧ shift? accidental = none) ∨
      ∃ e ∈ endings, ending? accidental = some e.1 ∧ shift? accidental = some e.2 := by
  unfold ending?
  split
  · exact .inr ⟨("is", 1), by decide, rfl, rfl⟩
  · exact .inr ⟨("es", -1), by decide, rfl, rfl⟩
  · exact .inr ⟨("isis", 2), by decide, rfl, rfl⟩
  · exact .inr ⟨("eses", -2), by decide, rfl, rfl⟩
  · exact .inl ⟨rfl, by rw [shift?] <;> assumption⟩

theorem shift?_eq_one : shift? accidental = some 1 ↔ accidental = "#" := by
  unfold shift?
  split <;> simp_all

theorem ne_zero_of_shift? {k : Int} (h : shift? accidental = some k) : k ≠ 0 := by
  unfold shift? at h
  split at h <;> cases h <;> decide

/-- What the name of a pitch sounds like: the pitch itself, or the white key moved by the
accidental. -/
theorem sounding_pitchName (pitch : Int) (accidental : String) :
    sounding (pitchName pitch accidental) =
      some (((shift? accidental).map (whiteKey pitch + ·)).getD pitch) := by
  have hnonneg := Int.fmod_nonneg_of_pos pitch (by decide : (0 : Int) < 12)
  have hlt := Int.fmod_lt_of_pos pitch (by decide : (0 : Int) < 12)
  have hdiv := Int.mul_fdiv_add_fmod pitch 12
  obtain ⟨i, hi⟩ := Int.eq_ofNat_of_zero_le hnonneg
  have hi' : i < 12 := by omega
  have hwhite : whiteKey pitch = 12 * pitch.fdiv 12 + whiteKey i := by
    have hfmod : (i : Int).fmod 12 = i := Int.fmod_eq_of_lt (by omega) (by omega)
    have hblack : isBlack pitch = isBlack i := by rw [isBlack, isBlack, hi, hfmod]
    unfold whiteKey
    rw [hblack]
    split <;> omega
  unfold pitchName octaveMarks
  rw [hi, Int.toNat_natCast]
  obtain ⟨hending, hshift⟩ | ⟨e, he, hending, hshift⟩ := ending?_cases accidental
  · rw [hending, hshift, sounding_append (sounding_pitchNames i hi') (moved?_octaveMarks _)]
    simp [octaveOf]
    omega
  · rw [hending, hshift, sounding_append (sounding_letters i hi' e he) (moved?_octaveMarks _)]
    simp [octaveOf]
    omega

end Written

/-- **Written pitches sound as they are without an accidental, and with a sharp on a black key.**
Every pitch whose marks can be written is written. With an accidental it sounds as the white key at
or right below it, moved by the accidental. -/
theorem sounding_pitchName? {pitch : Int}
    (hoctave : octaveOf pitch < octaveLimit ∧ -octaveOf pitch < octaveLimit) (accidental : String) :
    ∃ name, pitchName? pitch accidental = .ok name ∧
      sounding name = some (((shift? accidental).map (whiteKey pitch + ·)).getD pitch) ∧
      (sounding name = some pitch ↔ shift? accidental = none ∨ accidental = "#" ∧
        isBlack pitch = true) := by
  refine ⟨pitchName pitch accidental, if_neg (by omega), sounding_pitchName pitch accidental, ?_⟩
  rw [sounding_pitchName]
  cases hshift : shift? accidental with
  | none => simp
  | some k =>
    have hk := ne_zero_of_shift? hshift
    rw [Option.map_some, Option.getD_some, Option.some.injEq, ← shift?_eq_one, hshift,
      Option.some.injEq, whiteKey]
    cases isBlack pitch <;> simp <;> omega

/-- A pitch below the octave of 48 that is a sharp. -/
theorem sounding_low_sharp : (octaveOf (-6) < octaveLimit ∧ -octaveOf (-6) < octaveLimit) ∧
    ∃ name, pitchName? (-6) "#" = .ok name ∧ sounding name = some (-6) := by
  have h : octaveOf (-6) < octaveLimit ∧ -octaveOf (-6) < octaveLimit := by decide
  obtain ⟨name, hname, -, hsounding⟩ := sounding_pitchName? h "#"
  exact ⟨h, name, hname, hsounding.2 (.inr ⟨rfl, by decide⟩)⟩

/-- A D flat is written as a C flat, and an E sharp as an F sharp, although both are spelled from a
white key. -/
theorem sounding_ne_pitch :
    isBlack (61 - -1) = false ∧ pitchName? 61 "b" = .ok "ces'" ∧ sounding "ces'" = some 59 ∧
    isBlack (65 - 1) = false ∧ pitchName? 65 "#" = .ok "fis'" ∧ sounding "fis'" = some 66 :=
  ⟨by decide, rfl, by decide, by decide, rfl, by decide⟩

end Partitura.Score.LilyPond
