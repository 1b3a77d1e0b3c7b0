import Mathlib
import Partitura.Proofs.Score.Converters
import Partitura.Score.Stats

/-!
# What the statistics count

The statistics of a score against its elements and against the elements of its document. Notes,
chords, rests, dynamics, slurs, hairpins and texts are counted; a note, a chord and a rest are told
apart by the number of notes, in an item of the score as in an element of the document. A score has
staves of its own or movements with staves, and only its own are counted: the statistics are
complete if and only if no movement of the document has a staff (`countsAll_iff`), and those of a
work in movements are all zero.
-/

namespace Partitura.Score

open Xml

/-- The kinds of elements that are counted. -/
inductive Counted where
  | note | chord | rest | dynamic | slur | hairpin | text
deriving DecidableEq, Repr

/-- What so many notes at one place are. -/
def Counted.ofNotes : Nat → Counted
  | 0 => .rest
  | 1 => .note
  | _ + 2 => .chord

/-- What an item of a bar is counted as. -/
def Item.counted? : Item → Option Counted
  | .noteRest n => some (.ofNotes n.notes.length)
  | .dynamic .. => some .dynamic
  | .slur .. => some .slur
  | .hairpin .. => some .hairpin
  | .text .. => some .text
  | _ => none

/-- What an element in a bar of a document is counted as. -/
def elementCounted? (e : Element) : Option Counted :=
  match e.tag with
  | "note" => some (.ofNotes 1)
  | "chord" => some (.ofNotes (e.findAll "n").length)
  | "rest" => some (.ofNotes 0)
  | "dynamic" => some .dynamic
  | "slur" => some .slur
  | "hairpin" => some .hairpin
  | "text" => some .text
  | _ => none

/-- A number of the statistics. -/
def Stats.count (t : Stats) : Counted → Nat
  | .note => t.notes
  | .chord => t.chords
  | .rest => t.rests
  | .dynamic => t.dynamics
  | .slur => t.slurs
  | .hairpin => t.hairpins
  | .text => t.text

/-- How many items of a kind are in the bars of some staves. -/
def occurrences (k : Counted) (sts : List Staff) : Nat :=
  (sts.map fun st => (st.bars.map fun b => b.items.countP (·.counted? = some k)).sum).sum

/-- How many elements of a kind are in the bars of some staves of a document. -/
def elementOccurrences (k : Counted) (sts : List Element) : Nat :=
  (sts.map fun st => (barElements st).countP (elementCounted? · = some k)).sum

/-- All staves of a score: its own and those of its movements. -/
def allStaves (s : Score) : List Staff := s.staves ++ s.movements.flatMap (·.staves)

/-- The statistics of a score count its whole work. -/
def CountsAll (s : Score) : Prop :=
  (stats s).staves = (allStaves s).length ∧ ∀ k, (stats s).count k = occurrences k (allStaves s)

/-! ## Statistics and items -/

/-- The test by which the statistics find the items of a kind. -/
def Counted.test : Counted → Item → Bool
  | .note => Item.isSingle
  | .chord => Item.isChord
  | .rest => Item.isRest
  | .dynamic => Item.isDynamic
  | .slur => Item.isSlur
  | .hairpin => Item.isHairpin
  | .text => Item.isText

/-- The tests are made on the same items that are counted as that kind. -/
theorem Counted.test_eq (k : Counted) (i : Item) : k.test i = decide (i.counted? = some k) := by
  cases i with
  | noteRest n =>
    obtain h | ⟨x, h⟩ | ⟨x, y, r, h⟩ :
        n.notes = [] ∨ (∃ x, n.notes = [x]) ∨ ∃ x y r, n.notes = x :: y :: r := by
      rcases n.notes with - | ⟨x, - | ⟨y, r⟩⟩ <;> simp
    all_goals
      cases k <;>
        simp [test, Item.counted?, Counted.ofNotes, Item.isSingle, Item.isChord,
          Item.isRest, Item.isDynamic,
        Item.isSlur, Item.isHairpin, Item.isText, NoteRest.isRest, NoteRest.isChord, h]
  | _ => cases k <;> rfl

theorem count_stats (s : Score) (k : Counted) :
    (stats s).count k = (s.staves.flatMap (·.items)).countP k.test := by
  cases k <;> rfl

/-- The statistics count the staves of the score itself. -/
theorem count_stats_eq_occurrences (s : Score) (k : Counted) :
    (stats s).count k = occurrences k s.staves := by
  have htest : k.test = fun i => decide (i.counted? = some k) := funext k.test_eq
  rw [count_stats, htest, List.countP_flatMap, occurrences]
  refine congrArg List.sum (List.map_congr_left fun st _ => ?_)
  exact List.countP_flatMap

/-- What is counted in the staves of all movements is what is counted in each of them. -/
theorem sum_map_flatMap {α β : Type} (count : β → Nat) (f : α → List β) (as : List α) :
    ((as.flatMap f).map count).sum = (as.map fun a => ((f a).map count).sum).sum := by
  induction as with
  | nil => rfl
  | cons a as ih =>
    rw [List.flatMap_cons, List.map_append, List.sum_append, ih, List.map_cons, List.sum_cons]

/-! ## Items and elements -/

/-- An item is counted as the element that it was read from. -/
theorem counted?_of_itemOf {e : Element} {i : Item} (h : itemOf e = .ok i) :
    i.counted? = elementCounted? e := by
  obtain ⟨htag, hnotes⟩ := tag_mem_of_itemOf h
  cases i with
  | noteRest n =>
    have hn := (hnotes n rfl).1
    unfold notesOf at hn
    unfold elementCounted?
    simp only [Item.tags, List.mem_cons, List.not_mem_nil, or_false] at htag
    rcases htag with ht | ht | ht
    · simp only [ht] at hn ⊢
      obtain ⟨x, -, hx⟩ := ok_of_map hn
      rw [Item.counted?, ← hx]
      rfl
    · simp only [ht] at hn ⊢
      have hlength :=
        congrArg List.length (map_of_mapM hn (g := fun _ => ()) (k := fun _ => ()) fun _ _ _ => rfl)
      rw [List.length_map, List.length_map] at hlength
      rw [Item.counted?, hlength]
    · simp only [ht, Except.ok.injEq] at hn ⊢
      rw [Item.counted?, ← hn]
      rfl
  | _ =>
    rw [Item.tags, List.mem_singleton] at htag
    rw [elementCounted?, htag]
    rfl

theorem sum_countP_of_staffOf {e : Element} {st : Staff} (h : staffOf e = .ok st) (k : Counted) :
    (st.bars.map fun b => b.items.countP (·.counted? = some k)).sum =
      (barElements e).countP (elementCounted? · = some k) := by
  rw [barElements, List.countP_flatMap]
  refine congrArg List.sum (map_of_mapM (bars_of_staffOf h) fun b bar hb => ?_)
  have hkinds :=
    map_of_mapM (elements_of_itemsOf (items_of_barOf hb)) fun _ _ hi => counted?_of_itemOf hi
  have hcount := congrArg (List.countP (· = some k)) hkinds
  rwa [List.countP_map, List.countP_map] at hcount

/-- The staves read from an element are as many as its staves, and hold the same. -/
theorem occurrences_of_stavesOf {e : Element} {sts : List Staff} (h : stavesOf e = .ok sts) :
    sts.length = (staffElements e).length ∧ ∀ k,
      occurrences k sts = elementOccurrences k (staffElements e) := by
  rw [stavesOf_eq] at h
  have hmap :
      ∀ k, sts.map (fun st => (st.bars.map fun b => b.items.countP (·.counted? = some k)).sum) =
        _ := fun k =>
    map_of_mapM h fun _ _ hst => sum_countP_of_staffOf hst k
  exact ⟨by simpa using congrArg List.length (hmap .note), fun k => congrArg List.sum (hmap k)⟩

theorem occurrences_of_movementOf {e : Element} {m : Movement} (h : movementOf e = .ok m) :
    m.staves.length = (staffElements e).length ∧ ∀ k,
      occurrences k m.staves = elementOccurrences k (staffElements e) :=
  occurrences_of_stavesOf (parts_of_movementOf h).1

/-- The staves of a score itself are those that its document has outside of movements. -/
theorem occurrences_own {root : Element} {s : Score} (h : ofRoot root = .ok s) :
    s.staves.length = (ownStaves root).length ∧ ∀ k,
      occurrences k s.staves = elementOccurrences k (ownStaves root) := by
  rcases ofRoot_cases h with ⟨ms, hms, -, hstaves⟩ | ⟨hnone, -, hstaves⟩
  · rw [ownStaves, hms, hstaves]
    exact ⟨rfl, fun k => rfl⟩
  · rw [ownStaves, hnone]
    exact occurrences_of_stavesOf hstaves

/-- All staves of a score are all staves of its document. -/
theorem occurrences_all {root : Element} {s : Score} (h : ofRoot root = .ok s) :
    (allStaves s).length = (writtenStaves root).length ∧
      ∀ k, occurrences k (allStaves s) = elementOccurrences k (writtenStaves root) := by
  rcases ofRoot_cases h with ⟨ms, hms, hmovements, hstaves⟩ | ⟨hnone, hmovements, hstaves⟩
  · rw [writtenStaves, hms, allStaves, hstaves, List.nil_append, Option.elim_some]
    refine ⟨?_, fun k => ?_⟩
    · rw [List.length_flatMap, List.length_flatMap]
      exact congrArg List.sum
        (map_of_mapM hmovements fun _ _ hm => (occurrences_of_movementOf hm).1)
    · rw [occurrences, elementOccurrences, sum_map_flatMap, sum_map_flatMap]
      exact congrArg List.sum
        (map_of_mapM hmovements fun _ _ hm => (occurrences_of_movementOf hm).2 k)
  · rw [writtenStaves, hnone, allStaves, hmovements, List.flatMap_nil, List.append_nil]
    exact occurrences_of_stavesOf hstaves

/-- **What the statistics count.** The statistics of a score count the elements and the staves that
its document has outside of movements, while the score holds those of all its movements. So they
count the whole work if and only if the document has no movements, or movements without any
staff. -/
theorem countsAll_iff {root : Element} {s : Score} (h : ofRoot root = .ok s) :
    (CountsAll s ↔ ((root.find? "movements").isSome = true → writtenStaves root = [])) ∧
      ((stats s).staves = (ownStaves root).length ∧ ∀ k,
        (stats s).count k = elementOccurrences k (ownStaves root)) ∧
      (allStaves s).length = (writtenStaves root).length ∧
        ∀ k, occurrences k (allStaves s) = elementOccurrences k (writtenStaves root) := by
  obtain ⟨hown, hownCount⟩ := occurrences_own h
  obtain ⟨hall, hallCount⟩ := occurrences_all h
  have hcount : ∀ k, (stats s).count k = elementOccurrences k (ownStaves root) := fun k =>
    (count_stats_eq_occurrences s k).trans (hownCount k)
  refine ⟨?_, ⟨hown, hcount⟩, hall, hallCount⟩
  have hstaves : (stats s).staves = (ownStaves root).length := hown
  simp only [CountsAll, hstaves, hcount, hall, hallCount]
  cases hms : root.find? "movements" with
  | none => simp [ownStaves, writtenStaves, hms]
  | some ms =>
    have hnil : ownStaves root = [] := by rw [ownStaves, hms]; rfl
    rw [hnil, Option.isSome_some, forall_prop_of_true rfl]
    constructor
    · rintro ⟨hlength, -⟩
      exact List.eq_nil_of_length_eq_zero hlength.symm
    · intro hwritten
      rw [hwritten]
      exact ⟨rfl, fun k => rfl⟩

/-- A bar with a note, a chord, a rest and signs around them. -/
def sampleBar : Node :=
  .element "bar" [("n", "1")]
    [.element "note" [("pitch", "60")] [],
      .element "chord" [("pos", "256")]
        [.element "n" [("p", "60")] [], .element "n" [("p", "64")] []],
      .element "rest" [("pos", "512")] [], .element "dynamic" [("text", "p")] [],
      .element "slur" [] [], .element "hairpin" [] [], .element "text" [] [.text "dolce".toList],
      .element "rest" [("pos", "768")] []]

/-- Two staves with that bar. -/
def sampleStaves : Node :=
  .element "staves" [] [.element "staff" [("n", "1")] [sampleBar],
    .element "staff" [("n", "2")] [sampleBar, sampleBar]]

/-- A document with those staves. -/
def flatDocument : Element := ⟨"mahlif", [], [sampleStaves]⟩

/-- A document with those staves in a movement. -/
def movementDocument : Element :=
  ⟨"mahlif", [], [.element "movements" [] [.element "movement" [("n", "1")] [sampleStaves]]]⟩

/-- Staves outside of movements are counted. -/
theorem countsAll_flatDocument : ∃ s, ofRoot flatDocument = .ok s ∧ CountsAll s ∧
    (stats s).staves = 2 ∧ (stats s).notes = 3 ∧ (stats s).chords = 3 ∧ (stats s).rests = 6 ∧
      (stats s).text = 3 := by
  obtain ⟨s, hs⟩ := ok_of_isOk (show (ofRoot flatDocument).isOk = true by decide +kernel)
  obtain ⟨hall, ⟨hstaves, hcount⟩, -⟩ := countsAll_iff hs
  refine ⟨s, hs, hall.2 (by decide), hstaves.trans (by decide), ?_⟩
  exact ⟨(hcount .note).trans (by decide), (hcount .chord).trans (by decide),
    (hcount .rest).trans (by decide), (hcount .text).trans (by decide)⟩

/-- The same staves in a movement are not counted: there are two with three notes, and the
statistics say none. -/
theorem not_countsAll_movementDocument : ∃ s, ofRoot movementDocument = .ok s ∧ ¬ CountsAll s ∧
    (stats s).staves = 0 ∧ (allStaves s).length = 2 ∧ (stats s).notes = 0 ∧
      occurrences .note (allStaves s) = 3 := by
  obtain ⟨s, hs⟩ := ok_of_isOk (show (ofRoot movementDocument).isOk = true by decide +kernel)
  have hstaves : (stats s).staves = 0 := (occurrences_own hs).1.trans (by decide)
  have hall : (allStaves s).length = 2 := (occurrences_all hs).1.trans (by decide)
  refine ⟨s, hs, fun hc => ?_, hstaves, hall, ?_, ?_⟩
  · have hzero := hstaves.symm.trans (hc.1.trans hall)
    cases hzero
  · exact (count_stats_eq_occurrences s .note).trans
      (((occurrences_own hs).2 .note).trans (by decide))
  · exact ((occurrences_all hs).2 .note).trans (by decide)

end Partitura.Score
