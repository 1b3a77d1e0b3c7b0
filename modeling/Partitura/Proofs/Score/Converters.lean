import Partitura.Proofs.Attempts
import Partitura.Proofs.Score.PluginLines
import Partitura.Score.LilyPond

/-!
# Which documents can be converted

A document that is read as a score need not have a form as LilyPond source or as an import plugin.
Three parts of the library sort the elements of bars: the reader by their tags, and each writer by
the items that the reader makes of them. Here they are compared: a score can be written as LilyPond
source if and only if no element in its staves has a tag that is `refused` and no pitch is out of
range, and as a plugin if and only if every element with notes stands at a finite offset
(`converts_iff`).
-/

namespace Partitura.Score

open Number Xml

variable {e : Element} {i : Item} {s : Score}

/-! ## Elements of bars -/

/-- The staves inside an element. -/
def staffElements (e : Element) : List Element :=
  ((e.find? "staves").map (·.findAll "staff")).getD []

/-- The elements in the bars of a staff. -/
def barElements (staff : Element) : List Element := (staff.findAll "bar").flatMap Element.elements

/-- The staves of a document that LilyPond source is written for: those of all movements, or its own
if there are no movements. -/
def writtenStaves (root : Element) : List Element :=
  (root.find? "movements").elim (staffElements root) fun ms =>
    (ms.findAll "movement").flatMap staffElements

/-- The staves of a document that a plugin is written for: its own if there are no movements. -/
def ownStaves (root : Element) : List Element :=
  (root.find? "movements").elim (staffElements root) fun _ => []

/-- The tags of the elements that are read as an item of this kind. -/
def Item.tags : Item → List String
  | .noteRest _ => ["note", "chord", "rest"]
  | .clef .. => ["clef"]
  | .key .. => ["key"]
  | .time .. => ["time"]
  | .dynamic .. => ["dynamic"]
  | .text .. => ["text"]
  | .tempo .. => ["tempo"]
  | .rehearsal .. => ["rehearsal"]
  | .slur .. => ["slur"]
  | .hairpin .. => ["hairpin"]
  | .tuplet .. => ["tuplet"]
  | .barline .. => ["barline"]
  | .octava .. => ["octava"]
  | .pedal .. => ["pedal"]
  | .trill .. => ["trill"]
  | .grace .. => ["grace"]

theorem notes_of_noteRestOf {n : NoteRest} (h : noteRestOf e = .ok n) :
    notesOf e = .ok n.notes ∧ offsetOf e = .ok n.offset := by
  obtain ⟨notes, hnotes, h⟩ := ok_of_bind h
  obtain ⟨_, -, h⟩ := ok_of_bind h
  obtain ⟨_, -, h⟩ := ok_of_bind h
  obtain ⟨_, -, h⟩ := ok_of_bind h
  obtain ⟨offset, hoffset, h⟩ := ok_of_bind h
  cases h
  exact ⟨hnotes, hoffset⟩

/-- An element is read as an item of a kind that its tag stands for, with its own notes and
offset. -/
theorem tag_mem_of_itemOf (h : itemOf e = .ok i) :
    e.tag ∈ i.tags ∧ ∀ n, i = .noteRest n → notesOf e = .ok n.notes ∧
      offsetOf e = .ok n.offset := by
  unfold itemOf at h
  split at h
  case h_1 htag | h_2 htag | h_3 htag =>
    obtain ⟨n, hn, rfl⟩ := ok_of_map h
    refine ⟨by simp [htag, Item.tags], ?_⟩
    rintro _ ⟨⟩
    exact notes_of_noteRestOf hn
  -- the other kinds have no notes, and are read attribute by attribute
  all_goals
    next htag =>
      first
      | cases h
      | repeat obtain ⟨_, -, h⟩ := ok_of_bind h
        cases h
        exact ⟨by simp [htag, Item.tags], by rintro _ ⟨⟩⟩

/-- Only notes, chords and rests have notes. -/
theorem notesOf_of_tag (h : e.tag ∉ ["note", "chord", "rest"]) :
    notesOf e = .error (.unknownNoteRest e.tag) := by
  unfold notesOf
  split
  case h_1 htag | h_2 htag | h_3 htag => simp [htag] at h
  · rfl

/-- The notes of an element, none for one that has no notes. -/
def readNotes (e : Element) : List Note := (notesOf e).toOption.getD []

/-! ## Elements that can be written -/

/-- The tags of elements that have no form in LilyPond source. -/
def refused : List String := ["text", "tempo", "rehearsal", "octava", "pedal", "trill", "grace"]

/-- The marks for the octave of a pitch can be written. -/
def inRange (pitch : Int) : Bool :=
  decide (LilyPond.octaveOf pitch < LilyPond.octaveLimit ∧
    -LilyPond.octaveOf pitch < LilyPond.octaveLimit)

/-- An element has a form in LilyPond source. -/
def writable (e : Element) : Bool := !refused.contains e.tag && (readNotes e).all (inRange ·.pitch)

/-- An element stands at a finite offset, if it has notes. -/
def placed (e : Element) : Bool :=
  (readNotes e).isEmpty || (offsetOf e).toOption.all fun o => o.dx.isFinite && o.dy.isFinite

theorem succeeds_pitchName? {pitch : Int} {accidental : String} :
    Succeeds (LilyPond.pitchName? pitch accidental) ↔ inRange pitch = true := by
  unfold LilyPond.pitchName?
  rw [inRange, decide_eq_true_iff]
  split
  · next h => exact ⟨fun hs => absurd hs (not_succeeds_error _), fun hs => by omega⟩
  · next h => exact ⟨fun _ => by omega, fun _ => succeeds_ok _⟩

theorem succeeds_noteRest {n : NoteRest} :
    Succeeds (LilyPond.noteRest n) ↔ ∀ k ∈ n.notes, inRange k.pitch = true := by
  unfold LilyPond.noteRest
  rw [succeeds_bind, succeeds_mapM]
  · simp only [succeeds_pitchName?]
  · intro names
    match names with
    | [] | [_] | _ :: _ :: _ => exact succeeds_ok _

theorem writable_of_tag (h : e.tag ∉ ["note", "chord", "rest"]) :
    writable e = !refused.contains e.tag := by
  rw [writable, readNotes, notesOf_of_tag h]
  exact Bool.and_true _

/-- The item that an element is read as can be written if the element has a form. -/
theorem succeeds_item? (h : itemOf e = .ok i) :
    Succeeds (LilyPond.item? i) ↔ writable e = true := by
  obtain ⟨htag, hnotes⟩ := tag_mem_of_itemOf h
  cases i with
  | noteRest n =>
    have hread : readNotes e = n.notes := by rw [readNotes, (hnotes n rfl).1]; rfl
    have hform : refused.contains e.tag = false := by
      simp only [Item.tags, List.mem_cons, List.not_mem_nil, or_false] at htag
      rcases htag with h | h | h <;> rw [h] <;> decide
    rw [writable, hform, hread, LilyPond.item?, succeeds_map, succeeds_noteRest]
    simp
  | clef | key | time | dynamic | slur | tuplet | barline =>
    rw [Item.tags, List.mem_singleton] at htag
    rw [writable_of_tag (by rw [htag]; decide), htag]
    exact ⟨fun _ => by decide, fun _ => succeeds_ok _⟩
  | hairpin swell =>
    rw [Item.tags, List.mem_singleton] at htag
    rw [writable_of_tag (by rw [htag]; decide), htag]
    cases swell <;> exact ⟨fun _ => by decide, fun _ => succeeds_ok _⟩
  | text | tempo | rehearsal | octava | pedal | trill | grace =>
    rw [Item.tags, List.mem_singleton] at htag
    rw [writable_of_tag (by rw [htag]; decide), htag]
    exact ⟨fun hs => absurd hs (not_succeeds_error _), fun hs => absurd hs (by decide)⟩

/-- The item that an element is read as stands at a finite offset if the element does. -/
theorem isPlaced_iff (h : itemOf e = .ok i) : i.isPlaced = true ↔ placed e = true := by
  obtain ⟨htag, hnotes⟩ := tag_mem_of_itemOf h
  cases i with
  | noteRest n =>
    obtain ⟨hn, ho⟩ := hnotes n rfl
    rw [placed, readNotes, hn, ho, Item.isPlaced, NoteRest.isRest]
    rfl
  | _ =>
    rw [Item.tags, List.mem_singleton] at htag
    rw [placed, readNotes, notesOf_of_tag (by rw [htag]; decide)]
    exact Iff.rfl

/-! ## What the parts of a score are read from -/

theorem elements_of_itemsOf {nodes : List Node} {items : List Item}
    (h : itemsOf nodes = .ok items) : (nodes.filterMap Node.element?).mapM itemOf = .ok items := by
  fun_induction itemsOf nodes generalizing items with
  | case1 => exact h
  | case2 cs r ih => exact ih h
  | case3 tag attributes children r ih =>
    obtain ⟨i, hi, h⟩ := ok_of_bind h
    obtain ⟨is, his, h⟩ := ok_of_bind h
    change (⟨tag, attributes, children⟩ :: r.filterMap Node.element?).mapM itemOf = _
    rw [List.mapM_cons, hi, ih his]
    exact h
  | case4 => cases h

theorem items_of_barOf {b : Bar} (h : barOf e = .ok b) : itemsOf e.children = .ok b.items := by
  obtain ⟨_, -, h⟩ := ok_of_bind h
  obtain ⟨_, -, h⟩ := ok_of_bind h
  obtain ⟨items, hitems, h⟩ := ok_of_bind h
  cases h
  exact hitems

theorem bars_of_staffOf {st : Staff} (h : staffOf e = .ok st) : barsOf e = .ok st.bars := by
  obtain ⟨bars, hbars, h⟩ := ok_of_bind h
  repeat obtain ⟨_, -, h⟩ := ok_of_bind h
  cases h
  exact hbars

theorem stavesOf_eq (e : Element) : stavesOf e = (staffElements e).mapM staffOf := by
  unfold stavesOf staffElements
  cases e.find? "staves" <;> rfl

theorem parts_of_movementOf {m : Movement} (h : movementOf e = .ok m) :
    stavesOf e = .ok m.staves ∧ systemOf e = .ok m.system := by
  obtain ⟨_, -, h⟩ := ok_of_bind h
  obtain ⟨staves, hstaves, h⟩ := ok_of_bind h
  obtain ⟨system, hsystem, h⟩ := ok_of_bind h
  obtain ⟨_, -, h⟩ := ok_of_bind h
  cases h
  exact ⟨hstaves, hsystem⟩

/-! ## Items of a score and elements of its document -/

section Reading

variable {P : Item → Prop} {Q : Element → Prop} (hPQ : ∀ e i, itemOf e = .ok i → (P i ↔ Q e))
include hPQ

theorem forall_staffOf {st : Staff} (h : staffOf e = .ok st) :
    (∀ b ∈ st.bars, ∀ i ∈ b.items, P i) ↔ ∀ x ∈ barElements e, Q x := by
  rw [barElements, forall_mem_of_mapM (bars_of_staffOf h) (Q := fun b => ∀ x ∈ b.elements, Q x)]
  · simp only [List.mem_flatMap]
    exact ⟨fun hall x ⟨b, hb, hx⟩ => hall b hb x hx, fun hall b hb x hx => hall x ⟨b, hb, hx⟩⟩
  · intro b bar hb
    exact forall_mem_of_mapM (elements_of_itemsOf (items_of_barOf hb)) hPQ

theorem forall_stavesOf {sts : List Staff} (h : stavesOf e = .ok sts) :
    (∀ st ∈ sts, ∀ b ∈ st.bars, ∀ i ∈ b.items, P i) ↔ ∀ s ∈ staffElements e,
      ∀ x ∈ barElements s, Q x :=
  forall_mem_of_mapM ((stavesOf_eq e).symm.trans h) fun _ _ hst => forall_staffOf hPQ hst

theorem forall_movementOf {m : Movement} (h : movementOf e = .ok m) :
    (∀ st ∈ m.staves, ∀ b ∈ st.bars, ∀ i ∈ b.items, P i) ↔ ∀ s ∈ staffElements e,
      ∀ x ∈ barElements s, Q x :=
  forall_stavesOf hPQ (parts_of_movementOf h).1

end Reading

/-- A score has movements, or staves and bars of its own, as its document has. -/
theorem ofRoot_parts {root : Element} (h : ofRoot root = .ok s) :
    (∃ ms, root.find? "movements" = some ms ∧
      (ms.findAll "movement").mapM movementOf = .ok s.movements ∧ s.staves = []) ∨
      (root.find? "movements" = none ∧ s.movements = [] ∧ stavesOf root = .ok s.staves ∧
        systemOf root = .ok s.system) := by
  unfold ofRoot at h
  dsimp only at h
  split at h
  · cases h
  · cases hmovements : root.find? "movements" with
    | some ms =>
      simp only [hmovements] at h
      refine .inl ⟨ms, rfl, ?_⟩
      split at h <;>
      · obtain ⟨_, -, h⟩ := ok_of_bind h
        obtain ⟨movements, hms, h⟩ := ok_of_bind h
        cases h
        exact ⟨hms, rfl⟩
    | none =>
      simp only [hmovements] at h
      refine .inr ⟨rfl, ?_⟩
      split at h <;>
      · obtain ⟨_, -, h⟩ := ok_of_bind h
        obtain ⟨_, -, h⟩ := ok_of_bind h
        obtain ⟨staves, hstaves, h⟩ := ok_of_bind h
        obtain ⟨system, hsystem, h⟩ := ok_of_bind h
        cases h
        exact ⟨rfl, hstaves, hsystem⟩

theorem ofRoot_cases {root : Element} (h : ofRoot root = .ok s) :
    (∃ ms, root.find? "movements" = some ms ∧
      (ms.findAll "movement").mapM movementOf = .ok s.movements ∧ s.staves = []) ∨
      (root.find? "movements" = none ∧ s.movements = [] ∧ stavesOf root = .ok s.staves) :=
  (ofRoot_parts h).imp_right fun ⟨hnone, hmovements, hstaves, _⟩ => ⟨hnone, hmovements, hstaves⟩

/-! ## Writing -/

theorem succeeds_staff {st : Staff} :
    Succeeds (LilyPond.staff st) ↔ ∀ b ∈ st.bars, ∀ i ∈ b.items, Succeeds (LilyPond.item? i) := by
  unfold LilyPond.staff
  rw [succeeds_bind_pure, succeeds_mapM]
  refine forall₂_congr fun b _ => ?_
  unfold LilyPond.bar
  rw [succeeds_bind_pure, succeeds_mapM]

theorem succeeds_scoreBlock {sts : List Staff} : Succeeds (LilyPond.scoreBlock sts) ↔
    ∀ st ∈ sts, ∀ b ∈ st.bars, ∀ i ∈ b.items, Succeeds (LilyPond.item? i) := by
  unfold LilyPond.scoreBlock
  rw [succeeds_bind_pure, succeeds_mapM]
  simp only [succeeds_staff]

/-- A score can be written as LilyPond source if all its movements can, and all its staves if it has
no movements. -/
theorem succeeds_source : Succeeds (LilyPond.source s) ↔
    (∀ m ∈ s.movements, ∀ st ∈ m.staves, ∀ b ∈ st.bars, ∀ i ∈ b.items,
      Succeeds (LilyPond.item? i)) ∧
        (s.movements = [] → ∀ st ∈ s.staves, ∀ b ∈ st.bars, ∀ i ∈ b.items,
          Succeeds (LilyPond.item? i)) := by
  unfold LilyPond.source
  dsimp only
  split
  · next hmulti =>
    have hsome : s.movements ≠ [] := by simpa [Score.isMultiMovement] using hmulti
    refine (succeeds_bind fun _ => succeeds_ok _).trans (succeeds_mapM.trans ?_)
    rw [and_iff_left fun hnone => absurd hnone hsome]
    refine forall₂_congr fun m _ => ?_
    unfold LilyPond.movement
    exact succeeds_bind_pure.trans succeeds_scoreBlock
  · next hmulti =>
    have hnone : s.movements = [] := by simpa [Score.isMultiMovement] using hmulti
    refine succeeds_bind_pure.trans (succeeds_scoreBlock.trans ?_)
    simp [hnone]

/-- A score can be written as a plugin if all notes stand at finite offsets. -/
theorem succeeds_plugin : Succeeds (ImportPlugin.source s) ↔
    ∀ st ∈ s.staves, ∀ b ∈ st.bars, ∀ i ∈ b.items, i.isPlaced = true := by
  have hplaced : s.isPlaced = true ↔ ∀ st ∈ s.staves, ∀ b ∈ st.bars, ∀ i ∈ b.items,
      i.isPlaced = true := by
    simp only [Score.isPlaced, List.all_eq_true]
  rw [ImportPlugin.source, succeeds_map, ImportPlugin.lines, succeeds_map, ← hplaced]
  constructor
  · rintro ⟨ls, hls⟩
    exact ImportPlugin.isPlaced_of_code hls
  · intro h
    obtain ⟨ls, hls, -⟩ := ImportPlugin.writes_code h
    exact ⟨ls, hls⟩

/-- **Which documents can be converted.** A document that is read as a score can be written as
LilyPond source if and only if no element in the bars of its staves has one of the seven tags that
are refused and all pitches are in range; and as a plugin if and only if every element with notes,
in the bars of its own staves, stands at a finite offset. -/
theorem converts_iff {root : Element} {s : Score} (h : ofRoot root = .ok s) :
    (Succeeds (LilyPond.source s) ↔ ∀ st ∈ writtenStaves root, ∀ e ∈ barElements st,
      writable e = true) ∧
        (Succeeds (ImportPlugin.source s) ↔ ∀ st ∈ ownStaves root, ∀ e ∈ barElements st,
          placed e = true) := by
  rw [succeeds_source, succeeds_plugin]
  rcases ofRoot_cases h with ⟨ms, hms, hmovements, hstaves⟩ | ⟨hnone, hmovements, hstaves⟩
  · -- a plugin is written for no staves here, LilyPond source for those of all movements
    have hall :=
      forall_mem_of_mapM hmovements fun e m hm =>
        forall_movementOf (fun x i hi => succeeds_item? hi) hm
    rw [writtenStaves, ownStaves, hms, hstaves, hall, and_iff_left fun _ => List.forall_mem_nil _]
    simp only [Option.elim_some, List.mem_flatMap]
    refine ⟨⟨fun h st ⟨m, hm, hst⟩ => h m hm st hst, fun h m hm st hst => h st ⟨m, hm, hst⟩⟩, ?_⟩
    simp
  · rw [writtenStaves, ownStaves, hnone, hmovements, and_iff_right (List.forall_mem_nil _),
      forall_prop_of_true rfl]
    exact ⟨forall_stavesOf (fun x i hi => succeeds_item? hi) hstaves,
      forall_stavesOf (fun x i hi => isPlaced_iff hi) hstaves⟩

/-- A note at an offset and a slur can be written both ways. -/
theorem converts_iff_slur : ∃ s,
    ofRoot ⟨"mahlif", [],
      [.element "staves" [] [.element "staff" [("n", "1")] [.element "bar" [("n", "1")]
      [.element "note" [("pitch", "60"), ("dx", "1.5")] [],
        .element "slur" [("end-pos", "256")] []]]]]⟩ = .ok s ∧
    Succeeds (LilyPond.source s) ∧ Succeeds (ImportPlugin.source s) := by
  refine (ok_of_isOk ?_).imp fun s hs =>
    ⟨hs, (converts_iff hs).1.2 ?_, (converts_iff hs).2.2 ?_⟩ <;> decide +kernel

/-- A text over a bar is read and has no form in LilyPond source, and an infinite offset is read and
has none in a plugin. -/
theorem not_converts_text :
    ((ofRoot ⟨"mahlif", [],
      [.element "staves" [] [.element "staff" [("n", "1")] [.element "bar" [("n", "1")]
        [.element "text" [("pos", "0")] [.text "dolce".toList]]]]]⟩).toOption.map fun s =>
          (LilyPond.source s).isOk) = some false ∧
      ((ofRoot ⟨"mahlif", [],
        [.element "staves" [] [.element "staff" [("n", "1")] [.element "bar" [("n", "1")]
        [.element "note" [("pitch", "60"), ("dx", "inf")] []]]]]⟩).toOption.map fun s =>
          (ImportPlugin.source s).isOk) =
        some false := by
  decide +kernel

end Partitura.Score
