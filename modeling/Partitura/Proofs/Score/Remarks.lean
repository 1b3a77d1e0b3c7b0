import Partitura.Proofs.Score.Converters

/-!
# Comments and instructions in a document

Remarks are the comments and instructions among the nodes of a document. All readers but that of
bars look at elements and at the text before the first child only. What they see is kept by `bare`,
which drops the remarks and all other text; bars without remarks are read from it as well
(`ofRoot_bare`). So one more remark in a document, at a place where it cuts no text that is read,
leaves the score as it is if and only if it does not stand in a bar that is read
(`ofRoot_remarked_iff`).
-/

namespace Partitura.Xml

/-- A comment or an instruction. -/
def Node.isRemark : Node → Bool
  | .comment | .instruction => true
  | _ => false

/-- An element as a node. -/
def Element.node (e : Element) : Node := .element e.tag e.attributes e.children

end Partitura.Xml

namespace Partitura.Score

open Number Xml

/-- The tags of the elements whose text is read. -/
def spokenTags : List String :=
  ["work-title", "composer", "lyricist", "arranger", "copyright", "publisher", "source-file",
    "source-format", "duration-ms", "title", "staff-height", "syl", "text", "rehearsal"]

/-- One remark more, among the children of an element or further inside; where the text of the
element is read, it does not cut it. In an element without text this may be any place. -/
inductive Remarked : Element → Element → Prop
  | here {tag : String} {attributes : List (String × String)} {before after : List Node} {r : Node}
    (hr : r.isRemark = true)
      (hplace : tag ∈ spokenTags →
        Element.leading (before ++ r :: after) = Element.leading (before ++ after)) :
      Remarked ⟨tag, attributes, before ++ after⟩ ⟨tag, attributes, before ++ r :: after⟩
  | inside {tag : String} {attributes : List (String × String)} {before after : List Node}
    {c c' : Element} (h : Remarked c c') :
      Remarked ⟨tag, attributes, before ++ c.node :: after⟩
        ⟨tag, attributes, before ++ c'.node :: after⟩

/-- The bars that are read inside of an element: those of its staves and of the system. -/
def partBars (e : Element) : List Element :=
  (staffElements e).flatMap (·.findAll "bar") ++
    ((e.find? "system-staff").map (·.findAll "bar")).getD []

/-- The bars of a document that are read: those of all movements, or its own if there are no
movements. -/
def readBars (root : Element) : List Element :=
  (root.find? "movements").elim (partBars root) fun ms => (ms.findAll "movement").flatMap partBars

/-- No remark is among the children of an element. -/
def Plain (e : Element) : Prop := ∀ n ∈ e.children, n.isRemark = false

/-! ## What is seen of an element -/

/-- The text of an element, if it is read. -/
def bareText (tag : String) (children : List Node) : List Node :=
  if tag ∈ spokenTags then [.text (Element.leading children)] else []

mutual

/-- An element with what is read of it, and nothing for another node. -/
def bareNode : Node → List Node
  | .element tag attributes children =>
    [.element tag attributes (bareText tag children ++ bareNodes children)]
  | _ => []

/-- The elements among some nodes, with what is read of them. -/
def bareNodes : List Node → List Node
  | [] => []
  | n :: r => bareNode n ++ bareNodes r

end

/-- An element with what is read of it: the text if it is one that is read, and the child
elements. -/
def bare (e : Element) : Element :=
  ⟨e.tag, e.attributes, bareText e.tag e.children ++ bareNodes e.children⟩

theorem bareNodes_append (xs ys : List Node) :
    bareNodes (xs ++ ys) = bareNodes xs ++ bareNodes ys := by
  induction xs with
  | nil => rfl
  | cons n r ih => rw [List.cons_append, bareNodes, bareNodes, ih, List.append_assoc]

theorem bareNode_remark {r : Node} (h : r.isRemark = true) : bareNode r = [] := by
  cases r <;> first | rfl | cases h

theorem bareNode_node (e : Element) : bareNode e.node = [(bare e).node] := rfl

theorem leading_node (xs ys : List Node) (e e' : Element) :
    Element.leading (xs ++ e.node :: ys) = Element.leading (xs ++ e'.node :: ys) := by
  induction xs with
  | nil => rfl
  | cons n r ih => cases n <;> simp [Element.leading, ih]

theorem bareText_congr {tag : String} {cs cs' : List Node}
    (h : tag ∈ spokenTags → Element.leading cs = Element.leading cs') :
    bareText tag cs = bareText tag cs' := by
  unfold bareText
  split
  · next ht => rw [h ht]
  · rfl

/-- A remark that cuts no text that is read is not seen. -/
theorem Remarked.bare_eq {e e' : Element} (h : Remarked e e') : bare e = bare e' := by
  induction h with
  | here hr hplace =>
    simp only [bare, bareNodes_append, bareNodes, bareNode_remark hr, List.nil_append,
      bareText_congr hplace]
  | @inside tag attributes before after c c' _ ih =>
    have htext :
        bareText tag (before ++ c.node :: after) = bareText tag (before ++ c'.node :: after) :=
      bareText_congr fun _ => leading_node ..
    have hnodes :
        bareNodes (before ++ c.node :: after) = bareNodes (before ++ c'.node :: after) := by
      rw [bareNodes_append, bareNodes_append, bareNodes, bareNodes, bareNode_node,
        bareNode_node, ih]
    rw [bare, bare, htext, hnodes]

/-! ## Children and texts -/

@[simp] theorem elements_bare (e : Element) : (bare e).elements = e.elements.map bare := by
  have htext : (bareText e.tag e.children).filterMap Node.element? = [] := by
    unfold bareText
    split <;> rfl
  rw [Element.elements, bare, List.filterMap_append, htext, List.nil_append, Element.elements]
  induction e.children with
  | nil => rfl
  | cons n r ih =>
    cases n with
    | element => simp [bareNodes, bareNode, Node.element?, ih, bare]
    | _ => exact ih

@[simp] theorem findAll_bare (e : Element) (tag : String) :
    (bare e).findAll tag = (e.findAll tag).map bare := by
  rw [Element.findAll, elements_bare, List.filter_map]
  rfl

@[simp] theorem find?_bare (e : Element) (tag : String) :
    (bare e).find? tag = (e.find? tag).map bare := by
  rw [Element.find?, elements_bare, List.find?_map]
  rfl

theorem text_bare {e : Element} (h : e.tag ∈ spokenTags) : (bare e).text = e.text := by
  have hnone : ∀ ns, Element.leading (bareNodes ns) = [] := by
    intro ns
    induction ns with
    | nil => rfl
    | cons n r ih => cases n <;> simp [bareNodes, bareNode, Element.leading, ih]
  simp [Element.text, bare, bareText, h, Element.leading, hnone]

theorem childText_bare {e : Element} {tag : String} (h : tag ∈ spokenTags) :
    childText (bare e) tag = childText e tag := by
  rw [childText, childText, find?_bare]
  cases hc : e.find? tag with
  | none => rfl
  | some c =>
    have htag : c.tag = tag := by simpa using List.find?_some hc
    exact text_bare (htag ▸ h)

theorem mapM_map_bare {α : Type} {f : Element → Except ReadError α} {cs : List Element}
    (h : ∀ c ∈ cs, f (bare c) = f c) : (cs.map bare).mapM f = cs.mapM f := by
  induction cs with
  | nil => rfl
  | cons c cs ih =>
    obtain ⟨hc, hcs⟩ := List.forall_mem_cons.1 h
    rw [List.map_cons, List.mapM_cons, List.mapM_cons, hc, ih hcs]

theorem tag_of_mem_findAll {e c : Element} {tag : String} (h : c ∈ e.findAll tag) :
    c.tag = tag := by
  simpa using (List.mem_filter.1 h).2

/-! ## Bars -/

theorem notesOf_bare (e : Element) : notesOf (bare e) = notesOf e := by
  unfold notesOf
  rw [findAll_bare, mapM_map_bare fun _ _ => rfl]
  rfl

theorem itemOf_bare (e : Element) : itemOf (bare e) = itemOf e := by
  have hnote : noteRestOf (bare e) = noteRestOf e := by
    unfold noteRestOf
    rw [notesOf_bare]
    rfl
  by_cases htag : e.tag ∈ spokenTags
  · unfold itemOf
    rw [hnote, text_bare htag]
    rfl
  · unfold itemOf
    have : (bare e).tag = e.tag := rfl
    rw [this]
    split
    case h_8 ht | h_10 ht => simp [ht, spokenTags] at htag
    all_goals first | rfl | rw [hnote]

/-- Bars without remarks hold what their elements are read as. -/
theorem itemsOf_eq {nodes : List Node} (h : ∀ n ∈ nodes, n.isRemark = false) :
    itemsOf nodes = (nodes.filterMap Node.element?).mapM itemOf := by
  fun_induction itemsOf nodes with
  | case1 => rfl
  | case2 cs r ih => exact ih fun n hn => h n (List.mem_cons_of_mem _ hn)
  | case3 tag attributes children r ih =>
    rw [ih fun n hn => h n (List.mem_cons_of_mem _ hn)]
    simp [Node.element?]
  | case4 n r hn ht =>
    cases n with
    | text cs => exact absurd rfl (hn cs)
    | element tag attributes children => exact absurd rfl (ht tag attributes children)
    | _ => cases h _ (List.mem_cons_self ..)

theorem plain_of_itemsOf {nodes : List Node} {items : List Item} (h : itemsOf nodes = .ok items) :
    ∀ n ∈ nodes, n.isRemark = false := by
  fun_induction itemsOf nodes generalizing items with
  | case1 => exact List.forall_mem_nil _
  | case2 cs r ih => exact List.forall_mem_cons.2 ⟨rfl, ih h⟩
  | case3 tag attributes children r ih =>
    obtain ⟨_, -, h⟩ := ok_of_bind h
    obtain ⟨_, hr, -⟩ := ok_of_bind h
    exact List.forall_mem_cons.2 ⟨rfl, ih hr⟩
  | case4 => cases h

theorem plain_bare (e : Element) : Plain (bare e) := by
  have hnodes : ∀ ns, ∀ n ∈ bareNodes ns, n.isRemark = false := by
    intro ns
    induction ns with
    | nil => exact List.forall_mem_nil _
    | cons m r ih => cases m <;> simpa [bareNodes, bareNode, Node.isRemark] using ih
  intro n hn
  rcases List.mem_append.1 hn with hn | hn
  · unfold bareText at hn
    split at hn
    · rw [List.mem_singleton.1 hn]
      rfl
    · cases hn
  · exact hnodes _ n hn

theorem barOf_bare {e : Element} (h : Plain e) : barOf (bare e) = barOf e := by
  have hitems : itemsOf (bare e).children = itemsOf e.children := by
    rw [itemsOf_eq h, itemsOf_eq (plain_bare e)]
    exact (congrArg _ (elements_bare e)).trans (mapM_map_bare fun c _ => itemOf_bare c)
  unfold barOf
  rw [hitems]
  rfl

theorem barsOf_bare {e : Element} (h : ∀ b ∈ e.findAll "bar", Plain b) :
    barsOf (bare e) = barsOf e := by
  unfold barsOf
  rw [findAll_bare, mapM_map_bare fun b hb => barOf_bare (h b hb)]

theorem plain_of_barsOf {e : Element} {bars : List Bar} (h : barsOf e = .ok bars) :
    ∀ b ∈ e.findAll "bar", Plain b := by
  intro b hb
  obtain ⟨_, hbar⟩ := ok_of_mapM h b hb
  exact plain_of_itemsOf (items_of_barOf hbar)

/-! ## Staves and pages -/

theorem lyricsOf_bare (e : Element) : lyricsOf (bare e) = lyricsOf e := by
  have hsyllable : ∀ c ∈ e.findAll "syl", syllableOf (bare c) = syllableOf c := by
    intro c hc
    unfold syllableOf
    rw [text_bare (by rw [tag_of_mem_findAll hc]; decide)]
    rfl
  unfold lyricsOf
  rw [findAll_bare, mapM_map_bare hsyllable]
  rfl

theorem staffOf_bare {e : Element} (h : ∀ b ∈ e.findAll "bar", Plain b) :
    staffOf (bare e) = staffOf e := by
  unfold staffOf
  rw [barsOf_bare h, findAll_bare, mapM_map_bare fun c _ => lyricsOf_bare c]
  rfl

theorem layoutIn_bare (e : Element) : layoutIn (bare e) = layoutIn e := by
  have hlayout : ∀ l, layoutOf (bare l) = layoutOf l := by
    intro l
    unfold layoutOf
    rw [find?_bare, childText_bare (by decide)]
    cases l.find? "page" <;> rfl
  unfold layoutIn
  rw [find?_bare]
  cases e.find? "layout" with
  | none => rfl
  | some l => exact hlayout l

theorem metaOf_bare (e : Element) : metaOf (bare e) = metaOf e := by
  unfold metaOf
  simp (disch := decide) only [childText_bare]

theorem partOf_bare {e : Element} (h : ∀ b ∈ partBars e, Plain b) :
    stavesOf (bare e) = stavesOf e ∧ systemOf (bare e) = systemOf e := by
  obtain ⟨hstaves, hsystem⟩ := List.forall_mem_append.1 h
  constructor
  · have helements : staffElements (bare e) = (staffElements e).map bare := by
      unfold staffElements
      cases hs : e.find? "staves" <;> simp [hs]
    rw [stavesOf_eq, stavesOf_eq, helements]
    exact mapM_map_bare fun st hst => staffOf_bare fun b hb =>
      hstaves b (List.mem_flatMap.2 ⟨st, hst, hb⟩)
  · unfold systemOf
    rw [find?_bare]
    cases hs : e.find? "system-staff" with
    | none => rfl
    | some s =>
      rw [hs] at hsystem
      exact barsOf_bare hsystem

theorem plain_of_partOf {e : Element} {sts : List Staff} {bars : List Bar}
    (hstaves : stavesOf e = .ok sts) (hsystem : systemOf e = .ok bars) :
    ∀ b ∈ partBars e, Plain b := by
  refine List.forall_mem_append.2 ⟨?_, ?_⟩
  · intro b hb
    obtain ⟨st, hst, hb⟩ := List.mem_flatMap.1 hb
    obtain ⟨_, hstaff⟩ := ok_of_mapM ((stavesOf_eq e).symm.trans hstaves) st hst
    exact plain_of_barsOf (bars_of_staffOf hstaff) b hb
  · unfold systemOf at hsystem
    cases hs : e.find? "system-staff" with
    | none => simp
    | some s =>
      rw [hs] at hsystem
      exact plain_of_barsOf hsystem

theorem movementOf_bare {e : Element} (h : ∀ b ∈ partBars e, Plain b) :
    movementOf (bare e) = movementOf e := by
  obtain ⟨hstaves, hsystem⟩ := partOf_bare h
  unfold movementOf
  rw [find?_bare, layoutIn_bare, hstaves, hsystem]
  cases e.find? "movement-meta" with
  | none => rfl
  | some m =>
    simp (disch := decide) only [Option.map_some, childText_bare]
    rfl

theorem plain_of_movementOf {e : Element} {m : Movement} (h : movementOf e = .ok m) :
    ∀ b ∈ partBars e, Plain b := by
  obtain ⟨hstaves, hsystem⟩ := parts_of_movementOf h
  exact plain_of_partOf hstaves hsystem

/-! ## Documents -/

/-- Where no remark stands in a bar that is read, only what is kept by `bare` is read. -/
theorem ofRoot_bare {root : Element} (h : ∀ b ∈ readBars root, Plain b) :
    ofRoot (bare root) = ofRoot root := by
  unfold readBars at h
  unfold ofRoot
  rw [find?_bare, find?_bare]
  cases hmovements : root.find? "movements" with
  | some ms =>
    rw [hmovements] at h
    have hall :
        ((bare ms).findAll "movement").mapM movementOf =
          (ms.findAll "movement").mapM movementOf := by
      rw [findAll_bare, mapM_map_bare fun m hm => movementOf_bare fun b hb =>
        h b (List.mem_flatMap.2 ⟨m, hm, hb⟩)]
    simp only [Option.map_some, hall]
    cases root.find? "meta" with
    | none => rfl
    | some m => simp only [Option.map_some, metaOf_bare]; rfl
  | none =>
    rw [hmovements] at h
    obtain ⟨hstaves, hsystem⟩ := partOf_bare h
    simp only [Option.map_none, layoutIn_bare, hstaves, hsystem]
    cases root.find? "meta" with
    | none => rfl
    | some m => simp only [Option.map_some, metaOf_bare]; rfl

/-- In a document that is read as a score no remark stands in a bar that is read. -/
theorem plain_of_ofRoot {root : Element} {s : Score} (h : ofRoot root = .ok s) :
    ∀ b ∈ readBars root, Plain b := by
  unfold readBars
  rcases ofRoot_parts h with ⟨ms, hms, hmovements, -⟩ | ⟨hnone, -, hstaves, hsystem⟩
  · rw [hms]
    intro b hb
    obtain ⟨m, hm, hb⟩ := List.mem_flatMap.1 hb
    obtain ⟨_, hmovement⟩ := ok_of_mapM hmovements m hm
    exact plain_of_movementOf hmovement b hb
  · rw [hnone]
    exact plain_of_partOf hstaves hsystem

/-- **Remarks in a document.** One more comment or instruction, at a place where it cuts no text
that is read, leaves the score as it is if and only if the bars that are read are still without
remarks. In such a bar it is taken for an element that is not known. -/
theorem ofRoot_remarked_iff {root root' : Element} {s : Score} (hs : ofRoot root = .ok s)
    (h : Remarked root root') :
    ofRoot root' = .ok s ↔ ∀ b ∈ readBars root', ∀ n ∈ b.children, n.isRemark = false := by
  refine ⟨plain_of_ofRoot, fun hplain => ?_⟩
  rw [← ofRoot_bare hplain, ← h.bare_eq, ofRoot_bare (plain_of_ofRoot hs), hs]

/-- A staff with a note in its bar, and with these nodes before it. -/
def noteStaff (inBar : List Node) : Node :=
  .element "staff" [] [.element "bar" [] (inBar ++ [.element "note" [] []])]

/-- A document with a note, and with these nodes before its staff and before its note. -/
def noteDocument (inStaves inBar : List Node) : Element :=
  ⟨"mahlif", [], [.element "staves" [] (inStaves ++ [noteStaff inBar])]⟩

theorem ofRoot_remarked_staves :
    ∃ s, ofRoot (noteDocument [] []) = .ok s ∧ ofRoot (noteDocument [.comment] []) = .ok s := by
  obtain ⟨s, hs⟩ := ok_of_isOk (show (ofRoot (noteDocument [] [])).isOk = true by decide +kernel)
  have hstaves :
      Remarked ⟨"staves", [], [] ++ [noteStaff []]⟩
        ⟨"staves", [], [] ++ .comment :: [noteStaff []]⟩ :=
    .here rfl fun hspoken => absurd hspoken (by decide)
  have hplace : Remarked (noteDocument [] []) (noteDocument [.comment] []) :=
    @Remarked.inside "mahlif" [] [] [] _ _ hstaves
  exact ⟨s, hs, (ofRoot_remarked_iff hs hplace).2 (by decide +kernel)⟩

theorem ofRoot_remarked_bar : (ofRoot (noteDocument [] [])).isOk = true ∧
    (ofRoot (noteDocument [] [.comment])).isOk = false := by
  decide +kernel

end Partitura.Score
