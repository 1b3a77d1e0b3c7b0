import Mathlib.Logic.Basic

/-!
# Attempts

Computations that may fail, taken apart: when one succeeds after another, and when one succeeds for
each element of a list.
-/

namespace Partitura

variable {ε α β : Type}

theorem ok_of_bind {e : Except ε α} {f : α → Except ε β} {b : β} (h : e >>= f = .ok b) :
    ∃ a, e = .ok a ∧ f a = .ok b := by
  cases e with
  | error x => cases h
  | ok a => exact ⟨a, rfl, h⟩

theorem ok_of_mapError {ε' : Type} {e : Except ε α} {f : ε → ε'} {a : α}
    (h : e.mapError f = .ok a) : e = .ok a := by
  cases e with
  | error x => cases h
  | ok b => cases h; rfl

theorem ok_of_isOk {e : Except ε α} (h : e.isOk = true) : ∃ a, e = .ok a := by
  cases e with
  | error x => cases h
  | ok a => exact ⟨a, rfl⟩

theorem ok_of_map {e : Except ε α} {f : α → β} {b : β} (h : e.map f = .ok b) :
    ∃ a, e = .ok a ∧ f a = b := by
  cases e with
  | error x => cases h
  | ok a => cases h; exact ⟨a, rfl, rfl⟩

/-- What the results of a list of computations come to, told from what they were computed from. -/
theorem map_of_mapM {γ : Type} {f : α → Except ε β} {as : List α} {bs : List β}
    (h : as.mapM f = .ok bs) {g : β → γ} {k : α → γ} (hgk : ∀ a b, f a = .ok b → g b = k a) :
    bs.map g = as.map k := by
  induction as generalizing bs with
  | nil => cases h; rfl
  | cons a as ih =>
    rw [List.mapM_cons] at h
    obtain ⟨b, hb, h⟩ := ok_of_bind h
    obtain ⟨cs, hcs, h⟩ := ok_of_bind h
    cases h
    rw [List.map_cons, List.map_cons, hgk a b hb, ih hcs]

/-- What holds of the results of a list of computations, said of what they were computed from. -/
theorem forall_mem_of_mapM {f : α → Except ε β} {as : List α} {bs : List β} (h : as.mapM f = .ok bs)
    {P : β → Prop} {Q : α → Prop} (hPQ : ∀ a b, f a = .ok b → (P b ↔ Q a)) :
    (∀ b ∈ bs, P b) ↔ ∀ a ∈ as, Q a := by
  have hmap : bs.map P = as.map Q := map_of_mapM h fun a b hb => propext (hPQ a b hb)
  have hall : (∀ p ∈ bs.map P, p) ↔ ∀ p ∈ as.map Q, p := by rw [hmap]
  rwa [List.forall_mem_map, List.forall_mem_map] at hall

theorem ok_of_mapM {f : α → Except ε β} {as : List α} {bs : List β} (h : as.mapM f = .ok bs) :
    ∀ a ∈ as, ∃ b, f a = .ok b :=
  (forall_mem_of_mapM h fun _ b hb => iff_of_true trivial ⟨b, hb⟩).1 fun _ _ => trivial

/-! ## Success -/

/-- The computation does not fail. -/
def Succeeds (e : Except ε α) : Prop := ∃ a, e = .ok a

theorem succeeds_ok (a : α) : Succeeds (.ok a : Except ε α) := ⟨a, rfl⟩

theorem not_succeeds_error (x : ε) : ¬ Succeeds (.error x : Except ε α) := by rintro ⟨a, h⟩; cases h

/-- Where all that follows succeeds, the first computation decides. -/
theorem succeeds_bind {e : Except ε α} {f : α → Except ε β} (hf : ∀ a, Succeeds (f a)) :
    Succeeds (e >>= f) ↔ Succeeds e := by
  constructor
  · rintro ⟨b, h⟩
    obtain ⟨a, ha, -⟩ := ok_of_bind h
    exact ⟨a, ha⟩
  · rintro ⟨a, rfl⟩
    exact hf a

theorem succeeds_bind_pure {e : Except ε α} {f : α → β} :
    Succeeds (e >>= fun a => pure (f a)) ↔ Succeeds e :=
  succeeds_bind fun a => succeeds_ok (f a)

theorem succeeds_map {e : Except ε α} {f : α → β} : Succeeds (e.map f) ↔ Succeeds e := by
  constructor
  · rintro ⟨b, h⟩
    obtain ⟨a, ha, -⟩ := ok_of_map h
    exact ⟨a, ha⟩
  · rintro ⟨a, rfl⟩
    exact ⟨f a, rfl⟩

theorem succeeds_mapM {f : α → Except ε β} {as : List α} :
    Succeeds (as.mapM f) ↔ ∀ a ∈ as, Succeeds (f a) := by
  refine ⟨fun ⟨bs, h⟩ => ok_of_mapM h, fun h => ?_⟩
  induction as with
  | nil => exact ⟨[], rfl⟩
  | cons a as ih =>
    obtain ⟨b, hb⟩ := h a (List.mem_cons_self ..)
    obtain ⟨bs, hbs⟩ := ih fun a' ha' => h a' (List.mem_cons_of_mem _ ha')
    exact ⟨b :: bs, by rw [List.mapM_cons, hb, hbs]; rfl⟩

end Partitura
