import Partitura.Cli.Job
import Partitura.Proofs.Attempts
import Partitura.Proofs.Files.FileTree

/-!
# What a job leaves as it was

A job keeps all but some files if, from whatever desk it starts and however it ends, the tree has
the same places afterwards and only these files may have other bytes (`Job.Keeps`). There is one
rule for each way of making a job. A job that keeps everything does not change the tree
(`Job.Keeps.files_eq`). What a job does after another one is read off its result by `run_bind_ok`.
-/

namespace Partitura.Cli.Job

open Files

variable {α β ε : Type} {cwd : Location} {ps qs : List Pathname} {d d' : Desk}

variable {p : Pathname}

/-! ## Jobs one after the other -/

theorem run_bind (x : Job α) (f : α → Job β) (d : Desk) :
    (x >>= f).run d =
      match x.run d with
      | (.ok a, d₁) => (f a).run d₁
      | (.error e, d₁) => (.error e, d₁) := by
  change (ExceptT.bindCont f (x.run d).1).run (x.run d).2 = _
  rcases x.run d with ⟨e | a, d₁⟩ <;> rfl

theorem run_bind_of_run {x : Job α} {a : α} (hx : x.run d = (.ok a, d')) (f : α → Job β) :
    (x >>= f).run d = (f a).run d' := by
  rw [run_bind, hx]

theorem run_bind_ok {x : Job α} {f : α → Job β} {b : β} (h : (x >>= f).run d = (.ok b, d')) :
    ∃ a d₁, x.run d = (.ok a, d₁) ∧ (f a).run d₁ = (.ok b, d') := by
  rw [run_bind] at h
  rcases hx : x.run d with ⟨e | a, d₁⟩
  · rw [hx] at h
    cases h
  · rw [hx] at h
    exact ⟨a, d₁, rfl, h⟩

/-- What is asked of the files is told, and nothing else happens. -/
theorem run_ask (p : Pathname) (f : FileTree → Except FileFault α) (d : Desk) :
    (ask p f).run d = ((f d.files).mapError (Failure.file · p), d) := by
  have hget : (get : Job Desk).run d = (.ok d, d) := rfl
  rw [ask, run_bind_of_run hget]
  cases f d.files <;> rfl

theorem run_ask_ok {f : FileTree → Except FileFault α} {a : α} (h : (ask p f).run d = (.ok a, d')) :
    f d.files = .ok a ∧ d' = d := by
  rw [run_ask, Prod.mk.injEq] at h
  exact ⟨ok_of_mapError h.1, h.2.symm⟩

theorem run_change (p : Pathname) (f : FileTree → Except FileFault FileTree) (d : Desk) :
    (change p f).run d =
      match f d.files with
      | .ok t => (.ok (), { d with files := t })
      | .error e => (.error (.file e p), d) := by
  rw [change, run_bind, run_ask]
  cases f d.files <;> rfl

theorem run_readFile_of_read {s : Setting} {bs : List UInt8} (h : d.files.read s.cwd p = .ok bs) :
    (readFile s p).run d = (.ok bs, d) := by
  rw [readFile, run_ask, h]
  rfl

theorem run_orFail_ok {cause : ε → Failure} {e : Except ε α} {a : α}
    (h : (orFail cause e).run d = (.ok a, d')) : e = .ok a ∧ d' = d := by
  cases e with
  | error x => cases h
  | ok b => cases h; exact ⟨rfl, rfl⟩

/-- Jobs without an effect, one for each element of a list, have none together. -/
theorem run_forM_of_run {xs : List β} {f : β → Job Unit} (h : ∀ x ∈ xs, (f x).run d = (.ok (), d)) :
    (xs.forM f).run d = (.ok (), d) := by
  induction xs with
  | nil => rfl
  | cons x xs ih =>
    refine (run_bind_of_run (h x List.mem_cons_self) _).trans ?_
    exact ih fun y hy => h y (List.mem_cons_of_mem x hy)

/-! ## The files that are kept -/

/-- However the job ends, places and files are as before, apart from the bytes of the files at the
paths `ps`. -/
def Keeps (cwd : Location) (ps : List Pathname) (job : Job α) : Prop :=
  ∀ d : Desk, d.files.SameBut cwd ps (job.run d).2.files

theorem Keeps.files_eq {job : Job α} (h : Keeps cwd [] job) (d : Desk) :
    (job.run d).2.files = d.files :=
  FileTree.SameBut.nil_iff.1 (h d)

theorem Keeps.sameBut {job : Job α} {r : Except Failure α} (h : Keeps cwd ps job)
    (hr : job.run d = (r, d')) : d.files.SameBut cwd ps d'.files := by
  have := h d
  rwa [hr] at this

theorem Keeps.files_eq_of_run {job : Job α} {r : Except Failure α} (h : Keeps cwd [] job)
    (hr : job.run d = (r, d')) : d'.files = d.files :=
  FileTree.SameBut.nil_iff.1 (h.sameBut hr)

theorem Keeps.mono {job : Job α} (h : Keeps cwd ps job) (hsub : ps ⊆ qs) : Keeps cwd qs job :=
  fun d => (h d).mono hsub

theorem keeps_of_files_eq {job : Job α} (h : ∀ d : Desk, (job.run d).2.files = d.files) :
    Keeps cwd ps job := by
  intro d
  rw [h d]
  exact FileTree.SameBut.refl cwd ps d.files

theorem keeps_pure (a : α) : Keeps cwd ps (pure a : Job α) := keeps_of_files_eq fun _ => rfl

theorem keeps_print (line : String) : Keeps cwd ps (print line) := keeps_of_files_eq fun _ => rfl

theorem keeps_ask (p : Pathname) (f : FileTree → Except FileFault α) : Keeps cwd ps (ask p f) := by
  refine keeps_of_files_eq fun d => ?_
  rw [run_ask]

theorem keeps_orFail (cause : ε → Failure) (e : Except ε α) : Keeps cwd ps (orFail cause e) := by
  cases e <;> exact keeps_of_files_eq fun _ => rfl

theorem sameBut_run_bind {x : Job α} {f : α → Job β} (hx : d.files.SameBut cwd ps (x.run d).2.files)
    (hf : ∀ a, Keeps cwd ps (f a)) : d.files.SameBut cwd ps ((x >>= f).run d).2.files := by
  rw [run_bind]
  rcases hxd : x.run d with ⟨e | a, d₁⟩
  · rwa [hxd] at hx
  · rw [hxd] at hx
    exact hx.trans (hf a d₁)

theorem keeps_bind {x : Job α} {f : α → Job β} (hx : Keeps cwd ps x)
    (hf : ∀ a, Keeps cwd ps (f a)) : Keeps cwd ps (x >>= f) :=
  fun d => sameBut_run_bind (hx d) hf

/-- Writing keeps all other files, if there is a file to write to. -/
theorem sameBut_run_writeFile {s : Setting} {id : Nat} (hid : d.files.file? s.cwd p = some id)
    (bs : List UInt8) : d.files.SameBut s.cwd [p] ((writeFile s p bs).run d).2.files := by
  rw [writeFile, run_change]
  cases hwrite : d.files.write s.cwd p bs with
  | error fault => exact FileTree.SameBut.refl _ _ _
  | ok t => exact FileTree.SameBut.write hid hwrite

theorem keeps_ite {c : Prop} [Decidable c] {x y : Job α} (hx : Keeps cwd ps x)
    (hy : Keeps cwd ps y) : Keeps cwd ps (if c then x else y) := by
  split
  · exact hx
  · exact hy

/-- A job for each element of a list. -/
theorem keeps_forM {xs : List β} {f : β → Job Unit} (h : ∀ x ∈ xs, Keeps cwd ps (f x)) :
    Keeps cwd ps (xs.forM f) := by
  induction xs with
  | nil => exact keeps_pure ()
  | cons x xs ih =>
    refine keeps_bind (h x List.mem_cons_self) fun _ => ?_
    exact ih fun y hy => h y (List.mem_cons_of_mem x hy)

end Partitura.Cli.Job
