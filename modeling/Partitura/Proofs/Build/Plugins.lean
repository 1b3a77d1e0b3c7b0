import Mathlib
import Partitura.Build.Plugins
import Partitura.Proofs.Cli.Job

/-!
# What building plugins leaves alone

A build goes through its steps in a fixed order: the sources are found, laid out in place, linted,
and only then written and linked. Each step has a lemma that says which files it keeps. Without
leave to change anything no step changes the tree (`keeps_build_of_dryRun`). A build that ends with
an error has not come to the last two steps, so all that it may have changed are the bytes of the
sources it was asked for (`build_keeps`). These bytes can be read under other paths as well: a link
to a source follows it (`build_changes_link`).
-/

namespace Partitura.Build

open Files Cli Job

variable {s : Setting} {a : BuildArguments} {ps : List Pathname} {d d' : Desk}

variable {plugins : List Pathname} {output : Pathname}

/-! ## Steps that keep the files -/

theorem keeps_say (line : String) : Keeps s.cwd ps (say a line) :=
  keeps_ite (keeps_print line) (keeps_pure ())

theorem files_eq_of_say {line : String} {r : Except Failure Unit}
    (h : (say a line).run d = (r, d')) : d'.files = d.files := by
  have hkeeps : Keeps [] [] (say a line) := keeps_ite (keeps_print line) (keeps_pure ())
  exact hkeeps.files_eq_of_run h

theorem keeps_sayDryRun : Keeps s.cwd ps (sayDryRun a) :=
  keeps_ite (keeps_bind (keeps_say _) fun _ => keeps_say _) (keeps_pure ())

theorem keeps_act_of_dryRun (h : a.dryRun = true) (job : Job Unit) :
    Keeps s.cwd ps (act a job) := by
  rw [act, if_pos h]
  exact keeps_pure ()

theorem keeps_lintPath (p : Pathname) : Keeps s.cwd ps (lintPath s p) :=
  keeps_bind (keeps_ask p _) fun _ => keeps_orFail _ _

theorem keeps_lintOne (p : Pathname) : Keeps s.cwd ps (lintOne s a p) := by
  refine keeps_bind (keeps_lintPath p) fun found => keeps_ite ?_ ?_
  · exact keeps_bind (keeps_say _) fun _ => keeps_pure _
  · refine keeps_bind (keeps_say _) fun _ => ?_
    exact keeps_bind (keeps_forM fun e _ => keeps_say _) fun _ => keeps_pure _

theorem keeps_lintAll (plugins : List Pathname) : Keeps s.cwd ps (lintAll s a plugins) := by
  induction plugins with
  | nil => exact keeps_pure _
  | cons p plugins ih =>
    exact keeps_bind (keeps_lintOne p) fun _ => keeps_bind ih fun _ => keeps_pure _

theorem keeps_tellMissing (dir : Pathname) (missing : List String) :
    Keeps s.cwd ps (tellMissing s a dir missing) := by
  refine keeps_ite ?_ (keeps_pure _)
  refine keeps_bind (keeps_print _) fun _ => keeps_bind (keeps_ask dir _) fun available => ?_
  exact keeps_ite (keeps_bind (keeps_print _) fun _ => keeps_pure _) (keeps_pure _)

/-- Laying out a source changes no other file: what is written to has been read. -/
theorem keeps_formatOne (p : Pathname) : Keeps s.cwd [p] (formatOne s a p) := by
  intro d
  rw [formatOne, run_bind, readFile, run_ask]
  cases hread : d.files.read s.cwd p with
  | error fault => exact FileTree.SameBut.refl _ _ _
  | ok bs =>
    obtain ⟨id, hid, -⟩ := FileTree.exists_of_read hread
    simp only [Except.mapError, run_bind]
    cases Layout.file? bs with
    | error fault => exact FileTree.SameBut.refl _ _ _
    | ok laid =>
      cases laid with
      | none => exact FileTree.SameBut.refl _ _ _
      | some bs' => exact sameBut_run_bind (sameBut_run_writeFile hid bs') fun _ => keeps_say _

theorem keeps_formatting (plugins : List Pathname) :
    Keeps s.cwd plugins (plugins.forM fun p => act a (formatOne s a p)) := by
  refine keeps_forM fun p hp => keeps_ite (keeps_pure ()) ?_
  exact (keeps_formatOne p).mono (List.cons_subset.2 ⟨hp, List.nil_subset _⟩)

/-! ## Without leave to change anything -/

theorem keeps_linkAll_of_dryRun (h : a.dryRun = true) (dir : Pathname) (built : List Pathname) :
    Keeps s.cwd ps (linkAll s a dir built) := by
  refine keeps_bind (keeps_act_of_dryRun h _) fun _ => keeps_bind (keeps_say _) fun _ =>
    keeps_forM fun target _ => ?_
  exact keeps_bind (keeps_say _) fun _ => keeps_act_of_dryRun h _

theorem keeps_linkStep_of_dryRun (h : a.dryRun = true) (built : List Pathname) :
    Keeps s.cwd ps (linkStep s a built) := by
  refine keeps_ite (keeps_pure _) (keeps_ite ?_ (keeps_pure _))
  cases pluginDirectory? s with
  | none => exact keeps_bind (keeps_say _) fun _ => keeps_bind (keeps_say _) fun _ => keeps_pure _
  | some dir => exact keeps_bind (keeps_linkAll_of_dryRun h dir built) fun _ => keeps_pure _

theorem keeps_writeStep_of_dryRun (h : a.dryRun = true) (output : Pathname)
    (plugins : List Pathname) : Keeps s.cwd ps (writeStep s a output plugins) := by
  refine keeps_bind (keeps_act_of_dryRun h _) fun _ => ?_
  refine keeps_bind
    (keeps_forM fun p _ => keeps_bind (keeps_say _) fun _ => keeps_act_of_dryRun h _) fun _ => ?_
  refine keeps_bind (keeps_linkStep_of_dryRun h _) fun loaded =>
    keeps_bind (keeps_say _) fun _ => ?_
  exact keeps_ite (keeps_bind (keeps_say _) fun _ => keeps_pure _) (keeps_pure _)

theorem keeps_checkStep_of_dryRun (h : a.dryRun = true) (output : Pathname)
    (plugins : List Pathname) : Keeps s.cwd ps (checkStep s a output plugins) := by
  refine keeps_bind keeps_sayDryRun fun _ => keeps_bind (keeps_say _) fun _ => ?_
  refine keeps_bind (keeps_forM fun p _ => keeps_act_of_dryRun h _) fun _ =>
    keeps_bind (keeps_say _) fun _ => ?_
  refine keeps_bind (keeps_lintAll plugins) fun failed =>
    keeps_ite ?_ (keeps_writeStep_of_dryRun h output plugins)
  exact keeps_bind (keeps_say _) fun _ => keeps_pure _

theorem keeps_buildInto_of_dryRun (h : a.dryRun = true) (dir output : Pathname) :
    Keeps s.cwd ps (buildInto s a dir output) := by
  refine keeps_bind (keeps_ask dir _) fun found => ?_
  refine keeps_ite (keeps_tellMissing dir _) (keeps_ite ?_ (keeps_checkStep_of_dryRun h output _))
  exact keeps_bind (keeps_say _) fun _ => keeps_pure _

theorem keeps_build_of_dryRun (h : a.dryRun = true) : Keeps s.cwd ps (build s a) := by
  refine keeps_ite ?_ (keeps_buildInto_of_dryRun h _ _)
  cases pluginDirectory? s with
  | none => exact keeps_bind (keeps_say _) fun _ => keeps_bind (keeps_say _) fun _ => keeps_pure _
  | some installed => exact keeps_buildInto_of_dryRun h _ _

/-! ## Builds that end with an error -/

/-- The linter finds errors in the file at a path. -/
def HasErrors (s : Setting) (t : FileTree) (p : Pathname) : Prop :=
  ∃ bs found, t.read s.cwd p = .ok bs ∧ Lint.lintFile .reference true bs = .ok found ∧
    ∃ e ∈ found, isError e

theorem hasErrors_of_lintOne {p : Pathname} (h : (lintOne s a p).run d = (.ok true, d')) :
    HasErrors s d.files p := by
  obtain ⟨found, d₁, hfound, hend⟩ := run_bind_ok h
  obtain ⟨bs, d₂, hbs, hfound⟩ := run_bind_ok hfound
  obtain ⟨hread, -⟩ := run_ask_ok hbs
  obtain ⟨hlint, -⟩ := run_orFail_ok hfound
  refine ⟨bs, found, hread, hlint, ?_⟩
  simp only at hend
  split at hend
  · -- without errors the answer is no
    obtain ⟨_, _, _, hend⟩ := run_bind_ok hend
    cases hend
  · next hne => simpa [List.filter_eq_nil_iff] using hne

theorem hasErrors_of_lintAll (h : (lintAll s a plugins).run d = (.ok true, d')) :
    ∃ p ∈ plugins, HasErrors s d.files p := by
  induction plugins generalizing d d' with
  | nil => cases h
  | cons p plugins ih =>
    obtain ⟨failed, d₁, hp, h⟩ := run_bind_ok h
    obtain ⟨rest, d₂, hrest, h⟩ := run_bind_ok h
    cases failed with
    | true => exact ⟨p, List.mem_cons_self, hasErrors_of_lintOne hp⟩
    | false =>
      obtain rfl : rest = true := by cases h; rfl
      obtain ⟨q, hq, herrors⟩ := ih hrest
      have hfiles : d₁.files = d.files := (keeps_lintOne p).files_eq_of_run hp
      exact ⟨q, List.mem_cons_of_mem p hq, hfiles ▸ herrors⟩

theorem eq_zero_of_writeStep {n : Nat} (h : (writeStep s a output plugins).run d = (.ok n, d')) :
    n = 0 := by
  obtain ⟨_, _, _, h⟩ := run_bind_ok h
  obtain ⟨_, _, _, h⟩ := run_bind_ok h
  obtain ⟨_, _, _, h⟩ := run_bind_ok h
  obtain ⟨_, _, _, h⟩ := run_bind_ok h
  split at h
  · obtain ⟨_, _, _, h⟩ := run_bind_ok h
    cases h
    rfl
  · cases h
    rfl

/-- A build that fails in this step has changed nothing but sources. -/
theorem sameBut_of_checkStep (h : (checkStep s a output plugins).run d = (.ok 1, d')) :
    d.files.SameBut s.cwd plugins d'.files ∧ ∃ p ∈ plugins, HasErrors s d'.files p := by
  obtain ⟨_, d₁, h₁, h⟩ := run_bind_ok h
  obtain ⟨_, d₂, h₂, h⟩ := run_bind_ok h
  obtain ⟨_, d₃, h₃, h⟩ := run_bind_ok h
  obtain ⟨_, d₄, h₄, h⟩ := run_bind_ok h
  obtain ⟨failed, d₅, h₅, h⟩ := run_bind_ok h
  -- only the third of these steps writes, and it writes to sources
  have hbefore : d.files.SameBut s.cwd plugins d₄.files :=
    (keeps_sayDryRun.sameBut h₁).trans <| ((keeps_say _).sameBut h₂).trans <|
      ((keeps_formatting plugins).sameBut h₃).trans ((keeps_say _).sameBut h₄)
  have hlint : d₅.files = d₄.files := (keeps_lintAll plugins).files_eq_of_run h₅
  split at h
  case isTrue hfailed =>
    obtain ⟨_, _, h₆, h⟩ := run_bind_ok h
    cases h
    rw [files_eq_of_say h₆, hlint]
    exact ⟨hbefore, hasErrors_of_lintAll (hfailed ▸ h₅)⟩
  case isFalse => exact absurd (eq_zero_of_writeStep h) Nat.one_ne_zero

/-- How a build into a directory comes to report an error, and what it has changed until then. -/
theorem sameBut_of_buildInto {dir : Pathname} (h : (buildInto s a dir output).run d = (.ok 1, d')) :
    ∃ plugins missing, resolve d.files s.cwd dir a.names = .ok (plugins, missing) ∧
      (missing ≠ [] ∧ d'.files = d.files ∨
        missing = [] ∧ d.files.SameBut s.cwd plugins d'.files ∧ ∃ p ∈ plugins,
          HasErrors s d'.files p) := by
  obtain ⟨⟨plugins, missing⟩, d₁, hask, hrest⟩ := run_bind_ok h
  obtain ⟨hresolve, rfl⟩ := run_ask_ok hask
  refine ⟨plugins, missing, hresolve, ?_⟩
  simp only at hrest
  split at hrest
  case isTrue hmissing =>
    refine .inl ⟨by simpa using hmissing, ?_⟩
    exact (keeps_tellMissing dir missing).files_eq_of_run hrest
  case isFalse hmissing =>
    refine .inr ⟨by simpa using hmissing, ?_⟩
    split at hrest
    · -- without any plugin there is no error
      obtain ⟨_, _, _, hrest⟩ := run_bind_ok hrest
      cases hrest
    · exact sameBut_of_checkStep hrest

/-- Without leave to change anything a build leaves the tree as it was, however it ends. With leave,
a build that reports an error has found no directory for plugins, or not all the plugins it was
asked for, and then the tree is as it was; or it has found an error in one of the sources, and then
every place is as it was, and every file but the sources. -/
theorem build_keeps (s : Setting) (a : BuildArguments) (d : Desk) :
    (a.dryRun = true → ((build s a).run d).2.files = d.files) ∧
      (((build s a).run d).1 = .ok 1 →
        (a.install = true ∧ pluginDirectory? s = none ∧ ((build s a).run d).2.files = d.files) ∨
        ∃ plugins missing, resolve d.files s.cwd (a.source.getD s.bundle) a.names =
          .ok (plugins, missing) ∧ (missing ≠ [] ∧ ((build s a).run d).2.files = d.files ∨
            missing = [] ∧ d.files.SameBut s.cwd plugins ((build s a).run d).2.files ∧
              ∃ p ∈ plugins, HasErrors s ((build s a).run d).2.files p)) := by
  refine ⟨fun h => (keeps_build_of_dryRun h).files_eq d, fun hone => ?_⟩
  have h : (build s a).run d = (.ok 1, ((build s a).run d).2) := Prod.ext hone rfl
  generalize ((build s a).run d).2 = d' at h ⊢
  rw [build] at h
  split at h
  case isTrue hinstall =>
    cases hdir : pluginDirectory? s with
    | none =>
      simp only [hdir] at h
      obtain ⟨_, d₁, h₁, h⟩ := run_bind_ok h
      obtain ⟨_, d₂, h₂, h⟩ := run_bind_ok h
      cases h
      refine .inl ⟨hinstall, rfl, ?_⟩
      exact (files_eq_of_say h₂).trans (files_eq_of_say h₁)
    | some installed =>
      simp only [hdir] at h
      exact .inr (sameBut_of_buildInto h)
  case isFalse => exact .inr (sameBut_of_buildInto h)

/-! ## Files with several names -/

theorem run_say_of_quiet (h : a.verbose = false) (line : String) :
    (say a line).run d = (.ok (), d) := by
  rw [say, h, if_neg Bool.false_ne_true]
  rfl

/-- A quiet job that finds errors says so and does nothing else. -/
theorem run_lintOne_of_hasErrors {p : Pathname} (hquiet : a.verbose = false)
    (h : HasErrors s d.files p) : (lintOne s a p).run d = (.ok true, d) := by
  obtain ⟨bs, found, hread, hlint, e, he, herror⟩ := h
  have hlintPath : (lintPath s p).run d = (.ok found, d) := by
    rw [lintPath, run_bind_of_run (run_readFile_of_read hread), hlint]
    rfl
  have hne : ¬(found.filter isError).isEmpty := by
    rw [List.isEmpty_iff]
    exact List.ne_nil_of_mem (List.mem_filter.2 ⟨he, herror⟩)
  rw [lintOne, run_bind_of_run hlintPath, if_neg hne, run_bind_of_run (run_say_of_quiet hquiet _),
    run_bind_of_run (run_forM_of_run fun e _ => run_say_of_quiet hquiet _)]
  rfl

/-- A quiet build ends with an error if one is found when the sources have been laid out. -/
theorem run_checkStep_of_lintAll {d₁ d₂ : Desk} (hquiet : a.verbose = false)
    (hformat : (plugins.forM fun p => act a (formatOne s a p)).run d = (.ok (), d₁))
    (hlint : (lintAll s a plugins).run d₁ = (.ok true, d₂)) :
    (checkStep s a output plugins).run d = (.ok 1, d₂) := by
  have hdry : (sayDryRun a).run d = (.ok (), d) := by
    rw [sayDryRun]
    split
    · rw [run_bind_of_run (run_say_of_quiet hquiet _), run_say_of_quiet hquiet]
    · rfl
  rw [checkStep, run_bind_of_run hdry, run_bind_of_run (run_say_of_quiet hquiet _),
    run_bind_of_run hformat, run_bind_of_run (run_say_of_quiet hquiet _),
    run_bind_of_run hlint, if_pos rfl, run_bind_of_run (run_say_of_quiet hquiet _)]
  rfl

theorem run_buildInto_of_resolve {dir : Pathname}
    (h : resolve d.files s.cwd dir a.names = .ok (plugins, [])) (hne : plugins ≠ [])
    (output : Pathname) :
    (buildInto s a dir output).run d = (checkStep s a output plugins).run d := by
  have hask : (ask dir (resolve · s.cwd dir a.names)).run d = (.ok (plugins, []), d) := by
    rw [run_ask, h]
    rfl
  have hplugins : ¬plugins.isEmpty := by rwa [List.isEmpty_iff]
  rw [buildInto, run_bind_of_run hask]
  simp only [List.isEmpty_nil, Bool.not_true, Bool.false_eq_true, if_false, if_neg hplugins]

/-- Two names for one file. -/
def linkedTree (bs : List UInt8) : FileTree := ⟨[(["A.plg"], .file 0), (["B.plg"], .file 0)], [bs]⟩

/-- A setting in which the plugins are right below the root. -/
def rootSetting : Setting := ⟨[], .fromRoot ["home"], .mac, .fromRoot [], none⟩

theorem hasErrors_linkedTree : HasErrors rootSetting (linkedTree [0x78, 0x0A]) ⟨0, ["A.plg"]⟩ := by
  refine ⟨[0x78, 0x0A], _, rfl, rfl, ⟨⟨1, 1⟩, .noOpeningBrace⟩, ?_, by decide⟩
  rw [Lint.lintText, List.mem_mergeSort]
  decide +kernel

/-- A file that is asked for under one of its names, is laid out and then fails has other bytes
under its second name as well, and this is not the path of a source. -/
theorem build_changes_link :
    resolve (linkedTree [0x78]) [] (.fromRoot []) ["A.plg"] = .ok ([⟨0, ["A.plg"]⟩], []) ∧
      (build rootSetting { names := ["A.plg"], verbose := false }).run ⟨linkedTree [0x78], "", ""⟩ =
        (.ok 1, ⟨linkedTree [0x78, 0x0A], "", ""⟩) ∧
      (linkedTree [0x78]).read [] ⟨0, ["B.plg"]⟩ = .ok [0x78] ∧
      (linkedTree [0x78, 0x0A]).read [] ⟨0, ["B.plg"]⟩ = .ok [0x78, 0x0A] := by
  have hresolve :
      resolve (linkedTree [0x78]) [] (.fromRoot []) ["A.plg"] = .ok ([⟨0, ["A.plg"]⟩], []) := rfl
  refine ⟨hresolve, ?_, rfl, rfl⟩
  have hread : (linkedTree [0x78]).read [] ⟨0, ["A.plg"]⟩ = .ok [0x78] := rfl
  have hlaid : Layout.file? [0x78] = .ok (some [0x78, 0x0A]) := by cbv
  have hformat : (formatOne rootSetting { names := ["A.plg"], verbose := false } ⟨0, ["A.plg"]⟩).run
      ⟨linkedTree [0x78], "", ""⟩ = (.ok (), ⟨linkedTree [0x78, 0x0A], "", ""⟩) := by
    rw [formatOne, run_bind_of_run (run_readFile_of_read hread), hlaid]
    rfl
  have hformats : ([⟨0, ["A.plg"]⟩].forM fun p => act { names := ["A.plg"], verbose := false }
      (formatOne rootSetting { names := ["A.plg"], verbose := false } p)).run
        ⟨linkedTree [0x78], "", ""⟩ =
        (.ok (), ⟨linkedTree [0x78, 0x0A], "", ""⟩) :=
    (run_bind_of_run hformat _).trans rfl
  have hlint : (lintAll rootSetting { names := ["A.plg"], verbose := false } [⟨0, ["A.plg"]⟩]).run
      ⟨linkedTree [0x78, 0x0A], "", ""⟩ = (.ok true, ⟨linkedTree [0x78, 0x0A], "", ""⟩) := by
    rw [lintAll, run_bind_of_run (run_lintOne_of_hasErrors rfl hasErrors_linkedTree)]
    rfl
  rw [build, if_neg Bool.false_ne_true]
  exact (run_buildInto_of_resolve hresolve (by decide) _).trans
    (run_checkStep_of_lintAll rfl hformats hlint)

end Partitura.Build
