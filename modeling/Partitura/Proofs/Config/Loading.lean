import Partitura.Config.Find
import Partitura.Proofs.Attempts

/-!
# Which configurations can be loaded

What a file tells is said by keys that lead through tables: a setting under keys that lead nowhere,
or to a value of the wrong kind, has its default (`toldSettings`). Loading gives these settings, or
fails where the shared file has a value in the place of a table that only the search looks at, or
where a code is a number that is too long to be written (`load_eq_ok_iff`).
-/

namespace Partitura.Config

open Files

variable {t : FileTree} {p : Pathname}

/-- The value that keys lead to, through tables. -/
def Value.under? : List String → Value → Option Value
  | [], v => some v
  | k :: ks, .table ms => (ms.lookup k).bind (under? ks)
  | _ :: _, _ => none

/-- The items of a list that are something; none of a value that is no list. -/
def itemsIn : Option Value → List Value
  | some (.list vs) => vs.filter Value.isSomething
  | _ => []

/-- A yes or no; no for a value that is neither. -/
def truthIn : Option Value → Bool
  | some (.truth b) => b
  | _ => false

/-- The settings of these values, with the default for a value that is missing or of the wrong
kind. -/
def toldSettings (value? : String → Option Value) : LintSettings where
  ignore := (itemsIn (value? "ignore")).map Value.words
  fixable := (itemsIn (value? "fixable")).map Value.words
  unfixable := (itemsIn (value? "unfixable")).map Value.words
  error := (itemsIn (value? "error")).map Value.words
  strict := truthIn (value? "strict")

/-- All codes among these values can be written. -/
def CodesShort (value? : String → Option Value) : Prop :=
  ∀ key ∈ ["ignore", "fixable", "unfixable", "error"], ∀ v ∈ itemsIn (value? key),
    v.isWritable = true

instance (value? : String → Option Value) : Decidable (CodesShort value?) :=
  inferInstanceAs (Decidable (∀ key ∈ _, ∀ v ∈ itemsIn (value? key), _))

/-- The settings of these values, if their codes can be written. -/
def writtenSettings (value? : String → Option Value) : Except SettingsFault LintSettings :=
  if CodesShort value? then .ok (toldSettings value?) else .error .longNumber

/-! ## Settings in a table -/

theorem codesUnder_eq (key : String) (ms : List (String × Value)) :
    codesUnder key ms =
      if ∀ v ∈ itemsIn (ms.lookup key), v.isWritable = true then
        .ok ((itemsIn (ms.lookup key)).map Value.words)
      else .error .longNumber := by
  unfold codesUnder
  split
  · next vs h => simp only [h, itemsIn, List.all_eq_true]
  · next h =>
    have hnone : itemsIn (ms.lookup key) = [] := by
      unfold itemsIn
      split
      · next vs hv => exact absurd hv (h vs)
      · rfl
    simp [hnone]

theorem ite_bind {ε α β : Type} {c : Prop} [Decidable c] (a : α) (e : ε) (f : α → Except ε β) :
    ((if c then .ok a else .error e : Except ε α) >>= f) = if c then f a else .error e := by
  split <;> rfl

/-- The settings in the table of the linter are told by the values under its keys. -/
theorem ofTable_eq (ms : List (String × Value)) :
    LintSettings.ofTable ms = writtenSettings (fun key => ms.lookup key) := by
  simp only [LintSettings.ofTable, codesUnder_eq, ite_bind, writtenSettings, CodesShort,
    List.forall_mem_cons, ← ite_and]
  simp only [List.not_mem_nil, false_imp_iff, implies_true, and_true]
  rfl

/-- No keys lead further from a value that is no table. -/
theorem under?_eq_none {k : String} {ks : List String} {v? : Option Value}
    (h : ∀ ms, v? ≠ some (.table ms)) : v?.bind (Value.under? (k :: ks)) = none := by
  cases v? with
  | none => rfl
  | some v =>
    cases v with
    | table ms => exact absurd rfl (h ms)
    | _ => rfl

/-- The settings in a whole configuration are told by the values that keys lead to. -/
theorem ofConfiguration_eq (ms : List (String × Value)) :
    LintSettings.ofConfiguration ms = writtenSettings fun key =>
      Value.under? ["sibelius", "lint", key] (.table ms) := by
  unfold LintSettings.ofConfiguration
  split
  · next sibelius hs =>
    simp only [Value.under?, hs, Option.bind_some]
    split
    · next lint hl =>
      rw [ofTable_eq]
      simp [Value.under?, hl]
    · next hl =>
      simp only [under?_eq_none hl]
      rfl
  · next hs =>
    simp only [Value.under?.eq_2, under?_eq_none hs]
    rfl

/-! ## Settings in a file -/

/-- The keys that lead to the configuration in a file of that name. -/
def partKeys (name : String) : List String := if name = sharedFile then ["tool", toolName] else []

/-- The value of a setting of the linter in a file. -/
def told? (t : FileTree) (cwd : Location) (p : Pathname) (key : String) : Option Value :=
  (readTable? t cwd p).bind fun ms =>
    Value.under? (partKeys p.name ++ ["sibelius", "lint", key]) (.table ms)

/-- In the shared file, what stands on the way to the configuration is a table. -/
def HasTables (t : FileTree) (cwd : Location) (p : Pathname) : Prop :=
  p.name = sharedFile → ∀ ms, readTable? t cwd p = some ms →
    ∀ keys ∈ [["tool"], ["tool", toolName]], ∀ v, Value.under? keys (.table ms) = some v →
      ∃ part, v = .table part

/-- Under a key there is a table, empty if the key is missing, that further keys lead through; or
another value, which is an error. -/
theorem tableUnder_cases (key : String) (ms : List (String × Value)) :
    (∃ inner, tableUnder key ms = .ok inner ∧ (∀ v, ms.lookup key = some v → v = .table inner) ∧
        ∀ k ks, Value.under? (key :: k :: ks) (.table ms) = Value.under? (k :: ks) (.table inner)) ∨
      ∃ v, ms.lookup key = some v ∧ (∀ inner, v ≠ .table inner) ∧
        tableUnder key ms = .error (.noTable v.kind) := by
  unfold tableUnder
  cases h : ms.lookup key with
  | none => exact .inl ⟨[], rfl, nofun, fun k ks => by simp [Value.under?, h]⟩
  | some v =>
    cases v with
    | table inner =>
      exact .inl ⟨inner, rfl, by rintro _ ⟨⟩; rfl, fun k ks => by simp [Value.under?, h]⟩
    | _ => exact .inr ⟨_, rfl, nofun, rfl⟩

/-- A file is loaded if there are tables where they are expected, and else there is a value that is
no table. -/
theorem load_cases (t : FileTree) (cwd : Location) (p : Pathname) :
    (HasTables t cwd p ∧ load t cwd p = writtenSettings (told? t cwd p)) ∨
      (¬ HasTables t cwd p ∧ ∃ kind, load t cwd p = .error (.noTable kind)) := by
  unfold load told? HasTables
  cases readTable? t cwd p with
  | none => exact .inl ⟨nofun, rfl⟩
  | some ms =>
    by_cases hname : p.name = sharedFile
    · simp only [hname, partKeys, if_true, forall_const, Option.some.injEq, forall_eq',
        List.forall_mem_cons, Option.bind_some]
      rcases tableUnder_cases "tool" ms with ⟨tool, htool, hlookup, hkeys⟩ | ⟨v, hlookup, hv, htool⟩
      · rcases tableUnder_cases toolName tool
          with ⟨part, hpart, hlookup', hkeys'⟩ | ⟨v, hlookup', hv, hpart⟩
        · refine .inl ⟨⟨fun v hv => ?_, fun v hv => ?_, List.forall_mem_nil _⟩, ?_⟩
          · exact ⟨tool, hlookup v (by simpa [Value.under?] using hv)⟩
          · rw [hkeys] at hv
            exact ⟨part, hlookup' v (by simpa [Value.under?] using hv)⟩
          · simp only [htool, List.cons_append, List.nil_append, hkeys, hkeys',
              ← ofConfiguration_eq]
            exact congrArg (· >>= LintSettings.ofConfiguration) hpart
        · refine .inr ⟨fun h => ?_, v.kind, by rw [htool]; exact congrArg (· >>= _) hpart⟩
          obtain ⟨part, hp⟩ := h.2.1 v (by rw [hkeys]; simp [Value.under?, hlookup'])
          exact hv part hp
      · refine .inr ⟨fun h => ?_, v.kind, by rw [htool]; rfl⟩
        obtain ⟨tool, ht⟩ := h.1 v (by simp [Value.under?, hlookup])
        exact hv tool ht
    · refine .inl ⟨fun h => absurd h hname, ?_⟩
      simp only [hname, if_false, partKeys, Option.bind_some, List.nil_append]
      exact ofConfiguration_eq ms

theorem load_eq_ok (t : FileTree) (cwd : Location) (p : Pathname) :
    load t cwd p = .ok (toldSettings (told? t cwd p)) ↔
      HasTables t cwd p ∧ CodesShort (told? t cwd p) := by
  rcases load_cases t cwd p with ⟨htables, hload⟩ | ⟨htables, kind, hload⟩
  · rw [hload, writtenSettings, and_iff_right htables]
    split <;> simp_all
  · simp [hload, htables]

/-! ## The file that is found -/

theorem inDirectory?_eq_some {dir : Location} (h : inDirectory? t dir = some p) :
    p.absolute = true ∧ (p.name = sharedFile → hasPart t [] p = true) := by
  have hname : ∀ n, ((Pathname.fromRoot dir).child n).name = n := fun n => List.getLastD_concat ..
  unfold inDirectory? at h
  dsimp only at h
  split at h
  · cases h
    exact ⟨rfl, fun hc => absurd ((hname ownFile).symm.trans hc) (by decide)⟩
  · split at h
    · next hp =>
      cases h
      exact ⟨rfl, fun _ => hp⟩
    · cases h

/-- What is found is a path from the root, and a shared file only if it mentions the tool. -/
theorem findUp?_eq_some {names : List String} (h : findUp? t names = some p) :
    p.absolute = true ∧ (p.name = sharedFile → hasPart t [] p = true) := by
  induction names with
  | nil => exact inDirectory?_eq_some h
  | cons n above ih =>
    rcases Option.or_eq_some_iff.1 h with h | ⟨-, h⟩
    · exact inDirectory?_eq_some h
    · exact ih h

/-- From the root a file is read from everywhere. -/
theorem readTable?_of_absolute (t : FileTree) (cwd : Location) (h : p.absolute = true) :
    readTable? t cwd p = readTable? t [] p := by
  simp [readTable?, FileTree.read, FileTree.locate, h]

/-- A shared file that is found mentions the tool, so that the tables are there if and only if its
part is a table. -/
theorem hasTables_iff_of_find? {cwd : Location} (h : find? t cwd = some p) :
    HasTables t cwd p ↔ (p.name = sharedFile →
      ∃ ms part, readTable? t cwd p = some ms ∧ Value.under? ["tool", toolName]
      (.table ms) = some (.table part)) := by
  obtain ⟨habs, hpart⟩ := findUp?_eq_some h
  refine forall_congr' fun hname => ?_
  have hpart := hpart hname
  unfold hasPart at hpart
  rw [← readTable?_of_absolute t cwd habs] at hpart
  split at hpart
  · next ms hread =>
    obtain ⟨v, hv, hmentions⟩ := (Option.any_eq_true ..).1 hpart
    have htool : Value.under? ["tool"] (.table ms) = some v := by simp [Value.under?, hv]
    have hkeys : Value.under? ["tool", toolName] (.table ms) = Value.under? [toolName] v := by
      simp [Value.under?, hv]
    simp only [hread, Option.some.injEq, forall_eq', List.forall_mem_cons, htool, hkeys]
    constructor
    · rintro ⟨⟨tool, rfl⟩, hpart, -⟩
      obtain ⟨m, hm, hkey⟩ := List.any_eq_true.1 hmentions
      obtain ⟨w, hw⟩ := Option.isSome_iff_exists.1 (List.lookup_isSome_iff.2 ⟨m, hm, BEq.symm hkey⟩)
      have hunder : Value.under? [toolName] (.table tool) = some w := by simp [Value.under?, hw]
      obtain ⟨part, rfl⟩ := hpart w hunder
      exact ⟨ms, part, rfl, hkeys.trans hunder⟩
    · rintro ⟨ms, part, rfl, hpart⟩
      rw [hkeys] at hpart
      refine ⟨?_, ?_, List.forall_mem_nil _⟩
      · cases v with
        | table tool => exact ⟨tool, rfl⟩
        | _ => cases hpart
      · rintro w hw
        exact ⟨part, by rw [hpart] at hw; exact (Option.some.inj hw).symm⟩
  · cases hpart

/-- **Which configurations can be loaded.** A file at any path, with any bytes, is loaded as the
settings that it tells, with the default for every part that is missing or of the wrong kind, if and
only if the shared file has tables under `tool` and in its part for this tool, as far as it has
anything there, and all codes can be written. The file that is found from a directory is so loaded
if and only if, where it is the shared file, it has a table for this tool, and all codes can be
written. -/
theorem load_eq_ok_iff (t : FileTree) (cwd : Location) :
    (∀ p, load t cwd p = .ok (toldSettings (told? t cwd p)) ↔
      HasTables t cwd p ∧ CodesShort (told? t cwd p)) ∧
      (settings t cwd = .ok ((find? t cwd).elim {} fun p => toldSettings (told? t cwd p)) ↔
        ∀ p ∈ find? t cwd, CodesShort (told? t cwd p) ∧ (p.name = sharedFile → ∃ ms part,
          readTable? t cwd p = some ms ∧ Value.under? ["tool", toolName]
          (.table ms) = some (.table part))) := by
  refine ⟨load_eq_ok t cwd, ?_⟩
  unfold settings
  cases hfound : find? t cwd with
  | none => simp
  | some p =>
    rw [Option.elim_some, load_eq_ok, hasTables_iff_of_find? hfound, and_comm]
    simp

/-- A file tree with a configuration at its root. -/
def treeWith (name text : String) : FileTree :=
  ⟨[([name], .file 0)], [Codec.encodeUtf8 text.toList]⟩

/-- A number under `tool` stops the file from being loaded by its path, a text that mentions the
tool when it is searched for, and a long number among the codes in every file. -/
theorem load_not_ok :
    (load (treeWith sharedFile "tool = 5") [] (.fromRoot [sharedFile])).isOk = false ∧
      (settings (treeWith sharedFile "tool = 'mahlif'") []).isOk = false ∧
      (LintSettings.ofConfiguration [("sibelius", .table [("lint", .table
        [("ignore", .list [.int (.ofNat (.pow 10 Number.digitLimit))])])])]).isOk = false := by
  decide +kernel

end Partitura.Config
