import TurtlePlant.Proofs.PlainPaths

/-!
# The ledger of a directory

A `Ledger` is a store together with what was written into it, file by file, the latest first. An `Access` writes branches,
writes an archive that holds none, or loads; only a write that does not fail is recorded.

A ledger is `Sound` when the store has what it says: each file that was written is found, with what was written last
(`written`), there are no other files (`file`), and a directory leads to a path that was accessed (`directory`). Every
access keeps that (`Sound.record`), since it makes directories along its path and at most sets one file (`record_write`). So
what is loaded after any accesses can be read off the ledger: `latest_write_wins`.
-/

namespace TurtlePlant

variable {R : Type}

/-! ## Archives without branches -/

/-- Whether an array has the columns of branches. -/
def Dataset.holdsBranches : Dataset R → Bool
  | plain => false
  | table t => t.holdsBranches

/-- The names of the columns of an array, if it has any. -/
def Dataset.header? : Dataset R → Option (List String)
  | plain => none
  | table t => some t.header

theorem Dataset.unpack_of_foreign {d : Dataset R} (h : d.holdsBranches = false) :
    d.unpack = .error (.wrongFields d.header?) := by
  cases d with
  | plain => rfl
  | table t =>
    have ht : t.holdsBranches = false := h
    simp only [unpack, ht, Bool.false_eq_true, if_false, header?]

/-- An archive that holds no branches: nothing is kept under their name, or an array with other columns. -/
def Archive.IsForeign (a : Archive R) : Prop := ∀ d, a.lookup branchesName = some d → d.holdsBranches = false

/-- Why no branches are loaded from an archive that holds none. -/
def Archive.refusal (path : String) (a : Archive R) : Fault :=
  match a.lookup branchesName with
  | none => .noBranches path
  | some d => .wrongFields d.header?

theorem Store.branches_of_isForeign {a : Archive R} (h : a.IsForeign) (path : String) :
    branches path a = .error (a.refusal path) := by
  unfold branches Archive.refusal
  cases hd : a.lookup branchesName with
  | none => rfl
  | some d => exact Dataset.unpack_of_foreign (h d hd)

/-! ## Accesses -/

/-- What is written: branches, or an archive that holds none. -/
inductive Content (R : Type) where
  | branches (bs : List (Branch R))
  | foreign (a : Archive R) (h : a.IsForeign)

/-- One access to a store. -/
inductive Access (R : Type) where
  | write (path : String) (c : Content R)
  | load (path : String)

/-- The path that is given. -/
def Access.path : Access R → String
  | write path _ | load path => path

/-- Files in a store, with all that was written to them, the latest first. -/
structure Ledger (R : Type) where
  store : Store R
  written : List (String × Content R) := []

section Arith

variable [Arith R]

/-- The archive that is written for a content. -/
def Content.archive? : Content R → Except NumericFault (Archive R)
  | branches bs => (Table.pack? bs).map fun t => [(branchesName, .table t)]
  | foreign a _ => .ok a

/-- What is done to a store. -/
def Access.task : Access R → Task (Store R) Unit
  | write path (.branches bs) => Store.save path bs
  | write path (.foreign a _) => Store.put path a
  | load path => do
    let s ← Task.get
    let _ ← Task.ofExcept (s.load path)

namespace Ledger

/-- One access. A write that does not fail is recorded under the target of its path. -/
def record (l : Ledger R) (access : Access R) : Ledger R :=
  let o := access.task.run l.store
  match access, o.result with
  | .write path c, .ok () => ⟨o.state, (Store.target path, c) :: l.written⟩
  | _, _ => { l with store := o.state }

/-- Accesses in order. -/
def run (l : Ledger R) (accesses : List (Access R)) : Ledger R := accesses.foldl record l

end Ledger

end Arith

namespace Ledger

/-- The latest write to a file. -/
def latest? (l : Ledger R) (file : String) : Option (Content R) := l.written.lookup file

/-- Whether something was written to a file. -/
def Holds (l : Ledger R) (file : String) : Prop := (l.latest? file).isSome = true

variable [Arith R]

/-! ## What an access does -/

/-- **A load changes nothing**, whether or not it fails. -/
theorem record_load (l : Ledger R) (path : String) : l.record (.load path) = l := by
  unfold record Access.task
  simp only [Task.run_bind, Task.run_get, Task.run_ofExcept]
  cases l.store.load path <;> rfl

/-- **A write makes the directories of its path**, and if it does not fail, it writes an archive to its target. -/
theorem record_write (l : Ledger R) {path : String} (hplain : Path.IsPlain path) (c : Content R) :
    ∃ s₁, Store.Makes (Store.Along l.store.here (Path.parts path).dropLast) l.store s₁ ∧
      (l.record (.write path c) = ⟨s₁, l.written⟩ ∨
        ∃ a s', c.archive? = .ok a ∧ s₁.write (Store.target path) a = .ok s' ∧
          l.record (.write path c) = ⟨s', (Store.target path, c) :: l.written⟩) := by
  unfold record Access.task
  cases c with
  | branches bs =>
    refine ⟨(l.store.makeWay path).1, Store.makes_along hplain, ?_⟩
    unfold Store.save Store.prepare Store.put Content.archive?
    simp only [Task.run_bind, Task.run_get, Task.run_modify, Task.run_ofExcept, Task.run_tell]
    match hway : l.store.makeWay path with
    | (s₁, .error fault) => exact .inl rfl
    | (s₁, .ok ()) =>
      cases hpack : Table.pack? bs with
      | error fault => exact .inl rfl
      | ok t =>
        simp only [Except.mapError, Except.map]
        cases hwrite : s₁.write (Store.target path) [(branchesName, .table t)] with
        | error fault => exact .inl rfl
        | ok s' => exact .inr ⟨_, s', rfl, hwrite, rfl⟩
  | foreign a h =>
    refine ⟨l.store, .refl _, ?_⟩
    unfold Store.put Content.archive?
    simp only [Task.run_bind, Task.run_get, Task.run_modify, Task.run_ofExcept]
    cases hwrite : l.store.write (Store.target path) a with
    | error fault => exact .inl rfl
    | ok s' => exact .inr ⟨a, s', rfl, hwrite, rfl⟩

/-! ## What the ledger says of the store -/

/-- The ledger says what there is in the directory where paths start: the files that were written, with what was written to
them last, and directories on the paths that were accessed. -/
structure Sound (here : Place) (accesses : List (Access R)) (l : Ledger R) : Prop where
  here_eq : l.store.here = here
  here_directory : l.store.get? here = some .directory
  /-- A file that was written is found, with what was written last. -/
  written : ∀ file c, l.latest? file = some c → ∃ a, c.archive? = .ok a ∧
    l.store.locate file = .ok (here.under (Path.parts file)) ∧
      l.store.get? (here.under (Path.parts file)) = some (.file a)
  /-- Every file was written. -/
  file : ∀ names a, names ≠ [] → l.store.get? (here.under names) = some (.file a) →
    ∃ file, Path.parts file = names ∧ l.Holds file
  /-- Every directory leads to a path that was accessed. -/
  directory : ∀ names, names ≠ [] → l.store.get? (here.under names) = some .directory →
    ∃ access ∈ accesses, names <+: Path.parts access.path ∧ names ≠ Path.parts access.path

variable {here : Place} {accesses : List (Access R)} {l : Ledger R}

omit [Arith R] in
theorem latest?_cons (s : Store R) (written : List (String × Content R)) (target file : String) (c : Content R) :
    (Ledger.mk s ((target, c) :: written)).latest? file =
      if file = target then some c else (Ledger.mk s written).latest? file := by
  unfold latest?
  rw [List.lookup_cons]
  by_cases h : file = target
  · rw [if_pos h, beq_iff_eq.mpr h]
  · rw [if_neg h, beq_eq_false_iff_ne.mpr h]

/-- Nothing is said otherwise when directories are made on a path that is accessed. -/
theorem Sound.makes (h : Sound here accesses l) {access : Access R} (hmem : access ∈ accesses) {s₁ : Store R}
    (hmakes : Store.Makes (Store.Along l.store.here (Path.parts access.path).dropLast) l.store s₁) :
    Sound here accesses ⟨s₁, l.written⟩ where
  here_eq := hmakes.here.trans h.here_eq
  here_directory := hmakes.stays.directory here h.here_directory
  written file c hlatest := by
    obtain ⟨a, harchive, hlocate, hget⟩ := h.written file c hlatest
    exact ⟨a, harchive, Store.locate_of_stays hmakes.stays hlocate, (hmakes.file_iff _ a).mpr hget⟩
  file names a hne hget := h.file names a hne ((hmakes.file_iff _ a).mp hget)
  directory names hne hget := by
    rcases hmakes.get? (here.under names) with hsame | ⟨⟨ns, -, hinitial, hplace⟩, -, -⟩
    · exact h.directory names hne (hsame ▸ hget)
    · rw [h.here_eq] at hplace
      obtain rfl := here.under_injective hplace
      refine ⟨access, hmem, hinitial.trans (List.dropLast_prefix _), fun heq => ?_⟩
      exact Nat.ne_of_lt (Path.length_lt_of_prefix hinitial) (congrArg List.length heq)

/-- **What is written to a file is said of it**, and what was said of the other files stays true. -/
theorem Sound.write (h : Sound here accesses l) {file : String} (hplain : Path.IsPlain file) {c : Content R}
    {a : Archive R} (harchive : c.archive? = .ok a) {s' : Store R} (hwrite : l.store.write file a = .ok s') :
    Sound here accesses ⟨s', (file, c) :: l.written⟩ := by
  obtain ⟨place, hlocate, hplace, hroot, rfl⟩ := Store.set_of_write hwrite
  have hstays := Store.stays_set hplace (.file a)
  obtain rfl := Store.under_of_locate hplain hlocate
  rw [h.here_eq] at hlocate hplace hroot hstays ⊢
  have hne : ∀ {names}, names ≠ Path.parts file → here.under names ≠ here.under (Path.parts file) :=
    fun h h' => h (here.under_injective h')
  refine ⟨h.here_eq, ?_, fun q c' hlatest => ?_, fun names a' hnames hget => ?_, fun names hnames hget => ?_⟩
  · exact hstays.directory here h.here_directory
  · rw [latest?_cons] at hlatest
    split_ifs at hlatest with hq
    · cases hlatest
      refine ⟨a, harchive, ?_, ?_⟩
      · exact hq ▸ Store.locate_of_stays hstays hlocate
      · rw [hq, Store.get?_set _ hroot, if_pos rfl]
    · obtain ⟨a', harchive', hlocate', hget'⟩ := h.written q c' hlatest
      refine ⟨a', harchive', Store.locate_of_stays hstays hlocate', ?_⟩
      rw [Store.get?_set _ hroot, if_neg (hne fun heq => hq (Path.parts_injective heq)), hget']
  · by_cases heq : names = Path.parts file
    · exact ⟨file, heq.symm, by rw [Holds, latest?_cons, if_pos rfl]; rfl⟩
    · rw [Store.get?_set _ hroot, if_neg (hne heq)] at hget
      obtain ⟨q, hq, hholds⟩ := h.file names a' hnames hget
      refine ⟨q, hq, ?_⟩
      rw [Holds, latest?_cons]
      split_ifs
      · rfl
      · exact hholds
  · rw [Store.get?_set _ hroot] at hget
    split_ifs at hget
    · cases hget
    · exact h.directory names hnames hget

/-- **An access leaves the ledger sound.** -/
theorem Sound.record (h : Sound here accesses l) {access : Access R} (hmem : access ∈ accesses)
    (hplain : Path.IsPlain access.path) : Sound here accesses (l.record access) := by
  cases access with
  | load path => rwa [record_load]
  | write path c =>
    have hpath : Path.IsPlain path := hplain
    obtain ⟨s₁, hmakes, hfail | ⟨a, s', harchive, hwrite, hok⟩⟩ := record_write l hpath c
    · rw [hfail]
      exact h.makes hmem hmakes
    · rw [hok]
      have hmade : Sound here accesses ⟨s₁, l.written⟩ := h.makes hmem hmakes
      exact hmade.write (Path.isPlain_target hpath) harchive hwrite

/-- **So do all accesses.** -/
theorem Sound.run (h : Sound here accesses l) {next : List (Access R)} (hmem : next ⊆ accesses)
    (hplain : ∀ access ∈ next, Path.IsPlain access.path) : Sound here accesses (l.run next) := by
  induction next generalizing l with
  | nil => exact h
  | cons access rest ih =>
    obtain ⟨hfirst, hrest⟩ := List.forall_mem_cons.mp hplain
    exact ih (h.record (hmem List.mem_cons_self) hfirst) (fun _ h => hmem (List.mem_cons_of_mem _ h)) hrest

/-- Where there is nothing in the directory at first, the empty ledger is sound. -/
theorem sound_of_empty {s : Store R} (hhere : s.get? s.here = some .directory)
    (hempty : ∀ names, names ≠ [] → s.get? (s.here.under names) = none) : Sound s.here accesses ⟨s, []⟩ where
  here_eq := rfl
  here_directory := hhere
  written _ _ hlatest := by cases hlatest
  file names a hne hget := by rw [hempty names hne] at hget; cases hget
  directory names hne hget := by rw [hempty names hne] at hget; cases hget

/-! ## What is loaded -/

/-- Why nothing is loaded from a path under which nothing was written: there is no file. If the path cannot be used, or goes
on from a file, that may be found out first. -/
inductive Absent (l : Ledger R) (path : String) : PathFault → Prop
  | missing : Absent l path .missing
  | nullCharacter (h : Path.nullCharacter ∈ path.toList) : Absent l path .nullCharacter
  | tooLong (h : Path.maxBytes ≤ path.utf8ByteSize ∨ ∃ part ∈ Path.parts path, Path.maxNameBytes < part.utf8ByteSize) :
    Absent l path .tooLong
  | notDirectory {file : String} (hfile : l.Holds file) (h : Path.IsDirectoryOf file path) : Absent l path .notDirectory

/-- A path does not lead on, from where it starts or from a file. -/
theorem Sound.absent_of_locate (h : Sound here accesses l) {path : String} (hplain : Path.IsPlain path)
    {fault : PathFault} (hlocate : l.store.locate path = .error fault) : l.Absent path fault := by
  unfold Store.locate at hlocate
  cases hcheck : Path.check path with
  | error fault' =>
    rw [hcheck] at hlocate
    cases hlocate
    unfold Path.check at hcheck
    split_ifs at hcheck with hnull hempty hlong
    · cases hcheck
      exact .nullCharacter (List.contains_iff_mem.mp hnull)
    · cases hcheck
      exact .missing
    · cases hcheck
      exact .tooLong (.inl hlong)
  | ok _ =>
    rw [hcheck, Store.start_of_isPlain hplain, h.here_eq] at hlocate
    obtain ⟨before, part, hinitial, hstep⟩ := Store.exists_step_of_follow hplain hlocate
    have hpart : part ∈ Path.parts path := hinitial.subset (by simp)
    rcases Store.fault_of_step hstep with ⟨rfl, hnull⟩ | rfl | ⟨rfl, a, hfile⟩ | ⟨rfl, hlong⟩
    · exact .nullCharacter (Path.mem_of_mem_parts hpart hnull)
    · exact .missing
    · have hne : before ≠ [] := by
        rintro rfl
        have hdirectory := h.here_directory.symm.trans hfile
        cases hdirectory
      obtain ⟨file, rfl, hholds⟩ := h.file before a hne hfile
      refine .notDirectory hholds ⟨(List.prefix_append _ [part]).trans hinitial, ?_⟩
      rintro rfl
      have hlength := hinitial.length_le
      rw [List.length_append, List.length_singleton] at hlength
      omega
    · exact .tooLong (.inr ⟨part, hpart, hlong⟩)

variable {path : String}

/-- Nothing is loaded from where nothing was written. -/
theorem Sound.load_of_none (h : Sound here accesses l) (hplain : Path.IsPlain path)
    (hpath : ∀ access ∈ accesses, ¬ Path.IsDirectoryOf path access.path) (hnone : l.latest? path = none) :
    ∃ fault, l.store.load path = .error (.file fault path) ∧ l.Absent path fault := by
  have hread : ∃ fault, l.store.read path = .error fault ∧ l.Absent path fault := by
    cases hlocate : l.store.locate path with
    | error fault => exact ⟨fault, by rw [Store.read, hlocate]; rfl, h.absent_of_locate hplain hlocate⟩
    | ok place =>
      obtain rfl := Store.under_of_locate hplain hlocate
      rw [h.here_eq] at hlocate
      refine ⟨.missing, ?_, .missing⟩
      rw [Store.read, hlocate]
      cases hget : l.store.get? (here.under (Path.parts path)) with
      | none => simp only [bind, Except.bind, hget]
      | some e =>
        cases e with
        | directory =>
          obtain ⟨access, hmem, hinitial, hne⟩ := h.directory _ (Path.parts_ne_nil path) hget
          exact absurd ⟨hinitial, fun heq => hne (congrArg Path.parts heq)⟩ (hpath access hmem)
        | file a =>
          obtain ⟨file, hfile, hholds⟩ := h.file _ a (Path.parts_ne_nil path) hget
          rw [Holds, Path.parts_injective hfile, hnone] at hholds
          cases hholds
  obtain ⟨fault, hread, habsent⟩ := hread
  exact ⟨fault, by rw [Store.load, hread]; rfl, habsent⟩

/-- What is loaded from a file is read off what was written to it last. -/
theorem Sound.load_of_some (h : Sound here accesses l) {c : Content R} (hlatest : l.latest? path = some c) :
    ∃ a, c.archive? = .ok a ∧ l.store.load path = Store.branches path a := by
  obtain ⟨a, harchive, hlocate, hget⟩ := h.written path c hlatest
  exact ⟨a, harchive, Store.load_of_read (Store.read_of_get? hlocate hget)⟩

theorem Sound.load_of_branches (h : Sound here accesses l) {bs : List (Branch R)}
    (hlatest : l.latest? path = some (.branches bs)) :
    ∃ stored, bs.mapM Branch.settled? = .ok stored ∧ l.store.load path = .ok stored := by
  obtain ⟨a, harchive, hload⟩ := h.load_of_some hlatest
  cases hpack : Table.pack? bs with
  | error fault =>
    rw [Content.archive?, hpack] at harchive
    cases harchive
  | ok t =>
    rw [Content.archive?, hpack] at harchive
    cases harchive
    obtain ⟨stored, hstored, rfl⟩ := Table.eq_pack_of_pack? hpack
    exact ⟨stored, hstored, hload.trans (Store.branches_pack path stored)⟩

theorem Sound.load_of_foreign (h : Sound here accesses l) {a : Archive R} {ha : a.IsForeign}
    (hlatest : l.latest? path = some (.foreign a ha)) : l.store.load path = .error (a.refusal path) := by
  obtain ⟨a', harchive, hload⟩ := h.load_of_some hlatest
  cases harchive
  rw [hload, Store.branches_of_isForeign ha]

/-! ## What is written -/

/-- **The files in the directory are those that were written.** -/
theorem Sound.mem_pathsFrom (h : Sound here accesses l) (hpath : path ≠ "") :
    path ∈ l.store.pathsFrom here ↔ l.Holds path := by
  rw [Store.mem_pathsFrom_iff hpath]
  constructor
  · rintro ⟨names, a, hne, rfl, hget⟩
    obtain ⟨file, rfl, hholds⟩ := h.file names a hne hget
    rwa [Path.intercalate_parts]
  · intro hholds
    obtain ⟨c, hlatest⟩ := Option.isSome_iff_exists.mp hholds
    obtain ⟨a, -, -, hget⟩ := h.written path c hlatest
    exact ⟨Path.parts path, a, Path.parts_ne_nil path, Path.intercalate_parts path, hget⟩

/-- **An access changes no file** but the target of a write that does not fail. -/
theorem file_record {access : Access R} (hplain : Path.IsPlain access.path) {place : Place}
    (h : (l.record access).written = l.written ∨
      place ≠ l.store.here.under (Path.parts (Store.target access.path))) (a : Archive R) :
    (l.record access).store.get? place = some (.file a) ↔ l.store.get? place = some (.file a) := by
  cases access with
  | load path => rw [record_load]
  | write path c =>
    have hpath : Path.IsPlain path := hplain
    obtain ⟨s₁, hmakes, hfail | ⟨a', s', -, hwrite, hok⟩⟩ := record_write l hpath c
    · rw [hfail]
      exact hmakes.file_iff place a
    · rw [hok] at h ⊢
      have hother : place ≠ l.store.here.under (Path.parts (Store.target path)) := h.resolve_left (by simp)
      obtain ⟨target, hlocate, -, hroot, rfl⟩ := Store.set_of_write hwrite
      obtain rfl := Store.under_of_locate (Path.isPlain_target hpath) hlocate
      rw [hmakes.here] at hroot ⊢
      rw [← hmakes.file_iff place a, Store.get?_set _ hroot, if_neg hother]

/-- **A save does not fail** on a path that can be used, where no file is in the way of its directories and no directory
is in the way of its target. -/
theorem Sound.latest?_of_save (h : Sound here accesses l) (hplain : Path.IsPlain path)
    (husable : Store.Usable (Store.target path)) (hdeep : (Path.parts path).length ≤ Path.maxNesting)
    (hway : ∀ file, l.Holds file → ¬ Path.IsDirectoryOf file path)
    (htarget : ∀ access ∈ accesses, ¬ Path.IsDirectoryOf (Store.target path) access.path)
    {bs stored : List (Branch R)} (hstored : bs.mapM Branch.settled? = .ok stored) :
    (l.record (.write path (.branches bs))).latest? (Store.target path) = some (.branches bs) := by
  have hhere : l.store.get? l.store.here = some .directory := h.here_eq ▸ h.here_directory
  have hfile : ∀ place a, Store.Along l.store.here (Path.parts path).dropLast place →
      l.store.get? place ≠ some (.file a) := by
    rintro _ a ⟨names, hne, hinitial, rfl⟩ hget
    rw [h.here_eq] at hget
    obtain ⟨file, rfl, hholds⟩ := h.file names a hne hget
    refine hway file hholds ⟨hinitial.trans (List.dropLast_prefix _), ?_⟩
    rintro rfl
    exact Nat.lt_irrefl _ (Path.length_lt_of_prefix hinitial)
  obtain ⟨hmade, hthrough⟩ := Store.through_makeWay (Store.usable_of_target hplain husable) hhere hdeep hfile
  have hmakes : Store.Makes (Store.Along l.store.here (Path.parts path).dropLast) l.store (l.store.makeWay path).1 :=
    Store.makes_along hplain
  have hplace : (l.store.makeWay path).1.get?
      ((l.store.makeWay path).1.here.under (Path.parts (Store.target path))) ≠ some .directory := by
    rw [hmakes.here]
    intro hget
    rcases hmakes.get? (l.store.here.under (Path.parts (Store.target path))) with hsame | ⟨⟨names, -, hinitial, heq⟩, -⟩
    · rw [hsame, h.here_eq] at hget
      obtain ⟨access, hmem, hinitial, hne⟩ := h.directory _ (Path.parts_ne_nil _) hget
      exact htarget access hmem ⟨hinitial, fun heq => hne (congrArg Path.parts heq)⟩
    · obtain ⟨name, hparts, -⟩ := Store.parts_target path
      have hlength := hinitial.length_le
      rw [← l.store.here.under_injective heq, hparts, List.length_append, List.length_singleton] at hlength
      omega
  obtain ⟨s', hwrite⟩ := Store.write_of_through husable hthrough hplace [(branchesName, .table (.pack stored))]
  have hprepare : (Store.prepare path).run l.store = ⟨(l.store.makeWay path).1, [], .ok ()⟩ := by
    unfold Store.prepare
    simp only [Task.run_bind, Task.run_get, Task.run_modify, Task.run_ofExcept, hmade]
    rfl
  have hsave := Store.save_eq hprepare hstored hwrite
  unfold Ledger.record Access.task
  simp only [hsave]
  rw [latest?_cons, if_pos rfl]

/-! ## Names that are too long -/

/-- A name of `n` letters. -/
def letters (n : Nat) : String := String.ofList (List.replicate n 'x')

theorem toList_letters (n : Nat) : (letters n).toList = List.replicate n 'x' := String.toList_ofList

theorem parts_letters (n : Nat) : Path.parts (letters n) = [letters n] := by
  have hslash : '/' ∉ List.replicate n 'x' := fun h => absurd (List.eq_of_mem_replicate h) (by decide)
  rw [Path.parts, toList_letters, Path.split_eq_singleton hslash]
  rfl

theorem utf8ByteSize_letters (n : Nat) : (letters n).utf8ByteSize = n := by
  induction n with
  | zero => rfl
  | succ n ih =>
    have hcons : letters (n + 1) = "x" ++ letters n := by
      rw [← String.toList_inj, String.toList_append, toList_letters, toList_letters]
      rfl
    rw [hcons, String.utf8ByteSize_append, ih]
    exact Nat.add_comm 1 n

theorem isName_letters {n : Nat} (hn : 2 < n) : Path.IsName (letters n) := by
  refine ⟨?_, ?_, ?_⟩ <;>
  · intro h
    have hsize := utf8ByteSize_letters n
    rw [h] at hsize
    have hsmall : n ≤ 2 := hsize ▸ by decide
    exact absurd hn (Nat.not_lt.mpr hsmall)

omit [Arith R] in
/-- Nothing is loaded from a name of too many letters, wherever it would lead. -/
theorem load_letters (n : Nat) (hlow : Path.maxNameBytes < n) (hhigh : n < Path.maxBytes) :
    Path.IsPlain (letters n) ∧ ({} : Store R).load (letters n) = .error (.file .tooLong (letters n)) := by
  have hname : Path.IsName (letters n) := isName_letters (Nat.lt_trans (by decide) hlow)
  have hnull : Path.nullCharacter ∉ (letters n).toList := by
    rw [toList_letters]
    exact fun h => absurd (List.eq_of_mem_replicate h) (by decide)
  have hcheck : Path.check (letters n) = .ok () :=
    Store.check_eq_ok_iff.mpr ⟨hnull, hname.1, by rwa [utf8ByteSize_letters]⟩
  refine ⟨?_, Store.load_of_long (Store.get?_root _) (parts_letters n) hname hcheck (by rwa [utf8ByteSize_letters])⟩
  rw [Path.IsPlain, parts_letters]
  exact List.forall_mem_singleton.mpr hname

/-! ## The latest write wins -/

/-- **The latest write to a file is what is loaded from it.** Paths that are plain are accessed in a directory where there
is nothing at first. From a path that is no directory of theirs, branches are loaded when they are the stored forms of the
ones that were saved there last; where the latest write was an archive without branches, it is refused; and where nothing was
written, there is no file. The files are those that were written. One more access changes none but the target of a write
that does not fail, and a save does not fail unless its path cannot be used or something is in the way. -/
theorem latest_write_wins {s : Store R} (hhere : s.get? s.here = some .directory)
    (hempty : ∀ names, names ≠ [] → s.get? (s.here.under names) = none) {accesses : List (Access R)}
    (hplain : ∀ access ∈ accesses, Path.IsPlain access.path) {l : Ledger R} (hl : l = run ⟨s, []⟩ accesses) :
    (∀ q, Path.IsPlain q → (∀ access ∈ accesses, ¬ Path.IsDirectoryOf q access.path) →
      (∀ loaded, l.store.load q = .ok loaded ↔
        ∃ bs, l.latest? q = some (.branches bs) ∧ bs.mapM Branch.settled? = .ok loaded) ∧
      (∀ bs, l.latest? q = some (.branches bs) → (∀ b ∈ bs, b.settled? = .ok b) → l.store.load q = .ok bs) ∧
      (∀ a ha, l.latest? q = some (.foreign a ha) → l.store.load q = .error (a.refusal q)) ∧
      (l.latest? q = none → ∃ fault, l.store.load q = .error (.file fault q) ∧ l.Absent q fault)) ∧
    (∀ file, file ≠ "" → (file ∈ l.store.pathsFrom s.here ↔ l.Holds file)) ∧
    (∀ access, Path.IsPlain access.path → ∀ place, (l.record access).written = l.written ∨
        place ≠ s.here.under (Path.parts (Store.target access.path)) →
      ∀ a, (l.record access).store.get? place = some (.file a) ↔ l.store.get? place = some (.file a)) ∧
    (∀ path bs stored, Path.IsPlain path → Store.Usable (Store.target path) →
      (Path.parts path).length ≤ Path.maxNesting → (∀ file, l.Holds file → ¬ Path.IsDirectoryOf file path) →
      (∀ access ∈ accesses, ¬ Path.IsDirectoryOf (Store.target path) access.path) →
      bs.mapM Branch.settled? = .ok stored →
      (l.record (.write path (.branches bs))).latest? (Store.target path) = some (.branches bs)) := by
  have hsound : Sound s.here accesses l := hl ▸ (sound_of_empty hhere hempty).run (List.Subset.refl _) hplain
  refine ⟨fun q hq hdirectory => ⟨fun loaded => ⟨fun hload => ?_, ?_⟩, fun bs hlatest hbs => ?_,
    fun a ha => hsound.load_of_foreign, hsound.load_of_none hq hdirectory⟩, fun file => hsound.mem_pathsFrom,
    fun access haccess place h => ?_,
    fun path bs stored hpath husable hdeep hway htarget hstored =>
      hsound.latest?_of_save hpath husable hdeep hway htarget hstored⟩
  · cases hlatest : l.latest? q with
    | none =>
      obtain ⟨fault, hnone, -⟩ := hsound.load_of_none hq hdirectory hlatest
      rw [hnone] at hload
      cases hload
    | some c =>
      cases c with
      | branches bs =>
        obtain ⟨stored, hstored, hbranches⟩ := hsound.load_of_branches hlatest
        rw [hbranches] at hload
        cases hload
        exact ⟨bs, rfl, hstored⟩
      | foreign a ha =>
        rw [hsound.load_of_foreign hlatest] at hload
        cases hload
  · rintro ⟨bs, hlatest, hstored⟩
    obtain ⟨stored, hstored', hbranches⟩ := hsound.load_of_branches hlatest
    cases hstored'.symm.trans hstored
    exact hbranches
  · obtain ⟨stored, hstored, hbranches⟩ := hsound.load_of_branches hlatest
    cases hstored.symm.trans (mapM_self hbs)
    exact hbranches
  · rw [← hsound.here_eq] at h
    exact file_record haccess h

/-- A stem saved under `a`, and an archive without branches put under `b`. -/
def stemAndVolume : List (Access Quantity) :=
  [.write "a" (.branches [Store.stem]), .write "b" (.foreign [("volume", .plain)] nofun)]

/-- The stem is loaded from `a.npz`, the other archive is refused, and there is nothing under `a`. -/
theorem latest_write_wins_stem :
    ((run ⟨{}, []⟩ stemAndVolume).store.load "a.npz" = .ok [Store.stem]) ∧
      ((run ⟨{}, []⟩ stemAndVolume).store.load "b.npz" = .error (.noBranches "b.npz")) ∧
      (∃ fault, (run ⟨{}, []⟩ stemAndVolume).store.load "a" = .error (.file fault "a")) ∧
      "a.npz" ∈ (run ⟨{}, []⟩ stemAndVolume).store.pathsFrom .root := by
  have hempty : ∀ names, names ≠ [] → ({} : Store Quantity).get? (Place.root.under names) = none := by
    intro names hne
    rw [Store.get?, if_neg (Place.under_ne_root _ hne)]
    rfl
  have hplain : ∀ access ∈ stemAndVolume, Path.IsPlain access.path := by decide
  obtain ⟨hload, hfiles, -, -⟩ := latest_write_wins (s := {}) rfl hempty hplain rfl
  have hstem : ∀ b ∈ [Store.stem], b.settled? = .ok b := by
    intro b hb
    rw [List.mem_singleton.mp hb]
    rfl
  refine ⟨?_, ?_, ?_, (hfiles "a.npz" (by decide)).mpr rfl⟩
  · exact (hload "a.npz" (by decide) (by decide)).2.1 _ rfl hstem
  · exact (hload "b.npz" (by decide) (by decide)).2.2.1 _ _ rfl
  · obtain ⟨fault, hfault, -⟩ := (hload "a" (by decide) (by decide)).2.2.2 rfl
    exact ⟨fault, hfault⟩

/-- Nothing is written under `a.npz/b.npz` when branches are saved under `a`, and nothing at all under a null character or
a name of 256 letters. Still none of them is said to be missing: the first goes on from a file, and the others cannot be
used. -/
theorem unwritten_but_not_missing :
    (Path.IsPlain "a" ∧ Path.IsPlain "a.npz/b.npz" ∧ ¬ Path.IsDirectoryOf "a" "a.npz/b.npz" ∧
      (run ⟨{}, []⟩ [.write "a" (.branches [])] : Ledger Quantity).latest? "a.npz/b.npz" = none ∧
      (run ⟨{}, []⟩ [.write "a" (.branches [])] : Ledger Quantity).store.load "a.npz/b.npz" =
        .error (.file .notDirectory "a.npz/b.npz")) ∧
    (Path.IsPlain "\x00" ∧ ({} : Store Quantity).load "\x00" = .error (.file .nullCharacter "\x00")) ∧
    (Path.IsPlain (letters 256) ∧ ({} : Store Quantity).load (letters 256) = .error (.file .tooLong (letters 256))) :=
  ⟨⟨by decide, by decide, by decide, rfl, rfl⟩, ⟨by decide, rfl⟩, load_letters 256 (by decide) (by decide)⟩

end Ledger

end TurtlePlant
