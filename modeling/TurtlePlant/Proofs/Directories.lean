import Mathlib.Tactic.SplitIfs
import TurtlePlant.Proofs.Saving
import TurtlePlant.Scalar.Quantity

/-!
# Making directories

Making directories changes nothing else (`makes_makeWay`): what is added are directories where nothing stood.

What is saved goes to the target of a path, which is the path with the ending of archives. A path without that ending leads
somewhere else than its target (`ne_of_step`), so what is loaded from it is not what was saved (`read_of_write_target`), while
the target gives the branches back. `loaded_from_target` says both.
-/

namespace TurtlePlant

variable {R : Type}

namespace Path

/-- What is put behind a text, without slashes in it, goes behind the last part. -/
theorem split_append {t : List Char} (ht : '/' ∉ t) (s : List Char) :
    split (s ++ t) = (split s).dropLast ++ [(split s).getLast (split_ne_nil s) ++ t] := by
  induction s with
  | nil => simpa [split] using split_eq_singleton ht
  | cons c rest ih =>
    by_cases hc : c = '/'
    · simp [split, hc, ih, List.dropLast_cons_of_ne_nil, List.getLast_cons, split_ne_nil]
    · cases hs : split rest with
      | nil => exact absurd hs (split_ne_nil rest)
      | cons part parts =>
        cases parts <;> simp_all [split]

theorem parts_ne_nil (path : String) : parts path ≠ [] := by
  simpa [parts] using split_ne_nil path.toList

theorem lastPart_eq (path : String) : lastPart path = (parts path).getLast (parts_ne_nil path) := by
  rw [lastPart, List.getLast?_eq_some_getLast (parts_ne_nil path), Option.getD_some]

/-- The parts of a path are its directories and its last part. -/
theorem parts_eq (path : String) : parts path = (parts path).dropLast ++ [lastPart path] := by
  rw [lastPart_eq, List.dropLast_concat_getLast]

theorem parts_append {ending : String} (h : '/' ∉ ending.toList) (path : String) :
    parts (path ++ ending) = (parts path).dropLast ++ [lastPart path ++ ending] := by
  rw [lastPart_eq]
  simp [parts, split_append h, List.map_dropLast]

/-- A part of a path that names something in a directory. -/
def IsName (part : String) : Prop := part ≠ "" ∧ part ≠ "." ∧ part ≠ ".."

instance (part : String) : Decidable (IsName part) := inferInstanceAs (Decidable (_ ∧ _))

end Path

namespace Store

variable {s s' s₁ s₂ : Store R}

/-! ## Directories that are made -/

/-- Directories are made at some of the places `among`, where nothing stood, and nothing else changes. -/
structure Makes (among : Place → Prop) (s s' : Store R) : Prop where
  here : s'.here = s.here
  get? : ∀ place, s'.get? place = s.get? place ∨
    among place ∧ s.get? place = none ∧ s'.get? place = some .directory

namespace Makes

variable {among : Place → Prop}

theorem refl (s : Store R) : Makes among s s := ⟨rfl, fun _ => .inl rfl⟩

theorem trans (h : Makes among s s₁) (h₁ : Makes among s₁ s₂) : Makes among s s₂ := by
  refine ⟨h₁.here.trans h.here, fun place => ?_⟩
  rcases h.get? place with hsame | ⟨hmem, hnone, hnew⟩ <;> rcases h₁.get? place with hsame₁ | ⟨hmem₁, hnone₁, hnew₁⟩
  · exact .inl (hsame₁.trans hsame)
  · exact .inr ⟨hmem₁, hsame.symm.trans hnone₁, hnew₁⟩
  · exact .inr ⟨hmem, hnone, hsame₁.trans hnew⟩
  · rw [hnew] at hnone₁
    cases hnone₁

theorem stays (h : Makes among s s') : Stays s s' := by
  refine ⟨h.here, fun place hplace => ?_⟩
  rcases h.get? place with hsame | ⟨-, hnone, -⟩
  · rw [hsame, hplace]
  · rw [hnone] at hplace
    cases hplace

/-- The files are the same. -/
theorem file_iff (h : Makes among s s') (place : Place) (a : Archive R) :
    s'.get? place = some (.file a) ↔ s.get? place = some (.file a) := by
  rcases h.get? place with hsame | ⟨-, hnone, hnew⟩
  · rw [hsame]
  · simp [hnone, hnew]

/-- One more directory. -/
theorem set {place : Place} (hmem : among place) (h : s.get? place = none) : Makes among s (s.set place .directory) := by
  have hroot : place ≠ .root := by
    rintro rfl
    rw [get?_root] at h
    cases h
  refine ⟨rfl, fun q => ?_⟩
  rw [get?_set s hroot]
  split_ifs with hq
  · exact .inr ⟨hq ▸ hmem, hq ▸ h, rfl⟩
  · exact .inl rfl

end Makes

/-- Where one arrives, a directory may be made. -/
theorem makes_arrive {among : Place → Prop} (w : Way R) {r : Except PathFault Place}
    (h : ∀ place, r = .ok place → among place) : Makes among w.store (w.arrive r).store := by
  cases r with
  | error fault => exact .refl _
  | ok place =>
    unfold Way.arrive
    dsimp only
    split
    next hnone => exact .set (h place rfl) hnone
    next => exact .refl _
    next => exact .refl _

theorem makes_next (w : Way R) (path : String) : Makes (fun _ => True) w.store (w.next path).store := by
  unfold Way.next
  split
  · split_ifs
    · exact .refl _
    · exact makes_arrive w fun _ _ => trivial
  · split_ifs
    · exact .refl _
    · exact makes_arrive w fun _ _ => trivial
  · exact .refl _

/-- **Only directories are made**, whether or not all of them could be. -/
theorem makes_makeWay (s : Store R) (path : String) : Makes (fun _ => True) s (s.makeWay path).1 := by
  have hfold : ∀ (paths : List String) (w : Way R), Makes (fun _ => True) w.store (paths.foldl Way.next w).store := by
    intro paths
    induction paths with
    | nil => exact fun w => .refl _
    | cons path rest ih => exact fun w => (makes_next w path).trans (ih _)
  unfold makeWay
  split
  · exact .refl _
  · split_ifs
    · exact .refl _
    · exact (makes_arrive ⟨s, s.here, .ok ()⟩ fun _ _ => trivial).trans (hfold _ _)

/-! ## Targets -/

/-- Whether a path has the ending of archives. -/
def HasEnding (path : String) : Prop := archiveEnding.toList <:+ path.toList

instance (path : String) : Decidable (HasEnding path) := inferInstanceAs (Decidable (_ <:+ _))

theorem target_of_ending {path : String} (h : HasEnding path) : target path = path := by
  unfold target
  rw [if_pos (List.isSuffixOf_iff_suffix.mpr h)]

theorem target_of_no_ending {path : String} (h : ¬ HasEnding path) : target path = path ++ archiveEnding := by
  unfold target
  rw [if_neg (mt List.isSuffixOf_iff_suffix.mp h)]

/-- The ending changes nothing about where a path starts. -/
theorem start_append_ending (s : Store R) (path : String) : s.start (path ++ archiveEnding) = s.start path := by
  have habsolute : Path.isAbsolute (path ++ archiveEnding) = Path.isAbsolute path := by
    unfold Path.isAbsolute
    rw [String.toList_append]
    cases path.toList with
    | nil => rfl
    | cons c rest => rfl
  unfold start
  rw [habsolute]

theorem follow_append (s : Store R) (p : Place) (before after : List String) :
    s.follow p (before ++ after) = (s.follow p before).bind fun q => s.follow q after := by
  induction before generalizing p with
  | nil => rfl
  | cons part rest ih =>
    rw [List.cons_append, follow, follow]
    cases s.step p part with
    | error fault => rfl
    | ok q => exact ih q

theorem follow_singleton (s : Store R) (p : Place) (part : String) : s.follow p [part] = s.step p part := by
  rw [follow]
  cases s.step p part <;> rfl

/-- Where a part leads from a place: it stays there, goes outward, or goes inward by its name. -/
theorem place_of_step {p q : Place} {part : String} (h : s.step p part = .ok q) :
    (part = "" ∨ part = ".") ∧ q = p ∨ part = ".." ∧ q = p.outer ∨ q = p.inner part := by
  unfold step at h
  split at h
  · cases h
  · split at h
    · cases h
    · cases h
    · split_ifs at h with hstay hout hlong <;> cases h
      · exact .inl ⟨hstay, rfl⟩
      · exact .inr (.inl ⟨hout, rfl⟩)
      · exact .inr (.inr rfl)

/-- A name leads inward. -/
theorem inner_of_isName {p q : Place} {part : String} (hname : Path.IsName part) (h : s.step p part = .ok q) :
    q = p.inner part := by
  rcases place_of_step h with ⟨hpart | hpart, -⟩ | ⟨hpart, -⟩ | hinner
  · exact absurd hpart hname.1
  · exact absurd hpart hname.2.1
  · exact absurd hpart hname.2.2
  · exact hinner

/-- What ends as an archive is a name. -/
theorem isName_append_ending (part : String) : Path.IsName (part ++ archiveEnding) := by
  have hlength : 4 ≤ (part ++ archiveEnding).length := by
    rw [String.length_append]
    exact Nat.le_add_left _ _
  refine ⟨?_, ?_, ?_⟩ <;>
  · intro hname
    exact absurd hlength (by rw [hname]; decide)

/-- **With the ending behind it a part leads somewhere else.** -/
theorem ne_of_step {p q q' : Place} {part : String} (h : s.step p part = .ok q)
    (h' : s'.step p (part ++ archiveEnding) = .ok q') : q ≠ q' := by
  rw [inner_of_isName (isName_append_ending part) h']
  intro hq
  have hdepth : q.depth = p.depth + 1 := congrArg Place.depth hq
  rcases place_of_step h with ⟨-, rfl⟩ | ⟨-, rfl⟩ | rfl
  · exact absurd hdepth (Nat.succ_ne_self _).symm
  · exact absurd hdepth (by simp only [Place.outer]; omega)
  · have hname : part = part ++ archiveEnding := (List.cons.inj (congrArg Place.names hq)).1
    have hlength : part.length = part.length + 4 := (congrArg String.length hname).trans (String.length_append ..)
    omega

/-- A path leads to where its last part leads from the directory it names. -/
theorem locate_eq (s : Store R) (path : String) :
    s.locate path = (do
      Path.check path
      let p ← s.follow (s.start path) (Path.parts path).dropLast
      s.step p (Path.lastPart path)) := by
  have hlast : ∀ p, s.follow p [Path.lastPart path] = s.step p (Path.lastPart path) := fun p => follow_singleton s p _
  unfold locate
  rw [Path.parts_eq, follow_append, List.dropLast_concat]
  simp only [hlast]
  rfl

/-- A path without the ending and its target name something in the same directory, and not the same. -/
theorem locate_target {path : String} {place : Place} (hending : ¬ HasEnding path)
    (h : s.locate (target path) = .ok place) :
    ∃ p, s.follow (s.start path) (Path.parts path).dropLast = .ok p ∧ s.get? p = some .directory ∧
      ∀ q, s.step p (Path.lastPart path) = .ok q → q ≠ place := by
  rw [target_of_no_ending hending] at h
  obtain ⟨_, -, hfollow⟩ := Turtle.bind_ok h
  rw [start_append_ending, Path.parts_append (by decide), follow_append] at hfollow
  obtain ⟨p, hp, hlast⟩ := Turtle.bind_ok hfollow
  rw [follow_singleton] at hlast
  exact ⟨p, hp, directory_of_step hlast, fun q hq => ne_of_step hq hlast⟩

/-- **What is written to the target of a path is not there under the path itself**, unless the path has the ending. -/
theorem read_of_write_target {path : String} {a : Archive R} (hending : ¬ HasEnding path)
    (h : s.write (target path) a = .ok s') : s'.read path = s.read path := by
  obtain ⟨place, hlocate, hplace, hroot, rfl⟩ := set_of_write h
  have hstays : Stays s (s.set place (.file a)) := stays_set hplace _
  obtain ⟨p, hp, hdirectory, hne⟩ := locate_target hending hlocate
  have hp' := follow_of_stays hstays hp
  have hstep := step_eq (hstays.directory p hdirectory) hdirectory (Path.lastPart path)
  unfold read
  rw [locate_eq, locate_eq, start_of_here hstays.here, hp', hp]
  simp only [bind, Except.bind, hstep]
  cases Path.check path with
  | error fault => rfl
  | ok _ =>
    cases hq : s.step p (Path.lastPart path) with
    | error fault => rfl
    | ok q => simp only [get?_set s hroot, if_neg (hne q hq)]

/-- What is loaded stands as a file somewhere. -/
theorem file_of_load {path : String} {loaded : List (Branch R)} (h : s.load path = .ok loaded) :
    ∃ place a, s.get? place = some (.file a) ∧ branches path a = .ok loaded := by
  obtain ⟨a, hread, hbranches⟩ := Turtle.bind_ok h
  obtain ⟨place, -, hget⟩ := Turtle.bind_ok (eq_ok_of_mapError hread)
  refine ⟨place, a, ?_, hbranches⟩
  cases hentry : s.get? place with
  | none => rw [hentry] at hget; cases hget
  | some e =>
    rw [hentry] at hget
    cases e with
    | directory => cases hget
    | file a' => cases hget; rfl

/-- **Saved branches are loaded from the target of the path.** From the path itself they are loaded if it has the ending of
archives; otherwise the saving leaves what is loaded from it as it was once the directories were made, which is never more
than what stood in a file before. -/
theorem loaded_from_target [Arith R] {path : String} {bs : List (Branch R)} {events : List Event}
    (h : (save path bs).run s = ⟨s', events, .ok ()⟩) :
    ∃ stored, bs.mapM Branch.settled? = .ok stored ∧ ((∀ b ∈ bs, b.settled? = .ok b) → stored = bs) ∧
      s'.load (target path) = .ok stored ∧
      (HasEnding path → s'.load path = .ok stored) ∧
      (¬ HasEnding path → s'.load path = (s.makeWay path).1.load path ∧
        ∀ loaded, s'.load path = .ok loaded →
          ∃ place a, s.get? place = some (.file a) ∧ branches path a = .ok loaded) := by
  obtain ⟨-, s₁, stored, hway, hstored, hwrite⟩ := write_of_save h
  have hload : s'.load (target path) = .ok stored :=
    (load_of_read (read_of_write hwrite)).trans (branches_pack _ stored)
  refine ⟨stored, hstored, fun hbs => ?_, hload, fun hending => ?_, fun hending => ?_⟩
  · exact Except.ok.inj (hstored.symm.trans (mapM_self hbs))
  · rwa [target_of_ending hending] at hload
  · have hsame : s'.load path = s₁.load path := by
      unfold load
      rw [read_of_write_target hending hwrite]
    have hmakes : Makes (fun _ => True) s s₁ := by
      have hall := makes_makeWay s path
      rwa [hway] at hall
    rw [hway, hsame]
    refine ⟨rfl, fun loaded hloaded => ?_⟩
    obtain ⟨place, a, hfile, hbranches⟩ := file_of_load hloaded
    exact ⟨place, a, (hmakes.file_iff place a).mp hfile, hbranches⟩

/-- A stem of length one. -/
def stem : Branch Quantity where
  start := .zero
  stop := .up
  orientation := .identity
  length := 1.0
  radiusStart := 0.1
  radiusEnd := 0.08
  colour := ⟨0.5, 0.25, 0.125⟩
  depth := 0.0

/-- The files after the stem was saved under a path, into an empty directory. -/
def withStem (path : String) : Store Quantity := ((save path [stem]).run {}).state

/-- A stem saved under `plant` is loaded from `plant.npz`, and what is loaded from `plant` is what was there before. -/
theorem loaded_from_target_bare :
    ((save "plant" [stem]).run {}).result = .ok () ∧ (withStem "plant").load "plant.npz" = .ok [stem] ∧
      (withStem "plant").load "plant" = (({} : Store Quantity).makeWay "plant").1.load "plant" := by
  have hsave : (save "plant" [stem]).run {} = ⟨withStem "plant", [.saved 1 "plant"], .ok ()⟩ := rfl
  obtain ⟨stored, -, hstored, hload, -, hgiven⟩ := loaded_from_target hsave
  have hstem : ∀ b ∈ [stem], b.settled? = .ok b := by
    intro b hb
    rw [List.mem_singleton.mp hb]
    rfl
  rw [hstored hstem] at hload
  exact ⟨rfl, hload, (hgiven (by decide)).1⟩

/-- A stem saved under `plant` is not to be found under `plant`. -/
theorem saved_stem_not_found :
    ((save "plant" [stem]).run {}).result = .ok () ∧
      (withStem "plant").load "plant" = .error (.file .missing "plant") := ⟨rfl, rfl⟩

end Store

end TurtlePlant
