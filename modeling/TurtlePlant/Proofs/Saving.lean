import TurtlePlant.Archive.Store
import TurtlePlant.Proofs.Steps

/-!
# What is saved

An archive that is written is there to be read: a path leads to the same place as long as the directories stay
(`locate_of_stays`), and they stay when a file is put where none but a file could stand (`stays_set`). And a table of
branches gives the branches back (`unpack_pack`). So saved branches are loaded from the path that was written, in their
stored forms (`load_of_save`).
-/

namespace TurtlePlant

variable {R : Type}

/-! ## Results -/

/-- What a list is turned into, if it is known what each of its elements is turned into. -/
theorem eq_map_of_mapM {ε α β : Type} {f : α → Except ε β} {g : α → β} {l : List α} {l' : List β}
    (hg : ∀ a ∈ l, ∀ b, f a = .ok b → b = g a) (h : l.mapM f = .ok l') : l' = l.map g := by
  induction l generalizing l' with
  | nil => cases h; rfl
  | cons a l ih =>
    rw [List.mapM_cons] at h
    obtain ⟨b, hb, h⟩ := Turtle.bind_ok h
    obtain ⟨bs, hbs, h⟩ := Turtle.bind_ok h
    cases h
    rw [hg a List.mem_cons_self b hb, ih (fun a ha => hg a (List.mem_cons_of_mem _ ha)) hbs]
    rfl

/-- A list that is turned into itself, element by element. -/
theorem mapM_self {ε α : Type} {f : α → Except ε α} {l : List α} (h : ∀ a ∈ l, f a = .ok a) : l.mapM f = .ok l := by
  induction l with
  | nil => rfl
  | cons a l ih =>
    obtain ⟨ha, hl⟩ := List.forall_mem_cons.mp h
    rw [List.mapM_cons, ha, ih hl]
    rfl

theorem mapM_map_ok {ε α β : Type} {f : α → β} {g : β → Except ε α} (h : ∀ a, g (f a) = .ok a) (l : List α) :
    (l.map f).mapM g = .ok l := by
  induction l with
  | nil => rfl
  | cons a l ih =>
    rw [List.map_cons, List.mapM_cons, h, ih]
    rfl

/-! ## Tables -/

theorem Table.holdsBranches_pack (bs : List (Branch R)) : (Table.pack bs).holdsBranches = true := by
  simp [Table.holdsBranches, Table.pack]

/-- **Packed branches come back.** -/
theorem Dataset.unpack_pack (bs : List (Branch R)) : (Dataset.table (.pack bs)).unpack = .ok bs := by
  unfold unpack
  simp only [Table.holdsBranches_pack, if_true]
  exact mapM_map_ok (Table.branch_pack bs) bs

/-- The table of some branches is that of their stored forms. -/
theorem Table.eq_pack_of_pack? [Arith R] {bs : List (Branch R)} {t : Table R} (h : pack? bs = .ok t) :
    ∃ stored, bs.mapM Branch.settled? = .ok stored ∧ t = pack stored := by
  unfold pack? at h
  cases hstored : bs.mapM Branch.settled? with
  | error fault => rw [hstored] at h; cases h
  | ok stored =>
    rw [hstored] at h
    cases h
    exact ⟨stored, rfl, rfl⟩

namespace Store

variable {s s' : Store R} {place : Place}

/-! ## Paths -/

/-- A path goes on from directories only. -/
theorem directory_of_step {p q : Place} {part : String} (h : s.step p part = .ok q) : s.get? p = some .directory := by
  unfold step at h
  split at h
  · cases h
  · split at h
    · cases h
    · cases h
    · assumption

/-- Where a part leads from a directory does not depend on what else there is. -/
theorem step_eq {p : Place} (h : s.get? p = some .directory) (h' : s'.get? p = some .directory) (part : String) :
    s.step p part = s'.step p part := by
  unfold step
  rw [h, h']

/-- Paths start where they started, and every directory is still one. -/
structure Stays (s s' : Store R) : Prop where
  here : s'.here = s.here
  directory : ∀ place, s.get? place = some .directory → s'.get? place = some .directory

theorem follow_of_stays (hs : Stays s s') {p q : Place} {parts : List String} (h : s.follow p parts = .ok q) :
    s'.follow p parts = .ok q := by
  induction parts generalizing p with
  | nil => exact h
  | cons part rest ih =>
    obtain ⟨p', hstep, hrest⟩ := Turtle.bind_ok h
    have hp := directory_of_step hstep
    unfold follow
    rw [step_eq (hs.directory p hp) hp, hstep]
    exact ih hrest

theorem start_of_here (h : s'.here = s.here) (path : String) : s'.start path = s.start path := by
  unfold start
  rw [h]

/-- **A path leads where it led** as long as the directories stay. -/
theorem locate_of_stays (hs : Stays s s') {q : Place} {path : String} (h : s.locate path = .ok q) :
    s'.locate path = .ok q := by
  obtain ⟨_, hcheck, hfollow⟩ := Turtle.bind_ok h
  unfold locate
  rw [hcheck, start_of_here hs.here]
  exact follow_of_stays hs hfollow

/-- The directories stay when something is put in a place that is none. -/
theorem stays_set (hplace : s.get? place ≠ some .directory) (e : Entry R) : Stays s (s.set place e) := by
  have hroot : place ≠ .root := by
    rintro rfl
    exact hplace s.get?_root
  refine ⟨rfl, fun p hp => ?_⟩
  have hne : p ≠ place := by
    rintro rfl
    exact hplace hp
  rw [get?_set s hroot, if_neg hne, hp]

/-! ## Files -/

/-- Writing an archive sets it at the place that the path leads to, where no directory stands. -/
theorem set_of_write {path : String} {a : Archive R} (h : s.write path a = .ok s') :
    ∃ place, s.locate path = .ok place ∧ s.get? place ≠ some .directory ∧ place ≠ .root ∧
      s' = s.set place (.file a) := by
  obtain ⟨place, hlocate, h⟩ := Turtle.bind_ok h
  have hplace : s.get? place ≠ some .directory := by
    intro hd
    rw [hd] at h
    cases h
  have hroot : place ≠ .root := by
    rintro rfl
    exact hplace s.get?_root
  refine ⟨place, hlocate, hplace, hroot, ?_⟩
  split at h
  · cases h
  · cases h; rfl

/-- What is read is what stands where the path leads. -/
theorem read_of_get? {path : String} {place : Place} {a : Archive R} (hlocate : s.locate path = .ok place)
    (h : s.get? place = some (.file a)) : s.read path = .ok a := by
  unfold read
  rw [hlocate]
  simp only [bind, Except.bind, h]

/-- **An archive that is written is read.** -/
theorem read_of_write {path : String} {a : Archive R} (h : s.write path a = .ok s') : s'.read path = .ok a := by
  obtain ⟨place, hlocate, hplace, hroot, rfl⟩ := set_of_write h
  refine read_of_get? (locate_of_stays (stays_set hplace _) hlocate) ?_
  rw [get?_set s hroot, if_pos rfl]

/-- Putting an archive under a path tells nothing and writes it. -/
theorem write_of_put {path : String} {a : Archive R} {events : List Event} {u : Unit}
    (h : (put path a).run s = ⟨s', events, .ok u⟩) : events = [] ∧ s.write (target path) a = .ok s' := by
  obtain ⟨_, _, _, _, hget, h₁, hevents⟩ := Task.run_bind_ok.mp h
  cases hget
  obtain ⟨_, _, _, _, hwrite, hmodify, hevents₁⟩ := Task.run_bind_ok.mp h₁
  cases hmodify
  obtain ⟨rfl, rfl, hresult⟩ := Task.run_ofExcept_ok hwrite
  exact ⟨by rw [hevents, hevents₁]; rfl, eq_ok_of_mapError hresult⟩

/-- Preparing tells nothing and makes the way. -/
theorem makeWay_of_prepare {path : String} {events : List Event} {u : Unit}
    (h : (prepare path).run s = ⟨s', events, .ok u⟩) : events = [] ∧ s.makeWay path = (s', .ok ()) := by
  match hway : s.makeWay path with
  | (s₁, .error fault) =>
    simp only [prepare, Task.run_bind, Task.run_get, Task.run_modify, Task.run_ofExcept, hway] at h
    cases h
  | (s₁, .ok ()) =>
    simp only [prepare, Task.run_bind, Task.run_get, Task.run_modify, Task.run_ofExcept, hway] at h
    cases h
    exact ⟨rfl, rfl⟩

/-- What saving does: it makes the way, and writes the table of the stored forms to the target. -/
theorem write_of_save [Arith R] {path : String} {bs : List (Branch R)} {events : List Event} {u : Unit}
    (h : (save path bs).run s = ⟨s', events, .ok u⟩) :
    events = [.saved bs.length path] ∧ ∃ s₁ stored, s.makeWay path = (s₁, .ok ()) ∧
      bs.mapM Branch.settled? = .ok stored ∧
      s₁.write (target path) [(branchesName, .table (.pack stored))] = .ok s' := by
  obtain ⟨s₁, told₁, _, _, hprepare, h₁, hevents⟩ := Task.run_bind_ok.mp h
  obtain ⟨s₂, told₂, table, _, hpack, h₂, hevents₁⟩ := Task.run_bind_ok.mp h₁
  obtain ⟨s₃, told₃, _, _, hput, htell, hevents₂⟩ := Task.run_bind_ok.mp h₂
  cases htell
  obtain ⟨rfl, hway⟩ := makeWay_of_prepare hprepare
  obtain ⟨rfl, rfl, hresult⟩ := Task.run_ofExcept_ok hpack
  obtain ⟨rfl, hwrite⟩ := write_of_put hput
  obtain ⟨stored, hstored, rfl⟩ := Table.eq_pack_of_pack? (eq_ok_of_mapError hresult)
  exact ⟨by rw [hevents, hevents₁, hevents₂]; rfl, s₂, stored, hway, hstored, hwrite⟩

/-- The branches of an archive of packed branches. -/
theorem branches_pack (path : String) (bs : List (Branch R)) :
    branches path [(branchesName, .table (.pack bs))] = .ok bs := Dataset.unpack_pack bs

theorem load_of_read {path : String} {a : Archive R} (h : s.read path = .ok a) : s.load path = branches path a := by
  unfold load
  rw [h]
  rfl

/-- **Branches that are saved are loaded** from the path that was written, in their stored forms. -/
theorem load_of_save [Arith R] {path : String} {bs : List (Branch R)} {events : List Event} {u : Unit}
    (h : (save path bs).run s = ⟨s', events, .ok u⟩) :
    events = [.saved bs.length path] ∧
      ∃ stored, bs.mapM Branch.settled? = .ok stored ∧ s'.load (target path) = .ok stored := by
  obtain ⟨hevents, s₁, stored, -, hstored, hwrite⟩ := write_of_save h
  exact ⟨hevents, stored, hstored, (load_of_read (read_of_write hwrite)).trans (branches_pack _ stored)⟩

/-- Branches that have stored forms are saved where a file can be written. -/
theorem save_eq [Arith R] {path : String} {bs stored : List (Branch R)} {s₁ : Store R}
    (hprepare : (prepare path).run s = ⟨s₁, [], .ok ()⟩) (hstored : bs.mapM Branch.settled? = .ok stored)
    (hwrite : s₁.write (target path) [(branchesName, .table (.pack stored))] = .ok s') :
    (save path bs).run s = ⟨s', [.saved bs.length path], .ok ()⟩ := by
  have hpack : (Task.ofExcept ((Table.pack? bs).mapError .numeric)).run s₁ = ⟨s₁, [], .ok (.pack stored)⟩ := by
    unfold Table.pack?
    rw [hstored]
    rfl
  have hput : (put path [(branchesName, .table (.pack stored))]).run s₁ = ⟨s', [], .ok ()⟩ := by
    unfold put
    simp only [Task.run_bind, Task.run_get, hwrite]
    rfl
  have htell : (Task.tell [.saved bs.length path]).run s' = ⟨s', [.saved bs.length path], .ok ()⟩ := rfl
  refine Task.run_bind_ok.mpr ⟨s₁, [], (), _, hprepare, ?_, rfl⟩
  refine Task.run_bind_ok.mpr ⟨s₁, [], .pack stored, _, hpack, ?_, rfl⟩
  exact Task.run_bind_ok.mpr ⟨s', [], (), _, hput, htell, rfl⟩

end Store

end TurtlePlant
