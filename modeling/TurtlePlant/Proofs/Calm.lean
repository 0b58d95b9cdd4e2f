import TurtlePlant.Job

/-!
# Calm tasks

A task is calm when nothing that it tells is a failure, wherever it starts and however it ends. Steps that are calm make a
calm task (`Calm.bind`), and what plants, files and displays do is calm, so a job is (`calm_job`): a failure is told by who
ran the job, and once.
-/

namespace TurtlePlant

/-! ## Harmless events -/

/-- Events none of which is a failure. -/
def Harmless (events : List Event) : Prop := ∀ e ∈ events, e.level ≠ .error

theorem harmless_nil : Harmless [] := by
  intro e he
  cases he

theorem harmless_singleton {e : Event} (h : e.level ≠ .error) : Harmless [e] := by
  intro e' he
  obtain rfl := List.mem_singleton.mp he
  exact h

theorem harmless_map {α : Type} {f : α → Event} (h : ∀ a, (f a).level ≠ .error) (as : List α) :
    Harmless (as.map f) := by
  intro e he
  obtain ⟨a, -, rfl⟩ := List.mem_map.mp he
  exact h a

theorem Harmless.append {events events' : List Event} (h : Harmless events) (h' : Harmless events') :
    Harmless (events ++ events') := by
  intro e he
  rcases List.mem_append.mp he with he | he
  · exact h e he
  · exact h' e he

theorem Walk.harmless_closingEvents {R G S : Type} (w : Walk R G S) : Harmless w.closingEvents := by
  unfold closingEvents
  split
  · exact harmless_nil
  · exact harmless_singleton nofun

/-- What a display tells is that there was nothing to show, or where a picture was saved. -/
theorem Display.mem_events {R : Type} [Scalar R] {x : Display R} {e : Event} (he : e ∈ x.events) :
    e = .nothingToDraw ∨ e = .nothingToPlot ∨ (∃ path, e = .screenshotSaved path) ∨ ∃ path, e = .figureSaved path := by
  cases x with
  | window branches config screenshot =>
    rcases List.mem_append.mp he with he | he
    · unfold Scene.events at he
      split at he
      · exact .inl (List.mem_singleton.mp he)
      · cases he
    · obtain ⟨path, -, rfl⟩ := List.mem_map.mp he
      exact .inr (.inr (.inl ⟨_, rfl⟩))
  | figure f =>
    rcases List.mem_append.mp he with he | he
    · split at he
      · exact .inr (.inl (List.mem_singleton.mp he))
      · cases he
    · obtain ⟨path, -, rfl⟩ := List.mem_map.mp he
      exact .inr (.inr (.inr ⟨_, rfl⟩))
  | showFigures => cases he
  | closeFigure => cases he

theorem Display.harmless_events {R : Type} [Scalar R] (x : Display R) : Harmless x.events := by
  intro e he
  obtain rfl | rfl | ⟨path, rfl⟩ | ⟨path, rfl⟩ := mem_events he <;> nofun

namespace Task

/-! ## Steps -/

section Steps

variable {σ τ α β : Type}

/-- A task that tells of no failure, wherever it starts. -/
def Calm (t : Task σ α) : Prop := ∀ s, Harmless (t.run s).events

theorem calm_pure (a : α) : Calm (pure a : Task σ α) := fun _ => harmless_nil

theorem calm_get : Calm (get : Task σ σ) := fun _ => harmless_nil

theorem calm_modify (f : σ → σ) : Calm (modify f) := fun _ => harmless_nil

theorem calm_ofExcept (r : Except Fault α) : Calm (ofExcept r : Task σ α) := fun _ => harmless_nil

theorem calm_tell {events : List Event} (h : Harmless events) : Calm (tell events : Task σ Unit) := fun _ => h

/-- A task of two steps is calm when both are. -/
theorem Calm.bind {t : Task σ α} {f : α → Task σ β} (h : Calm t) (hf : ∀ a, Calm (f a)) : Calm (t >>= f) := by
  intro s
  rw [run_bind]
  cases (t.run s).result with
  | error fault => exact h s
  | ok a => exact (h s).append (hf a _)

/-- A task on a part of the state is calm when it is so there. -/
theorem Calm.within {get : σ → τ} {put : τ → σ → σ} {t : Task τ α} (h : Calm t) : Calm (within get put t) :=
  fun s => h (get s)

end Steps

/-! ## Plants, files and displays -/

variable {R S : Type}

theorem calm_generator (p : Plant R S) (r : Request) : Calm (p.generator r) := by
  unfold Plant.generator
  split
  · exact calm_ofExcept _
  · exact calm_get.bind fun m => (calm_modify _).bind fun _ => calm_pure _

theorem calm_generate (p : Plant R S) : Calm p.generate := by
  unfold Plant.generate
  refine calm_get.bind fun m => ?_
  split
  · exact calm_pure _
  · refine (calm_ofExcept _).bind fun n => (calm_modify _).bind fun _ => (calm_tell ?_).bind fun _ => calm_pure _
    exact (harmless_map (by nofun) _).append (harmless_singleton (by nofun))

variable [Scalar R]

theorem calm_interpret (p : Plant R S) (r : Request) (gen : Pcg) (word : Word) : Calm (p.interpret r gen word) := by
  unfold Plant.interpret
  refine calm_get.bind fun m => (calm_modify _).bind fun _ => (calm_ofExcept _).bind fun bs => ?_
  exact (calm_tell (Walk.harmless_closingEvents _)).bind fun _ => calm_pure _

theorem calm_build (p : Plant R S) (r : Request) : Calm (p.build r) := by
  unfold Plant.build
  refine (calm_ofExcept _).bind fun _ => calm_get.bind fun m => ?_
  split
  · exact calm_pure _
  · refine (calm_generator p r).bind fun gen => (calm_generate p).bind fun word => ?_
    refine (calm_interpret p r gen word).bind fun bs => (calm_modify _).bind fun _ => ?_
    exact (calm_tell (harmless_singleton (by nofun))).bind fun _ => calm_pure _

theorem calm_save (path : String) (bs : List (Branch R)) : Calm (Store.save path bs) := by
  have hput : ∀ a : Archive R, Calm (Store.put path a) := fun a =>
    calm_get.bind fun s => (calm_ofExcept _).bind fun _ => calm_modify _
  have hprepare : Calm (Store.prepare path : Task (Store R) Unit) :=
    calm_get.bind fun s => (calm_modify _).bind fun _ => calm_ofExcept _
  refine hprepare.bind fun _ => (calm_ofExcept _).bind fun t => (hput _).bind fun _ => ?_
  exact calm_tell (harmless_singleton (by nofun))

theorem calm_present (x : Display R) : Calm (Desk.present x : Task (Desk R S) Unit) :=
  (calm_modify _).bind fun _ => (calm_ofExcept _).bind fun _ => calm_tell x.harmless_events

/-! ## Jobs -/

/-- **A job tells of no failure**, whatever becomes of it. -/
theorem calm_job (job : Job) (house : Greenhouse R) : Calm (job.run house) := by
  have hbuild : ∀ p : Plant R Unit, Calm (Desk.build p job.request) := fun p => (calm_build p job.request).within
  have hkeep : ∀ bs : List (Branch R), Calm (job.keep bs) := by
    intro bs
    unfold Job.keep
    split
    · exact calm_pure _
    · exact (calm_save _ bs).within
  have hview : ∀ p : Plant R Unit, Calm (job.view p) := by
    intro p
    unfold Job.view
    split
    · exact calm_ofExcept _
    · exact calm_pure _
    · exact (hbuild p).bind fun bs => calm_present _
    · exact (hbuild p).bind fun bs => (calm_present _).bind fun _ => calm_present _
  refine (calm_ofExcept _).bind fun p => (hbuild p).bind fun bs => ?_
  exact (hkeep bs).bind fun _ => (hview p).bind fun _ => calm_pure bs

end Task

end TurtlePlant
