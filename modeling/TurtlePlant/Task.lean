import TurtlePlant.Event
import TurtlePlant.Fault

/-!
# Tasks

Something done step by step: it changes a state, tells events on the way, and gives a result or a fault. A fault ends a
task, and what was changed and told until then stays.

- `Task.tell`, `Task.ofExcept`: events, and results that are there already;
- `Task.attempt`, `Task.within`: a task that does not end in a fault, and a task on a part of the state;
- `run_pure`, `run_bind`: a task of two steps is the first one and, if it gave a result, the second one;
- `run_bind_ok`: a task of two steps gives a result when both steps do.
-/

namespace TurtlePlant

/-- What a task leaves behind. -/
structure Outcome (σ α : Type) where
  state : σ
  events : List Event
  result : Except Fault α

/-- A task on states of a type `σ` with results of a type `α`. -/
structure Task (σ α : Type) where
  run : σ → Outcome σ α

namespace Task

variable {σ τ α β : Type}

instance : Monad (Task σ) where
  pure a := ⟨fun s => ⟨s, [], .ok a⟩⟩
  bind t f := ⟨fun s =>
    let first := t.run s
    match first.result with
    | .error fault => ⟨first.state, first.events, .error fault⟩
    | .ok a =>
      let second := (f a).run first.state
      ⟨second.state, first.events ++ second.events, second.result⟩⟩

/-- The state. -/
def get : Task σ σ := ⟨fun s => ⟨s, [], .ok s⟩⟩

/-- A change of the state. -/
def modify (f : σ → σ) : Task σ Unit := ⟨fun s => ⟨f s, [], .ok ()⟩⟩

/-- Events. -/
def tell (events : List Event) : Task σ Unit := ⟨fun s => ⟨s, events, .ok ()⟩⟩

/-- A result that is there already, or a fault. -/
def ofExcept (r : Except Fault α) : Task σ α := ⟨fun s => ⟨s, [], r⟩⟩

/-- A task whose fault is part of the result. -/
def attempt (t : Task σ α) : Task σ (Except Fault α) := ⟨fun s =>
  let o := t.run s
  ⟨o.state, o.events, .ok o.result⟩⟩

/-- A task on a part of the state. -/
def within (get : σ → τ) (put : τ → σ → σ) (t : Task τ α) : Task σ α := ⟨fun s =>
  let o := t.run (get s)
  ⟨put o.state s, o.events, o.result⟩⟩

@[simp] theorem run_pure (a : α) (s : σ) : (pure a : Task σ α).run s = ⟨s, [], .ok a⟩ := rfl

/-- A task of two steps. -/
theorem run_bind (t : Task σ α) (f : α → Task σ β) (s : σ) :
    (t >>= f).run s =
      match (t.run s).result with
      | .error fault => ⟨(t.run s).state, (t.run s).events, .error fault⟩
      | .ok a => ⟨((f a).run (t.run s).state).state, (t.run s).events ++ ((f a).run (t.run s).state).events,
          ((f a).run (t.run s).state).result⟩ := rfl

/-- A task of two steps gives a result when both steps do, and what they tell is told in order. -/
theorem run_bind_ok {t : Task σ α} {f : α → Task σ β} {s s' : σ} {events : List Event} {b : β} :
    (t >>= f).run s = ⟨s', events, .ok b⟩ ↔
      ∃ s₁ told a told', t.run s = ⟨s₁, told, .ok a⟩ ∧ (f a).run s₁ = ⟨s', told', .ok b⟩ ∧ events = told ++ told' := by
  rw [run_bind]
  constructor
  · intro h
    match ht : t.run s with
    | ⟨s₁, told, .error fault⟩ => rw [ht] at h; cases h
    | ⟨s₁, told, .ok a⟩ =>
      rw [ht] at h
      match hf : (f a).run s₁ with
      | ⟨s₂, told', r⟩ =>
        simp only [hf] at h
        cases h
        exact ⟨s₁, told, a, told', rfl, hf, rfl⟩
  · rintro ⟨s₁, told, a, told', ht, hf, rfl⟩
    rw [ht]
    simp only [hf]

@[simp] theorem run_get (s : σ) : (get : Task σ σ).run s = ⟨s, [], .ok s⟩ := rfl

@[simp] theorem run_modify (f : σ → σ) (s : σ) : (modify f).run s = ⟨f s, [], .ok ()⟩ := rfl

@[simp] theorem run_tell (events : List Event) (s : σ) : (tell events).run s = ⟨s, events, .ok ()⟩ := rfl

@[simp] theorem run_ofExcept (r : Except Fault α) (s : σ) : (ofExcept r).run s = ⟨s, [], r⟩ := rfl

theorem run_ofExcept_ok {r : Except Fault α} {s s' : σ} {events : List Event} {a : α}
    (h : (ofExcept r).run s = ⟨s', events, .ok a⟩) : s' = s ∧ events = [] ∧ r = .ok a := by
  cases r with
  | error fault => cases h
  | ok b => cases h; exact ⟨rfl, rfl, rfl⟩

/-- A task on a part of the state changes that part. -/
theorem run_within_ok {get : σ → τ} {put : τ → σ → σ} {t : Task τ α} {s s' : σ} {events : List Event} {a : α}
    (h : (within get put t).run s = ⟨s', events, .ok a⟩) : ∃ u, t.run (get s) = ⟨u, events, .ok a⟩ ∧ s' = put u s := by
  match ht : t.run (get s) with
  | ⟨u, told, r⟩ =>
    simp only [within, ht] at h
    cases h
    exact ⟨u, rfl, rfl⟩

end Task

end TurtlePlant
