import TurtlePlant.Proofs.Saving
import TurtlePlant.View.Display

/-!
# What can be drawn

Drawing is refused for numbers that have no stored form, or that are lost. So a skeleton is made where its points and radii
are stored as they are (`Skeleton.check_of_settled`), and a figure is drawn where every number is kept
(`Figure.check_of_kept`).
-/

namespace TurtlePlant

variable {R : Type} [Arith R]

/-- A skeleton is made of numbers in their stored forms, with colours of machine numbers. -/
theorem Skeleton.check_of_settled {bs : List (Branch R)} (hpoints : ∀ v ∈ (ofBranches bs).points, v.settled? = .ok v)
    (hradii : ∀ r ∈ (ofBranches bs).radii, settled? r = .ok r) (hform : colourForm bs = .machine) : check bs = .ok () := by
  unfold check
  simp only [mapM_self hpoints, mapM_self hradii, hform]
  rfl

/-- A figure is drawn of numbers that are all kept. -/
theorem Figure.check_of_kept (hkept : ∀ x : R, kept? x = .ok x) (f : Figure R) : f.check = .ok () := by
  have hall : ∀ xs : List R, xs.mapM kept? = .ok xs := fun _ => mapM_self fun x _ => hkept x
  unfold check
  simp only [hall]
  cases f.frame? with
  | none => rfl
  | some frame =>
    simp only [hkept]
    rfl

end TurtlePlant
