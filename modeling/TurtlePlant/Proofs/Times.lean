import TurtlePlant.Proofs.Branching
import TurtlePlant.Proofs.Lockstep

/-!
# Times

The time that a turtle colours for is looked at by one symbol only: an `F` takes its colour from it, which stays with the
live pose and is saved and taken back with it. No symbol looks at the colour of a pose. So two turtles that differ in their
times alone go through poses that differ in their colours alone (`Pose.Recoloured`, `lockstep_times`), on numbers of any
kind, and are given the same numbers and axes on the way (`time_changes_colours_only`).
-/

namespace TurtlePlant

variable {R G S : Type}

/-- A pose with another colour. -/
def Pose.Recoloured (p q : Pose R) : Prop := ∃ colour, q = { p with colour }

/-- A branch with another colour. -/
def Branch.Recoloured (a b : Branch R) : Prop := ∃ colour, b = { a with colour }

namespace Turtle

variable [Scalar R]

/-- A turtle that colours for another time. -/
def atTime (t : Turtle R G S) (time : R) : Turtle R G S := { t with time }

/-- **Turtles that differ in their times alone stand and draw the same but for colours.** -/
theorem lockstep_times (t : Turtle R G S) (time time' : R) :
    Lockstep (t.atTime time) (t.atTime time') (fun g s g' s' => g = g' ∧ s = s') Pose.Recoloured Branch.Recoloured where
  draw h := by
    obtain ⟨rfl, rfl⟩ := h
    exact ⟨rfl, rfl⟩
  axis h := by
    obtain ⟨rfl, rfl⟩ := h
    exact ⟨rfl, rfl⟩
  forward {_ _ _ _ p _ b b'} h hp hb hb' := by
    obtain ⟨rfl, rfl⟩ := h
    obtain ⟨colour, rfl⟩ := hp
    have hbranch : b.Recoloured b' := by
      refine ⟨b'.colour, ?_⟩
      rw [(eq_of_segment? hb').2, (eq_of_segment? hb).2]
      rfl
    obtain ⟨colour', rfl⟩ := hbranch
    exact ⟨⟨colour', rfl⟩, ⟨colour', rfl⟩⟩
  turn sign h hp := by
    obtain ⟨rfl, rfl⟩ := h
    obtain ⟨colour, rfl⟩ := hp
    exact ⟨colour, rfl⟩
  opening h hp := by
    obtain ⟨rfl, rfl⟩ := h
    obtain ⟨colour, rfl⟩ := hp
    exact ⟨colour, rfl⟩
  closing hp := by
    obtain ⟨colour, rfl⟩ := hp
    exact ⟨colour, rfl⟩

/-- **Time changes colours alone.** A turtle reads a word for two times, from the same states of its source and of its
sampler, and fails neither time. It draws equally many branches, which are the same one by one but for their colours; after
every symbol the states of the source and of the sampler are the same; and the colour of each branch is that of its depth at
the time it is drawn for. -/
theorem time_changes_colours_only {t : Turtle R G S} {time time' : R} {gen : G} {sampler : S} {s : Word}
    {w w' : Walk R G S} {bs bs' : List (Branch R)} (h : (t.atTime time).interpret gen sampler s = (w, .ok bs))
    (h' : (t.atTime time').interpret gen sampler s = (w', .ok bs')) :
    bs.length = bs'.length ∧
    List.Forall₂ (fun b b' => b.start = b'.start ∧ b.stop = b'.stop ∧ b.orientation = b'.orientation ∧
      b.length = b'.length ∧ b.radiusStart = b'.radiusStart ∧ b.radiusEnd = b'.radiusEnd ∧ b.depth = b'.depth) bs bs' ∧
    (∀ i, ((t.atTime time).interpret gen sampler (s.take i)).1.gen =
        ((t.atTime time').interpret gen sampler (s.take i)).1.gen ∧
      ((t.atTime time).interpret gen sampler (s.take i)).1.sampler =
        ((t.atTime time').interpret gen sampler (s.take i)).1.sampler) ∧
    (∀ b ∈ bs, barkColour b.depth time = .ok b.colour) ∧ ∀ b ∈ bs', barkColour b.depth time' = .ok b.colour := by
  have hL := lockstep_times t time time'
  have hstart : ((t.atTime time).start gen sampler).Paired (fun g s g' s' => g = g' ∧ s = s') Pose.Recoloured
      ((t.atTime time').start gen sampler) := ⟨⟨rfl, rfl⟩, ⟨trunkColour, rfl⟩, .nil⟩
  have hbranches : List.Forall₂ Branch.Recoloured bs bs' := (hL.run hstart h h').2
  refine ⟨hbranches.length_eq, ?_, fun i => (hL.take hstart h h' i).states, colour_of_run h, colour_of_run h'⟩
  refine hbranches.imp ?_
  rintro b b' ⟨colour, rfl⟩
  exact ⟨rfl, rfl, rfl, rfl, rfl, rfl, rfl⟩

/-- A vine with random axes at two times, with a branch that opens and closes and a `]` that closes nothing. -/
theorem time_changes_colours_only_vine :
    ∃ w w' bs bs', ((vine.turtle 0.5).atTime 2.5).interpret (.ofSeed 3) () "F[+F]]-F".toList = (w, .ok bs) ∧
      ((vine.turtle 0.5).atTime 40.0).interpret (.ofSeed 3) () "F[+F]]-F".toList = (w', .ok bs') ∧
      bs.map Branch.start = bs'.map Branch.start ∧ w.gen = w'.gen ∧
      ∀ b ∈ bs', barkColour b.depth 40.0 = .ok b.colour := by
  obtain ⟨w, bs, h⟩ := ok_of_isSome (by decide +kernel :
    (((vine.turtle 0.5).atTime 2.5).interpret (.ofSeed 3) () "F[+F]]-F".toList).2.toOption.isSome = true)
  obtain ⟨w', bs', h'⟩ := ok_of_isSome (by decide +kernel :
    (((vine.turtle 0.5).atTime 40.0).interpret (.ofSeed 3) () "F[+F]]-F".toList).2.toOption.isSome = true)
  obtain ⟨-, hbranches, hstates, -, hcolours⟩ := time_changes_colours_only h h'
  have hstarts : List.Forall₂ (fun b b' => b.start = b'.start) bs bs' := hbranches.imp fun _ _ hb => hb.1
  have hgen := (hstates "F[+F]]-F".toList.length).1
  have hw := congrArg (fun r => r.1.gen) h
  have hw' := congrArg (fun r => r.1.gen) h'
  rw [List.take_length] at hgen
  refine ⟨w, w', bs, bs', h, h', ?_, hw.symm.trans (hgen.trans hw'), hcolours⟩
  rw [← List.forall₂_eq_eq_eq, List.forall₂_map_left_iff, List.forall₂_map_right_iff]
  exact hstarts

end Turtle

end TurtlePlant
