import TurtlePlant.Proofs.Painting
import TurtlePlant.Proofs.Rotations
import TurtlePlant.Proofs.Branching

/-!
# Headings

On exact numbers the turtle always heads by a unit vector. A turn keeps the length of a direction, a branch that opens
brings its nudged direction to length one or keeps the old one, and a branch that closes takes back a saved one
(`reads_unit`). So a segment ends where its length along a unit vector leads from its start (`directions_are_unit`).
-/

namespace TurtlePlant

namespace Turtle

variable {G S : Type}

/-- **Every symbol keeps directions of length one.** -/
theorem reads_unit (t : Turtle ℝ G S) : t.Reads fun _ p => p.direction.norm = 1 where
  forward _ h := h
  turn {_ p _ _ axis angle} _ h := (norm_rotateAbout p.direction axis angle).trans h
  opening h := Vec3.norm_normalizeOr _ h
  closing h := h
  unmatched _ h := h
  idle _ h := h

/-- **Directions are unit vectors, and segments have the length they claim.** Whatever numbers and axes the turtle is
given, after every word its direction and all saved ones have length one, and every branch goes its length along a unit
vector. -/
theorem directions_are_unit (t : Turtle ℝ G S) (gen : G) (sampler : S) (s : Word) :
    ∃ w bs, t.interpret gen sampler s = (w, .ok bs) ∧ w.pose.direction.norm = 1 ∧
      (∀ p ∈ w.stack, p.direction.norm = 1) ∧
      ∀ b ∈ bs, ∃ d : Vec3 ℝ, d.norm = 1 ∧ b.stop - b.start = d.scale b.length ∧
        (b.stop - b.start).norm = |b.length| := by
  obtain ⟨w, bs, h⟩ := interpret_ok t gen sampler s
  obtain ⟨hlive, hsaved⟩ := (reads_unit t).poses Vec3.norm_up h
  refine ⟨w, bs, h, hlive, hsaved, ?_⟩
  intro b hb
  obtain ⟨i, hi, hbi⟩ := forward_of_mem h hb
  obtain ⟨v, b', hpre, hb', hseg⟩ := segment_of_forward h hi
  rw [hbi] at hb'
  cases hb'
  have hunit : v.pose.direction.norm = 1 := ((reads_unit t).poses Vec3.norm_up hpre).1
  have hway : b.stop - b.start = v.pose.direction.scale b.length := by
    rw [hseg]
    exact Vec3.add_sub_self v.pose.position _
  refine ⟨v.pose.direction, hunit, hway, ?_⟩
  rw [hway, Vec3.norm_scale, hunit, one_mul]

/-- Turns about axes without a direction, with a pose saved in between. -/
theorem directions_are_unit_windy :
    ∃ w bs p b, windyTurtle.interpret 0 () "+[-F".toList = (w, .ok bs) ∧ w.stack = [p] ∧ p.direction.norm = 1 ∧
      bs = [b] ∧ (b.stop - b.start).norm = |b.length| := by
  obtain ⟨w, bs, h, -, hsaved, hway⟩ := directions_are_unit windyTurtle 0 () "+[-F".toList
  have hdepth : (Piece.opens (Word.left "+[-F".toList)).length = w.stack.length :=
    ((reads_unit windyTurtle).left (Q := fun _ p => p.direction.norm = 1) Vec3.norm_up h).2.length_eq
  obtain ⟨p, hp⟩ := List.length_eq_one_iff.mp hdepth.symm
  obtain ⟨b, hb⟩ := List.length_eq_one_iff.mp (length_of_run h : bs.length = 1)
  obtain ⟨d, -, -, hlength⟩ := hway b (by rw [hb]; exact List.mem_cons_self)
  exact ⟨w, bs, p, b, h, hp, hsaved p (by rw [hp]; exact List.mem_cons_self), hb, hlength⟩

end Turtle

end TurtlePlant
