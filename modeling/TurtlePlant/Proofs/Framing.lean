import TurtlePlant.Proofs.Exact
import TurtlePlant.Proofs.Drawing

/-!
# The cube around a figure

A figure of a plant on exact numbers has one line for each branch, and its limits are the sides of a cube around all their
ends (`Figure.plant_in_cube`).

- The box that is found around some points is `Tight`: each of its sides has a point on it and none beyond (`Box.tight_frame`).
- The cube has the middle of the box, and is as wide as the box along its longest axis, but not less than `2e-6`. So it holds
  the box (`Figure.cube_holds`), and where it is no wider it has the same sides (`Figure.cube_sides`).
-/

namespace TurtlePlant

/-! ## Coordinates -/

/-- The axes of space. -/
inductive Axis where
  | x | y | z
  deriving DecidableEq

namespace Vec3

variable {R : Type}

/-- The coordinate along an axis. -/
def along (v : Vec3 R) : Axis → R
  | .x => v.x
  | .y => v.y
  | .z => v.z

theorem along_zipWith (f : R → R → R) (v w : Vec3 R) (a : Axis) : (v.zipWith f w).along a = f (v.along a) (w.along a) := by
  cases a <;> rfl

/-- Vectors that are combined one after the other are so along each axis. -/
theorem along_foldl_zipWith (f : R → R → R) (ps : List (Vec3 R)) (p : Vec3 R) (a : Axis) :
    (ps.foldl (zipWith f) p).along a = (ps.map fun q => q.along a).foldl f (p.along a) := by
  induction ps generalizing p with
  | nil => rfl
  | cons q ps ih => rw [List.foldl_cons, ih, along_zipWith, List.map_cons, List.foldl_cons]

end Vec3

/-! ## Boxes -/

namespace Box

/-- A box whose sides have some of the points on them and none beyond. -/
structure Tight (b : Box ℝ) (ps : List (Vec3 ℝ)) : Prop where
  low : ∀ a, IsLeast {c | c ∈ ps.map fun p => p.along a} (b.low.along a)
  high : ∀ a, IsGreatest {c | c ∈ ps.map fun p => p.along a} (b.high.along a)

theorem low_machine : BlockForm.low .machine = (min : ℝ → ℝ → ℝ) := by
  funext x y
  have hnumber : ∀ z : ℝ, isNaN z = false := fun z => by simp [isNaN]
  simp [BlockForm.low, strictLower, hnumber, Exact.lower_eq]

theorem high_machine : BlockForm.high .machine = (max : ℝ → ℝ → ℝ) := by
  funext x y
  have hnumber : ∀ z : ℝ, isNaN z = false := fun z => by simp [isNaN]
  simp [BlockForm.high, strictUpper, hnumber, Exact.upper_eq]

/-- **There is a tight box around some points.** -/
theorem tight_frame {ps : List (Vec3 ℝ)} (h : ps ≠ []) : ∃ b, frame? .machine ps = some b ∧ b.Tight ps := by
  obtain ⟨p, ps, rfl⟩ := List.exists_cons_of_ne_nil h
  refine ⟨_, rfl, fun a => ?_, fun a => ?_⟩
  · rw [Vec3.along_foldl_zipWith, low_machine, List.map_cons]
    exact List.min?_eq_some_iff.mp List.min?_cons'
  · rw [Vec3.along_foldl_zipWith, high_machine, List.map_cons]
    exact List.max?_eq_some_iff.mp List.max?_cons'

/-- How far a box reaches along an axis. -/
def reach (b : Box ℝ) (a : Axis) : ℝ := b.high.along a - b.low.along a

/-- How far a box reaches along its longest axis. -/
noncomputable def longest (b : Box ℝ) : ℝ := max (max (b.reach .x) (b.reach .y)) (b.reach .z)

theorem reach_le_longest (b : Box ℝ) (a : Axis) : b.reach a ≤ b.longest := by
  cases a with
  | x => exact (le_max_left _ _).trans (le_max_left _ _)
  | y => exact (le_max_right _ _).trans (le_max_left _ _)
  | z => exact le_max_right _ _

theorem exists_reach_eq (b : Box ℝ) : ∃ a, b.longest = b.reach a := by
  unfold longest
  rcases max_choice (max (b.reach .x) (b.reach .y)) (b.reach .z) with h | h
  · rw [h]
    rcases max_choice (b.reach .x) (b.reach .y) with h | h
    · exact ⟨.x, h⟩
    · exact ⟨.y, h⟩
  · exact ⟨.z, h⟩

/-- How far some points are apart along an axis. -/
def Apart (ps : List (Vec3 ℝ)) (a : Axis) (d : ℝ) : Prop := ∃ p ∈ ps, ∃ q ∈ ps, q.along a - p.along a = d

section Tight

variable {b : Box ℝ} {ps : List (Vec3 ℝ)}

/-- A tight box reaches as far as its points are apart. -/
theorem Tight.reach_isGreatest (h : b.Tight ps) (a : Axis) : IsGreatest {d | Apart ps a d} (b.reach a) := by
  obtain ⟨hlow, hlow'⟩ := h.low a
  obtain ⟨hhigh, hhigh'⟩ := h.high a
  obtain ⟨p, hp, hpa⟩ := List.mem_map.mp hlow
  obtain ⟨q, hq, hqa⟩ := List.mem_map.mp hhigh
  refine ⟨⟨p, hp, q, hq, by rw [hpa, hqa, reach]⟩, ?_⟩
  rintro d ⟨p, hp, q, hq, rfl⟩
  exact sub_le_sub (hhigh' (List.mem_map.mpr ⟨q, hq, rfl⟩)) (hlow' (List.mem_map.mpr ⟨p, hp, rfl⟩))

/-- And along its longest axis as far as its points are apart along any. -/
theorem Tight.longest_isGreatest (h : b.Tight ps) : IsGreatest {d | ∃ a, Apart ps a d} b.longest := by
  obtain ⟨a, ha⟩ := b.exists_reach_eq
  refine ⟨⟨a, ha ▸ (h.reach_isGreatest a).1⟩, ?_⟩
  rintro d ⟨a, hd⟩
  exact ((h.reach_isGreatest a).2 hd).trans (b.reach_le_longest a)

end Tight

end Box

/-! ## Cubes -/

namespace Figure

variable {R : Type} [Arith R]

/-- The sides of a cube with a middle and half a side. -/
def cube (centre : Vec3 R) (half : R) : Box R := ⟨centre.map (· - half), centre.map (· + half)⟩

/-- Sets the limits of the axes to the sides of a box. -/
def limitsOf (b : Box R) : List (Call R) :=
  [⟨"set_xlim", [.number b.low.x, .number b.high.x], []⟩, ⟨"set_ylim", [.number b.low.y, .number b.high.y], []⟩,
    ⟨"set_zlim", [.number b.low.z, .number b.high.z], []⟩]

theorem points_ne_nil {f : Figure R} (h : f.branches ≠ []) : f.points ≠ [] := by
  obtain ⟨b, bs, hbs⟩ := List.exists_cons_of_ne_nil h
  simp [points, segments, hbs]

section Exact

/-- Half the side of the cube around a box: half its longest side, unless that is too short. -/
noncomputable def halfSide (b : Box ℝ) : ℝ := max (half b.longest) leastHalfSide

variable {f : Figure ℝ} {b : Box ℝ} {ps : List (Vec3 ℝ)}

theorem half_eq (x : ℝ) : half x = x / 2 := congrArg (x / ·) (Int.cast_ofNat 2)

theorem halfSide_eq (b : Box ℝ) : halfSide b = max (b.longest / 2) (1 / 1000000) := by
  rw [halfSide, half_eq]
  norm_num [leastHalfSide]

theorem combine_eq (op : ℝ → ℝ → ℝ) : BlockForm.combine op .machine .machine = op :=
  BlockForm.combine_machine (fun _ => rfl) (fun _ => rfl) op

/-- **The cube of a figure** has the middle of a tight box around its points. -/
theorem exists_frame (h : f.branches ≠ []) :
    ∃ b : Box ℝ, b.Tight f.points ∧ f.frame? = some (b.centre .machine, halfSide b) := by
  have hform : f.form = .machine := Block.form_eq_machine (fun _ => rfl) _
  have hhold : (f.points.map fun p => p.map (BlockForm.hold .machine)) = f.points := List.map_id f.points
  obtain ⟨b, hb, htight⟩ := Box.tight_frame (points_ne_nil h)
  have hextent : b.extent .machine = ⟨b.reach .x, b.reach .y, b.reach .z⟩ := by
    rw [Box.extent, combine_eq]
    rfl
  refine ⟨b, htight, ?_⟩
  unfold frame?
  simp only [hform, hhold, hb, Option.map_some, Box.high_machine, Exact.upper_eq, hextent]
  rfl

/-- The limits along an axis lie on either side of the middle of the box. -/
theorem along_cube (b : Box ℝ) (side : ℝ) (a : Axis) :
    (cube (b.centre .machine) side).low.along a = (b.low.along a + b.high.along a) / 2 - side ∧
      (cube (b.centre .machine) side).high.along a = (b.low.along a + b.high.along a) / 2 + side := by
  have hcentre : (b.centre .machine).along a = (b.low.along a + b.high.along a) / 2 := by
    rw [Box.centre, combine_eq, ← half_eq]
    cases a <;> rfl
  rw [← hcentre]
  cases a <;> exact ⟨rfl, rfl⟩

/-- Twice half a side. -/
theorem cube_width (b : Box ℝ) (a : Axis) :
    (cube (b.centre .machine) (halfSide b)).high.along a - (cube (b.centre .machine) (halfSide b)).low.along a =
      max b.longest (2 / 1000000) := by
  obtain ⟨hlow, hhigh⟩ := along_cube b (halfSide b) a
  rw [hlow, hhigh, halfSide_eq]
  rcases le_total (b.longest / 2) (1 / 1000000) with h | h
  · rw [max_eq_right h, max_eq_right (by linarith)]
    ring
  · rw [max_eq_left h, max_eq_left (by linarith)]
    ring

/-- **A cube holds the points of its box.** -/
theorem cube_holds (h : b.Tight ps) {p : Vec3 ℝ} (hp : p ∈ ps) (a : Axis) :
    p.along a ∈ Set.Icc ((cube (b.centre .machine) (halfSide b)).low.along a)
      ((cube (b.centre .machine) (halfSide b)).high.along a) := by
  have hmem : p.along a ∈ ps.map fun p => p.along a := List.mem_map.mpr ⟨p, hp, rfl⟩
  have hlow' : b.low.along a ≤ p.along a := (h.low a).2 hmem
  have hhigh' : p.along a ≤ b.high.along a := (h.high a).2 hmem
  have hside : (b.high.along a - b.low.along a) / 2 ≤ halfSide b := by
    rw [halfSide_eq]
    exact (div_le_div_of_nonneg_right (b.reach_le_longest a) two_pos.le).trans (le_max_left _ _)
  obtain ⟨hlow, hhigh⟩ := along_cube b (halfSide b) a
  rw [hlow, hhigh]
  constructor <;> linarith

/-- **Along its longest axes a cube has the sides of its box**, unless the box is too small. -/
theorem cube_sides (hsmall : 2 / 1000000 ≤ b.longest) {a : Axis} (ha : b.reach a = b.longest) :
    (cube (b.centre .machine) (halfSide b)).low.along a = b.low.along a ∧
      (cube (b.centre .machine) (halfSide b)).high.along a = b.high.along a := by
  have hside : halfSide b = (b.high.along a - b.low.along a) / 2 := by
    rw [halfSide_eq, max_eq_left (by linarith), ← ha, Box.reach]
  obtain ⟨hlow, hhigh⟩ := along_cube b (halfSide b) a
  rw [hlow, hhigh, hside]
  constructor <;> ring

/-- Where there is a plant, a figure gets to its end with the lines and the cube drawn. -/
theorem attempt_of_frame {centre : Vec3 ℝ} {side : ℝ} (h : f.frame? = some (centre, side)) :
    (Display.figure f).attempt =
      (f.openingCalls ++ (f.linesCall :: limitsOf (cube centre side)) ++ f.labelCalls ++ f.target?.toList.map saveCall,
        .ok ()) := by
  have hcheck : f.check = .ok () := f.check_of_kept fun _ => rfl
  rw [Display.attempt, Display.attemptFigure, hcheck, calls, h]
  rfl

/-- **A figure shows its plant in a cube.** It has a line for each branch, with the height of both ends last, as wide as the
mean of both radii. The limits of the axes are those of a cube that holds every end of a line. The cube is as wide as the
greatest distance between ends along an axis, but no less than `2e-6` wide; and if that distance is no less, both limits of
each axis that has it are those of ends of lines. -/
theorem plant_in_cube (f : Figure ℝ) (h : f.branches ≠ []) :
    f.segments.length = f.branches.length ∧ f.widths.length = f.branches.length ∧
      (∀ (i : ℕ) (b : Branch ℝ), f.branches[i]? = some b →
        f.segments[i]? = some (⟨b.start.x, b.start.z, b.start.y⟩, ⟨b.stop.x, b.stop.z, b.stop.y⟩) ∧
        f.widths[i]? = some ((b.radiusStart + b.radiusEnd) / 2 * f.widthScale)) ∧
      ∃ (limits : Box ℝ) (e : ℝ),
        (Display.figure f).attempt = (f.openingCalls ++
          (⟨"add_collection3d", [], [("colors", .list (f.branches.map fun b => .colour b.colour)),
            ("linewidths", .list (f.widths.map .number)),
            ("segments", .list (f.segments.map fun s => .list [.vector s.1, .vector s.2]))]⟩ :: limitsOf limits) ++
          f.labelCalls ++ f.target?.toList.map saveCall, .ok ()) ∧
        (∀ s ∈ f.segments, ∀ a, s.1.along a ∈ Set.Icc (limits.low.along a) (limits.high.along a) ∧
          s.2.along a ∈ Set.Icc (limits.low.along a) (limits.high.along a)) ∧
        IsGreatest {d | ∃ a, Box.Apart f.points a d} e ∧
        (∀ a, limits.high.along a - limits.low.along a = max e 2e-6) ∧
        (2e-6 ≤ e → ∀ a, Box.Apart f.points a e →
          (∃ p ∈ f.points, p.along a = limits.low.along a) ∧ ∃ p ∈ f.points, p.along a = limits.high.along a) := by
  have hleast : (2e-6 : ℝ) = 2 / 1000000 := by norm_num
  obtain ⟨b, hb, hframe⟩ := exists_frame h
  have hends : ∀ s ∈ f.segments, s.1 ∈ f.points ∧ s.2 ∈ f.points := fun s hs =>
    ⟨List.mem_flatMap.mpr ⟨s, hs, by simp⟩, List.mem_flatMap.mpr ⟨s, hs, by simp⟩⟩
  refine ⟨List.length_map _, List.length_map _, fun i branch hi => ⟨?_, ?_⟩, cube (b.centre .machine) (halfSide b), b.longest,
    attempt_of_frame hframe, fun s hs a => ⟨cube_holds hb (hends s hs).1 a, cube_holds hb (hends s hs).2 a⟩,
    hb.longest_isGreatest, fun a => ?_, fun hsmall a ha => ?_⟩
  · rw [segments, List.getElem?_map, hi]
    rfl
  · rw [widths, List.getElem?_map, hi, Option.map_some, half_eq]
  · rw [hleast]
    exact cube_width b a
  · have hreach : b.reach a = b.longest := le_antisymm (b.reach_le_longest a) ((hb.reach_isGreatest a).2 ha)
    obtain ⟨hlow, hhigh⟩ := cube_sides (hleast ▸ hsmall) hreach
    rw [hlow, hhigh]
    exact ⟨List.mem_map.mp (hb.low a).1, List.mem_map.mp (hb.high a).1⟩

/-- A flat plant: an upright branch, and one that goes on to the side. -/
noncomputable def espalier : Figure ℝ where
  branches := [⟨⟨0, 0, 0⟩, ⟨0, 1, 0⟩, ⟨0, 0, 0, 1⟩, 1, 1, 1, ⟨0, 0, 0⟩, 0⟩,
    ⟨⟨0, 1, 0⟩, ⟨1, 1, 0⟩, ⟨0, 0, 0, 1⟩, 1, 1, 1, ⟨0, 0, 0⟩, 0⟩]
  elevation := 0
  azimuth := 0
  widthScale := 1

/-- Its cube is one wide along every axis, and goes from the first branch to the tip of the second. -/
theorem plant_in_cube_espalier : espalier.branches ≠ [] ∧ ∃ limits : Box ℝ,
    (∀ a, limits.high.along a - limits.low.along a = 1) ∧ limits.low.x = 0 ∧ limits.high.x = 1 := by
  have hpoints : espalier.points = [⟨0, 0, 0⟩, ⟨0, 0, 1⟩, ⟨0, 0, 1⟩, ⟨1, 0, 1⟩] := rfl
  have hne : espalier.branches ≠ [] := List.cons_ne_nil _ _
  have hunit : ∀ p ∈ espalier.points, ∀ a, p.along a ∈ Set.Icc (0 : ℝ) 1 := by
    simp only [hpoints, List.forall_mem_cons]
    refine ⟨?_, ?_, ?_, ?_, nofun⟩ <;> intro a <;> cases a <;> norm_num [Vec3.along]
  have hx : Box.Apart espalier.points .x 1 :=
    ⟨⟨0, 0, 0⟩, by simp [hpoints], ⟨1, 0, 1⟩, by simp [hpoints], by norm_num [Vec3.along]⟩
  have hgreatest : IsGreatest {d | ∃ a, Box.Apart espalier.points a d} 1 := by
    refine ⟨⟨.x, hx⟩, ?_⟩
    rintro d ⟨a, p, hp, q, hq, rfl⟩
    linarith [(hunit p hp a).1, (hunit q hq a).2]
  obtain ⟨-, -, -, limits, e, -, -, he, hwidth, hattained⟩ := plant_in_cube espalier hne
  obtain rfl : e = 1 := he.unique hgreatest
  have hone : ∀ a, limits.high.along a - limits.low.along a = 1 := fun a => (hwidth a).trans (max_eq_left (by norm_num))
  obtain ⟨⟨p, hp, hlow⟩, q, hq, hhigh⟩ := hattained (by norm_num) .x hx
  have hside := hone .x
  rw [← hlow, ← hhigh] at hside
  refine ⟨hne, limits, hone, hlow.symm.trans ?_, hhigh.symm.trans ?_⟩
  · linarith [(hunit p hp .x).1, (hunit q hq .x).2]
  · linarith [(hunit p hp .x).1, (hunit q hq .x).2]

end Exact

end Figure

end TurtlePlant
