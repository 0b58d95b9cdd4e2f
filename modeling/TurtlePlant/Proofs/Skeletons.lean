import TurtlePlant.Proofs.Bytes
import TurtlePlant.Proofs.Drawing
import TurtlePlant.Proofs.Gradient
import TurtlePlant.Proofs.Packing

/-!
# Skeletons

The skeleton of some branches keeps all that a tube needs (`Skeleton.layout_lossless`).

- Rows of one length that are put one after the other are found at the multiples of that length (`getElem?_flatMap_rows`).
  That is how the points, radii and colours of a skeleton are laid out, two for each branch, and the cells of its lines, three
  for each.
- A line joins the points of its branch, and no other line has them, so the tubes are read off in order (`LaysOut`).
- The colours are the bytes of the branch, on machine numbers and on exact ones.
-/

namespace TurtlePlant

/-! ## Rows -/

section Rows

variable {α β : Type} {f : α → List β} {k : ℕ}

theorem length_flatMap_rows (hf : ∀ a, (f a).length = k) (l : List α) : (l.flatMap f).length = k * l.length := by
  induction l with
  | nil => rfl
  | cons a l ih => rw [List.flatMap_cons, List.length_append, hf, ih, List.length_cons, Nat.mul_succ, Nat.add_comm]

/-- **A row is found at the multiple of the length that all rows have.** -/
theorem getElem?_flatMap_rows (hf : ∀ a, (f a).length = k) {l : List α} {i j : ℕ} {a : α} (hi : l[i]? = some a)
    (hj : j < k) : (l.flatMap f)[k * i + j]? = (f a)[j]? := by
  induction l generalizing i with
  | nil => cases hi
  | cons b l ih =>
    rw [List.flatMap_cons]
    cases i with
    | zero =>
      obtain rfl : b = a := Option.some.inj hi
      rw [Nat.mul_zero, Nat.zero_add, List.getElem?_append_left (by rwa [hf])]
    | succ i =>
      have hplace : k * (i + 1) + j = k + (k * i + j) := by ring
      rw [hplace, List.getElem?_append_right (by rw [hf]; omega), hf, Nat.add_sub_cancel_left]
      exact ih hi

end Rows

variable {R : Type}

/-! ## Tubes -/

/-- A tube: its ends and how wide it is at each of them. -/
structure Tube (R : Type) where
  start : Vec3 R
  stop : Vec3 R
  radiusStart : R
  radiusEnd : R

/-- The tube of a branch. -/
def Branch.tube (b : Branch R) : Tube R := ⟨b.start, b.stop, b.radiusStart, b.radiusEnd⟩

namespace Skeleton

/-- The tube around a line. -/
def tube? (s : Skeleton R) (line : ℕ × ℕ) : Option (Tube R) := do
  return ⟨← s.points[line.1]?, ← s.points[line.2]?, ← s.radii[line.1]?, ← s.radii[line.2]?⟩

/-- Some branches laid out in a skeleton, with parts of colours as bytes. -/
structure LaysOut (byte : ℕ → R → Prop) (s : Skeleton R) (bs : List (Branch R)) : Prop where
  length_points : s.points.length = 2 * bs.length
  length_radii : s.radii.length = 2 * bs.length
  length_colours : s.colours.length = 2 * bs.length
  length_lines : s.lines.length = bs.length
  length_lineCells : s.lineCells.length = 3 * bs.length
  /-- A line has two points, where its branch starts and ends, with the radii there and one colour. -/
  line : ∀ (i : ℕ) (b : Branch R), bs[i]? = some b → ∃ (p q : ℕ) (c : Rgb Nat),
    s.lines[i]? = some (p, q) ∧
    s.lineCells[3 * i]? = some 2 ∧ s.lineCells[3 * i + 1]? = some p ∧ s.lineCells[3 * i + 2]? = some q ∧
    s.points[p]? = some b.start ∧ s.points[q]? = some b.stop ∧
    s.radii[p]? = some b.radiusStart ∧ s.radii[q]? = some b.radiusEnd ∧
    s.colours[p]? = some c ∧ s.colours[q]? = some c ∧ ∀ part, byte (c.part part) (b.colour.part part)
  /-- Every point is on one line. -/
  once : ∀ k < s.points.length, ∃! i : ℕ, ∃ p q : ℕ, s.lines[i]? = some (p, q) ∧ (k = p ∨ k = q)
  /-- The tubes are read off in order. -/
  tubes : s.lines.map s.tube? = bs.map fun b => some b.tube

section Layout

variable {bs : List (Branch R)} {i : ℕ} {b : Branch R}

theorem length_pairs {β : Type} (f g : Branch R → β) (bs : List (Branch R)) :
    (bs.flatMap fun b => [f b, g b]).length = 2 * bs.length :=
  length_flatMap_rows (f := fun b => [f b, g b]) (fun _ => rfl) bs

/-- Two entries for each branch. -/
theorem pairs_getElem? {β : Type} (f g : Branch R → β) (h : bs[i]? = some b) :
    (bs.flatMap fun b => [f b, g b])[2 * i]? = some (f b) ∧ (bs.flatMap fun b => [f b, g b])[2 * i + 1]? = some (g b) := by
  have hrow : ∀ b : Branch R, [f b, g b].length = 2 := fun _ => rfl
  exact ⟨getElem?_flatMap_rows hrow h (j := 0) (by decide), getElem?_flatMap_rows hrow h (j := 1) (by decide)⟩

variable [Arith R]

theorem length_lines (bs : List (Branch R)) : (ofBranches bs).lines.length = bs.length := by simp [ofBranches]

/-- **The line of a branch.** -/
theorem lines_getElem? (h : bs[i]? = some b) : (ofBranches bs).lines[i]? = some (2 * i, 2 * i + 1) := by
  have hlt : i < bs.length := (List.getElem?_eq_some_iff.mp h).1
  simp [ofBranches, hlt]

theorem line_of_getElem? {p q : ℕ} (h : (ofBranches bs).lines[i]? = some (p, q)) :
    i < bs.length ∧ p = 2 * i ∧ q = 2 * i + 1 := by
  have hi : i < bs.length := by
    have hlt := (List.getElem?_eq_some_iff.mp h).1
    rwa [length_lines] at hlt
  rw [lines_getElem? (List.getElem?_eq_getElem hi)] at h
  cases h
  exact ⟨hi, rfl, rfl⟩

/-- Three cells for each line. -/
theorem lineCells_getElem? (h : bs[i]? = some b) : (ofBranches bs).lineCells[3 * i]? = some 2 ∧
    (ofBranches bs).lineCells[3 * i + 1]? = some (2 * i) ∧ (ofBranches bs).lineCells[3 * i + 2]? = some (2 * i + 1) := by
  have hrow : ∀ line : ℕ × ℕ, [2, line.1, line.2].length = 3 := fun _ => rfl
  have hline := lines_getElem? h
  exact ⟨getElem?_flatMap_rows hrow hline (j := 0) (by decide), getElem?_flatMap_rows hrow hline (j := 1) (by decide),
    getElem?_flatMap_rows hrow hline (j := 2) (by decide)⟩

theorem tube?_ofBranches (h : bs[i]? = some b) : (ofBranches bs).tube? (2 * i, 2 * i + 1) = some b.tube := by
  obtain ⟨hstart, hstop⟩ := pairs_getElem? Branch.start Branch.stop h
  obtain ⟨hradius, hradius'⟩ := pairs_getElem? Branch.radiusStart Branch.radiusEnd h
  have hstart : (ofBranches bs).points[2 * i]? = some b.start := hstart
  have hstop : (ofBranches bs).points[2 * i + 1]? = some b.stop := hstop
  have hradius : (ofBranches bs).radii[2 * i]? = some b.radiusStart := hradius
  have hradius' : (ofBranches bs).radii[2 * i + 1]? = some b.radiusEnd := hradius'
  simp only [tube?, hstart, hstop, hradius, hradius']
  rfl

theorem part_bytes (form : BlockForm) (c : Rgb R) (part : Rgb.Part) :
    (c.bytes form).part part = channelByte form (c.part part) := by
  cases part <;> rfl

/-- **The skeleton of some branches lays them out**, with the bytes of their colours. -/
theorem laysOut_ofBranches {byte : ℕ → R → Prop}
    (hbyte : ∀ b ∈ bs, ∀ part, byte (channelByte (colourForm bs) (b.colour.part part)) (b.colour.part part)) :
    LaysOut byte (ofBranches bs) bs where
  length_points := length_pairs Branch.start Branch.stop bs
  length_radii := length_pairs Branch.radiusStart Branch.radiusEnd bs
  length_colours :=
    length_pairs (fun b => b.colour.bytes (colourForm bs)) (fun b => b.colour.bytes (colourForm bs)) bs
  length_lines := length_lines bs
  length_lineCells := by
    have hrow : ∀ line : ℕ × ℕ, [2, line.1, line.2].length = 3 := fun _ => rfl
    rw [← length_lines bs]
    exact length_flatMap_rows hrow _
  line := by
    intro i b h
    obtain ⟨hstart, hstop⟩ := pairs_getElem? Branch.start Branch.stop h
    obtain ⟨hradius, hradius'⟩ := pairs_getElem? Branch.radiusStart Branch.radiusEnd h
    obtain ⟨hcolour, hcolour'⟩ :=
      pairs_getElem? (fun b => b.colour.bytes (colourForm bs)) (fun b => b.colour.bytes (colourForm bs)) h
    obtain ⟨htwo, hp, hq⟩ := lineCells_getElem? h
    refine ⟨_, _, _, lines_getElem? h, htwo, hp, hq, hstart, hstop, hradius, hradius', hcolour, hcolour', fun part => ?_⟩
    rw [part_bytes]
    exact hbyte b (List.mem_of_getElem? h) part
  once := by
    intro k hk
    have hlength : (ofBranches bs).points.length = 2 * bs.length := length_pairs Branch.start Branch.stop bs
    have hi : k / 2 < bs.length := by omega
    refine ⟨k / 2, ⟨_, _, lines_getElem? (List.getElem?_eq_getElem hi), by omega⟩, ?_⟩
    rintro j ⟨p, q, hline, hpoint⟩
    obtain ⟨-, rfl, rfl⟩ := line_of_getElem? hline
    omega
  tubes := by
    apply List.ext_getElem?
    intro i
    rw [List.getElem?_map, List.getElem?_map]
    cases h : bs[i]? with
    | none =>
      have hlines : (ofBranches bs).lines[i]? = none := by
        rw [List.getElem?_eq_none_iff, length_lines]
        exact List.getElem?_eq_none_iff.mp h
      rw [hlines]
      rfl
    | some b =>
      rw [lines_getElem? h, Option.map_some, tube?_ofBranches h]
      rfl

end Layout

end Skeleton

/-! ## Machine numbers -/

theorem Quantity.heldInt?_of_isMachine {q : Quantity} (h : q.isMachine = true) : Arith.heldInt? q = none := by
  cases q with
  | integer n => cases h
  | machine x => rfl
  | lost => rfl

/-- A branch of finite machine numbers. -/
def Branch.Finite (b : Branch Quantity) : Prop := ∀ f, ∀ q ∈ (b.cell f).numbers, ∃ x, q = .machine x ∧ Machine.IsFinite x

theorem Branch.Finite.ofMachine {b : Branch Quantity} (h : b.Finite) : b.OfMachine := by
  intro f q hq
  obtain ⟨x, rfl, -⟩ := h f q hq
  rfl

theorem Branch.Finite.part {b : Branch Quantity} (h : b.Finite) (part : Rgb.Part) :
    ∃ x, b.colour.part part = .machine x ∧ Machine.IsFinite x :=
  h .colour _ (by cases part <;> simp [Branch.cell, Cell.numbers, Rgb.part])

namespace Skeleton

variable {bs : List (Branch Quantity)}

theorem colourForm_of_ofMachine (h : ∀ b ∈ bs, b.OfMachine) : colourForm bs = .machine := by
  refine Block.form_of_forall fun q hq => ?_
  obtain ⟨b, hb, hq⟩ := List.mem_flatMap.mp hq
  exact Quantity.heldInt?_of_isMachine (h b hb .colour q hq)

/-- Nothing keeps branches of machine numbers from having a skeleton. -/
theorem check_of_ofMachine (h : ∀ b ∈ bs, b.OfMachine) : check bs = .ok () := by
  refine check_of_settled (fun v hv => ?_) (fun q hq => ?_) (colourForm_of_ofMachine h)
  · obtain ⟨b, hb, hv⟩ := List.mem_flatMap.mp hv
    rcases List.mem_pair.mp hv with rfl | rfl
    · exact Vec3.settled?_of_ofMachine (h b hb .start)
    · exact Vec3.settled?_of_ofMachine (h b hb .stop)
  · obtain ⟨b, hb, hq⟩ := List.mem_flatMap.mp hq
    rcases List.mem_pair.mp hq with rfl | rfl
    · exact Quantity.settled?_of_isMachine (h b hb .radiusStart _ List.mem_cons_self)
    · exact Quantity.settled?_of_isMachine (h b hb .radiusEnd _ List.mem_cons_self)

/-- **Nothing of a branch is lost in a skeleton.** Branches of finite machine numbers have a mesh around the skeleton that lays
them out, and the bytes of their colours are those of `255` times each part. On exact numbers the parts of colours come back
from their bytes as well, up to `1 / 510`. Without any branches there is no mesh. -/
theorem layout_lossless (sides : Quantity) (hne : bs ≠ []) (hfinite : ∀ b ∈ bs, b.Finite) :
    (∃ s, Mesh.ofBranches? bs sides = some ⟨s, sides⟩ ∧ check bs = .ok () ∧
      LaysOut (fun k q => k ≤ 255 ∧ ∃ v, q = .machine v ∧ Machine.IsPartByte k v) s bs) ∧
    (∀ cs : List (Branch ℝ), LaysOut (fun k v => k ≤ 255 ∧ IsByte k (255 * v) ∧
      (v ∈ Set.Icc 0 1 → |(k : ℝ) / 255 - v| ≤ 1 / 510)) (ofBranches cs) cs) ∧
    Mesh.ofBranches? ([] : List (Branch Quantity)) sides = none := by
  have hmachine : ∀ b ∈ bs, b.OfMachine := fun b hb => (hfinite b hb).ofMachine
  refine ⟨⟨ofBranches bs, ?_, check_of_ofMachine hmachine, laysOut_ofBranches fun b hb part => ?_⟩,
    fun cs => laysOut_ofBranches fun c _ part => ?_, rfl⟩
  · rw [Mesh.ofBranches?, List.isEmpty_eq_false_iff.mpr hne]
    rfl
  · obtain ⟨v, hv, hvfinite⟩ := (hfinite b hb).part part
    have hbyte := Machine.isPartByte_nearestByte hvfinite
    rw [colourForm_of_ofMachine hmachine, hv, Quantity.channelByte_machine]
    exact ⟨hbyte.le, v, rfl, hbyte⟩
  · have hform : colourForm cs = .machine := Block.form_eq_machine (fun _ => rfl) _
    have hbyte := Exact.isByte_channelByte (c.colour.part part)
    rw [hform]
    exact ⟨hbyte.le, hbyte, fun hv => hbyte.abs_div_sub_le hv.1 hv.2⟩

/-- An upright branch, and one that goes on to the side, whose red is a half. -/
def shoot : List (Branch Quantity) :=
  [⟨⟨0.0, 0.0, 0.0⟩, ⟨0.0, 1.0, 0.0⟩, ⟨0.0, 0.0, 0.0, 1.0⟩, 1.0, 1.0, 0.5, ⟨1.0, 0.5, 0.0⟩, 0.0⟩,
    ⟨⟨0.0, 1.0, 0.0⟩, ⟨1.0, 1.0, 0.0⟩, ⟨0.0, 0.0, 0.0, 1.0⟩, 1.0, 0.5, 0.5, ⟨0.5, 1.0, 0.0⟩, 0.5⟩]

theorem shoot_finite : ∀ b ∈ shoot, b.Finite := by
  have hzero : ∃ x, (0.0 : Quantity) = .machine x ∧ Machine.IsFinite x := ⟨_, rfl, Machine.between_zero.finite⟩
  have hhalf : ∃ x, (0.5 : Quantity) = .machine x ∧ Machine.IsFinite x := ⟨_, rfl, Machine.between_half.finite⟩
  have hone : ∃ x, (1.0 : Quantity) = .machine x ∧ Machine.IsFinite x := ⟨_, rfl, Machine.between_one.finite⟩
  simp only [shoot, List.forall_mem_cons]
  refine ⟨fun f => ?_, fun f => ?_, List.forall_mem_nil _⟩ <;> cases f <;>
    simp only [Branch.cell, Cell.numbers, List.forall_mem_cons, hzero, hhalf, hone, true_and] <;> simp

/-- The tubes come back in order, and the red becomes the byte `128`, the even one of the two that are nearest to `127.5`. -/
theorem layout_lossless_shoot : (∀ b ∈ shoot, b.Finite) ∧ ∃ s, Mesh.ofBranches? shoot 6.0 = some ⟨s, 6.0⟩ ∧
    s.lines.map s.tube? =
      [some ⟨⟨0.0, 0.0, 0.0⟩, ⟨0.0, 1.0, 0.0⟩, 1.0, 0.5⟩, some ⟨⟨0.0, 1.0, 0.0⟩, ⟨1.0, 1.0, 0.0⟩, 0.5, 0.5⟩] ∧
    ∃ p q c, s.lines[1]? = some (p, q) ∧ s.colours[p]? = some c ∧ s.colours[q]? = some c ∧ c.red = 128 := by
  obtain ⟨⟨s, hs, -, hlaid⟩, -⟩ := layout_lossless 6.0 (List.cons_ne_nil _ _) shoot_finite
  obtain ⟨p, q, c, hline, -, -, -, -, -, -, -, hp, hq, hbyte⟩ := hlaid.line 1 _ rfl
  refine ⟨shoot_finite, s, hs, hlaid.tubes, p, q, c, hline, hp, hq, ?_⟩
  obtain ⟨-, v, hv, hred⟩ := hbyte .red
  obtain rfl : 0.5 = v := Quantity.machine.inj hv
  have hexact : Machine.val 0.5 * Machine.val 255.0 = 255 / 2 := by
    rw [Machine.between_half.val_eq, Machine.between_top.val_eq]
    norm_num
  have hnear : Machine.Near (0.5 * 255.0) (255 / 2) := by
    have hmul := Machine.near_mul Machine.between_half.finite Machine.between_top.finite
    rw [hexact] at hmul
    exact hmul (Machine.within_of_nonneg (by norm_num) (by norm_num))
  have hval : Machine.val (0.5 * 255.0) = 255 / 2 := hnear.val_eq ⟨255, -1, by decide, by decide, by norm_num⟩
  have h128 : IsByte 128 (255 / 2 : ℚ) := ⟨128, ⟨by norm_num, fun _ => by decide⟩, by decide⟩
  exact (hval ▸ hred.finite hnear.finite).unique h128

end Skeleton

end TurtlePlant
