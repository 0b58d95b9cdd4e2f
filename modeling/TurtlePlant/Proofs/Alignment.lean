import TurtlePlant.Proofs.Sizes
import TurtlePlant.Proofs.Heading
import TurtlePlant.Proofs.Upright

/-!
# Segments and their rotations

A segment is drawn along the direction of its pose by a length that is jittered, and its rotation is found from that
direction alone (`heading_of_mem`). So the rotation takes `Vec3.up` onto the direction of the segment (`Branch.Aligned`)
where the length is above zero (`aligned_of_length`), and onto the opposite one where it is below
(`direction?_of_heading`, `segment_turned_back_wild`).

A jitter wider than twice the length can turn a segment back. How far it then reaches depends on the brackets that are open
(`backReach`). All segments that are long enough to have a direction are aligned just when no number of open brackets lets
one reach back by `leastLength` (`segments_aligned_iff`, `backReach_lt_iff`).
-/

namespace TurtlePlant

/-- A source that gives numbers from `[0, 1)` only. -/
def Source.InUnit {G : Type} (source : Source ℝ G) : Prop := ∀ gen, (source.next gen).1 ∈ Set.Ico 0 1

namespace Branch

/-- A segment of a length above zero whose rotation takes `Vec3.up` onto its direction. -/
def Aligned (b : Branch ℝ) : Prop :=
  0 < b.length ∧ ∃ q d, b.rotation? = .ok q ∧ b.direction? = .ok d ∧ (q.rotate .up - d).norm ≤ 2.0 * leastLength

theorem rotation?_eq {b : Branch ℝ} (h : b.orientation.norm = 1) : b.rotation? = .ok b.orientation := by
  have hform : Block.form b.orientation.toList = .machine := Block.form_eq_machine (fun _ => rfl) _
  have hunit : b.orientation.unit? = some b.orientation := by
    unfold Quaternion.unit?
    simp [h, isNaN, Exact.zero_eq]
  unfold rotation? Quaternion.rotation?
  rw [hform, hunit]; rfl

theorem direction?_eq (b : Branch ℝ) : b.direction? = .ok (b.stop - b.start).normalize := by
  have hform : ∀ v : Vec3 ℝ, Block.form v.toList = .machine := fun v => Block.form_eq_machine (fun _ => rfl) _
  have hoffset : b.offset = b.stop - b.start := by
    unfold offset Vec3.combine
    rw [hform, hform, BlockForm.combine_machine (fun _ => rfl) (fun _ => rfl)]; rfl
  unfold direction?
  rw [hform, hform, hoffset]; rfl

end Branch

namespace Turtle

/-! ## One segment -/

section Segments

variable {G S : Type} {t : Turtle ℝ G S} {w : Walk ℝ G S} {gen : G} {sampler : S} {s : Word} {bs : List (Branch ℝ)}

/-- A branch goes its length along the unit vector that its rotation is found from. -/
theorem heading_of_mem (h : t.interpret gen sampler s = (w, .ok bs)) {b : Branch ℝ} (hb : b ∈ bs) :
    ∃ d : Vec3 ℝ, d.norm = 1 ∧ b.stop - b.start = d.scale b.length ∧ b.orientation = rotationFromUp d := by
  obtain ⟨i, hi, hbi⟩ := forward_of_mem h hb
  obtain ⟨v, b', hpre, hb', hseg⟩ := segment_of_forward h hi
  obtain rfl : b = b' := Option.some.inj (hbi.symm.trans hb')
  refine ⟨v.pose.direction, ((reads_unit t).poses Vec3.norm_up hpre).1, ?_, ?_⟩
  · rw [hseg]
    exact Vec3.add_sub_self v.pose.position _
  · rw [hseg]; rfl

/-- A segment points along its heading, or the opposite way if its length is below zero. -/
theorem direction?_of_heading {b : Branch ℝ} {d : Vec3 ℝ} (hd : d.norm = 1) (hway : b.stop - b.start = d.scale b.length)
    (hlength : leastLength ≤ |b.length|) : b.direction? = .ok (d.scale (b.length / |b.length|)) := by
  rw [Branch.direction?_eq, hway, Vec3.normalize_scale hd hlength]

theorem aligned_of_length {b : Branch ℝ} {d : Vec3 ℝ} (hd : d.norm = 1)
    (hway : b.stop - b.start = d.scale b.length) (hrot : b.orientation = rotationFromUp d)
    (hlength : leastLength ≤ b.length) : b.Aligned := by
  have hpos : 0 < b.length := Vec3.leastLength_pos.trans_le hlength
  have habs : |b.length| = b.length := abs_of_pos hpos
  have hunit : b.orientation.norm = 1 := hrot ▸ norm_rotationFromUp d
  refine ⟨hpos, b.orientation, d, Branch.rotation?_eq hunit, ?_, ?_⟩
  · rw [direction?_of_heading hd hway (hlength.trans_eq habs.symm), habs, div_self hpos.ne', Vec3.scale_one]
  · rw [hrot]
    have hup := norm_rotate_up_sub_le d
    rwa [Vec3.normalize_of_norm hd, ← Exact.two_eq] at hup

end Segments

/-! ## How far back -/

/-- How far a segment can reach back in `k` open branches. -/
noncomputable def backReach (g : Grammar ℝ) (k : ℕ) : ℝ := g.length * g.branchScale ^ k * (g.lengthVariation / 2.0 - 1)

theorem backReach_eq (g : Grammar ℝ) (k : ℕ) :
    backReach g k = g.length * g.branchScale ^ k * (g.lengthVariation / 2 - 1) := by
  rw [backReach, Exact.two_eq]

/-- Segments reach back by less than any length if the jitter is no wider than twice the length, and by less than the least
one if branches are not longer than the trunk and the trunk does. -/
theorem backReach_lt_iff {g : Grammar ℝ} (hlength : 0 < g.length) (hscale : 0 < g.branchScale) :
    (∀ k, backReach g k < leastLength) ↔
      g.lengthVariation ≤ 2 ∨ g.branchScale ≤ 1 ∧ g.length * (g.lengthVariation / 2 - 1) < leastLength := by
  have hleast := Vec3.leastLength_pos
  simp only [backReach_eq]
  constructor
  · intro h
    by_cases hwide : g.lengthVariation ≤ 2
    · exact Or.inl hwide
    · have htrunk := h 0
      rw [pow_zero, mul_one] at htrunk
      refine Or.inr ⟨?_, htrunk⟩
      by_contra hgrow
      -- branches get longer without bound, and with them what they reach back
      have hback : 0 < g.length * (g.lengthVariation / 2 - 1) := mul_pos hlength (by linarith)
      obtain ⟨k, hk⟩ := pow_unbounded_of_one_lt (leastLength / (g.length * (g.lengthVariation / 2 - 1))) (not_le.mp hgrow)
      rw [div_lt_iff₀ hback] at hk
      linarith [h k]
  · rintro (hnarrow | ⟨hshrink, htrunk⟩) k
    · have hfactor : g.lengthVariation / 2 - 1 ≤ 0 := by linarith
      have hpos : 0 ≤ g.length * g.branchScale ^ k := by positivity
      exact (mul_nonpos_of_nonneg_of_nonpos hpos hfactor).trans_lt hleast
    · have hpow : g.branchScale ^ k ≤ 1 := pow_le_one₀ hscale.le hshrink
      rcases le_total (g.lengthVariation / 2 - 1) 0 with hfactor | hfactor
      · have hpos : 0 ≤ g.length * g.branchScale ^ k := by positivity
        exact (mul_nonpos_of_nonneg_of_nonpos hpos hfactor).trans_lt hleast
      · refine lt_of_le_of_lt ?_ htrunk
        exact mul_le_mul_of_nonneg_right (mul_le_of_le_one_right hlength.le hpow) hfactor

/-- No segment reaches back further. -/
theorem neg_backReach_le {G S : Type} {t : Turtle ℝ G S} {w : Walk ℝ G S} {gen : G} {sampler : S} {s : Word}
    {bs : List (Branch ℝ)} {d : Draft ℝ} (hd : d.check = .ok t.grammar) (hunit : t.source.InUnit)
    (h : t.interpret gen sampler s = (w, .ok bs)) {b : Branch ℝ} (hb : b ∈ bs) :
    ∃ k, -backReach t.grammar k ≤ b.length := by
  obtain ⟨i, hi, hbi⟩ := forward_of_mem h hb
  obtain ⟨b', hb', -, -, hsize⟩ := size_of_forward h hi
  obtain rfl : b = b' := Option.some.inj (hbi.symm.trans hb')
  have hdraw : t.forwardDraw gen sampler s i ∈ Set.Ico 0 1 := hunit _
  refine ⟨Word.countLeft (s.take i) '[', ?_⟩
  have hlow := (length_mem hd (Word.countLeft (s.take i) '[') hdraw).1
  rw [← hsize] at hlow
  rw [backReach_eq]
  linarith

/-! ## All segments -/

/-- A turtle that is given the same number over and over. -/
noncomputable def monotonous (g : Grammar ℝ) (u : ℝ) : Turtle ℝ Unit Unit where
  grammar := g
  source := ⟨fun x => (u, x)⟩
  axes := fun s x => (.up, s, x)
  time := 0

theorem countLeft_opening (k : ℕ) : Word.countLeft (List.replicate k '[') '[' = k := by
  have h : ∀ ps : List (Piece Unit), (Piece.readAll ps (List.replicate k ('[', ()))).count (.symbol '[' ()) =
      ps.count (.symbol '[' ()) + k := by
    induction k with
    | zero => intro ps; rfl
    | succ k ih =>
      intro ps
      rw [List.replicate_succ, Piece.readAll_cons, ih]
      simp [Piece.read]
      omega
  unfold Word.countLeft Word.left
  rw [List.map_replicate, h, List.count_nil, zero_add]

/-- The segment in `k` open branches. -/
theorem monotonous_draws (g : Grammar ℝ) (u : ℝ) (k : ℕ) :
    ∃ w b, (monotonous g u).interpret () () (List.replicate k '[' ++ ['F']) = (w, .ok [b]) ∧
      b.length = g.length * g.branchScale ^ k * (1 + (u - 1 / 2) * g.lengthVariation) := by
  obtain ⟨w, bs, h⟩ := interpret_ok (monotonous g u) () () (List.replicate k '[' ++ ['F'])
  have hcount : (List.replicate k '[').count 'F' = 0 := List.count_eq_zero_of_not_mem (by simp)
  have hbs : bs.length = 1 := (length_of_run h).trans (by rw [List.count_append, hcount]; rfl)
  obtain ⟨b, rfl⟩ := List.length_eq_one_iff.mp hbs
  have htake : (List.replicate k '[' ++ ['F']).take k = List.replicate k '[' := by simp
  obtain ⟨b', hb', -, -, hlength⟩ := size_of_forward h (i := k) (by simp)
  rw [htake, hcount] at hb'
  obtain rfl : b = b' := Option.some.inj hb'
  have hfactor : (1.0 : ℝ) + (u - 0.5) * g.lengthVariation = 1 + (u - 1 / 2) * g.lengthVariation := by norm_num
  rw [htake, countLeft_opening, scaled_eq] at hlength
  exact ⟨w, b, h, hlength.trans (congrArg _ hfactor)⟩

/-- The number zero in `k` open branches draws a segment that reaches back as far as it can. -/
theorem monotonous_turned_back {g : Grammar ℝ} {k : ℕ} (h : leastLength ≤ backReach g k) :
    ∃ w b, (monotonous g 0).interpret () () (List.replicate k '[' ++ ['F']) = (w, .ok [b]) ∧
      leastLength ≤ (b.stop - b.start).norm ∧ b.length < 0 := by
  obtain ⟨w, b, hrun, hlength⟩ := monotonous_draws g 0 k
  obtain ⟨e, he, hway, -⟩ := heading_of_mem hrun List.mem_cons_self
  have hpos : 0 < backReach g k := Vec3.leastLength_pos.trans_le h
  have hback : b.length = -backReach g k := by
    rw [hlength]
    rw [backReach_eq]
    ring
  have hnorm : (b.stop - b.start).norm = backReach g k := by
    rw [hway, Vec3.norm_scale, he, one_mul, hback, abs_neg, abs_of_pos hpos]
  refine ⟨w, b, hrun, h.trans_eq hnorm.symm, ?_⟩
  linarith

/-- **When rotations follow segments.** Whatever the numbers from `[0, 1)`, the axes, the time and the word, the turtle of an
accepted grammar draws every segment that is long enough to have a direction with a length above zero, and with a rotation
that takes `Vec3.up` next to that direction, just when the jitter of lengths is no wider than twice the length, or else so
small a plant that a segment never reaches back by the least length. -/
theorem segments_aligned_iff {d : Draft ℝ} {g : Grammar ℝ} (hd : d.check = .ok g) :
    (∀ {G S : Type} (source : Source ℝ G) (axes : AxisSampler ℝ G S) (time : ℝ) (gen : G) (sampler : S) (s : Word),
      source.InUnit → ∃ w bs, (⟨g, source, axes, time⟩ : Turtle ℝ G S).interpret gen sampler s = (w, .ok bs) ∧
        ∀ b ∈ bs, leastLength ≤ (b.stop - b.start).norm → b.Aligned) ↔
    g.lengthVariation ≤ 2 ∨ g.branchScale ≤ 1 ∧ g.length * (g.lengthVariation / 2 - 1) < leastLength := by
  have hlength : 0 < g.length := (Draft.check_eq_ok_iff.mp hd).2 ▸ Draft.size_pos hd .length
  have hscale : 0 < g.branchScale := (Draft.check_eq_ok_iff.mp hd).2 ▸ Draft.size_pos hd .branchScale
  rw [← backReach_lt_iff hlength hscale]
  constructor
  · intro h k
    by_contra hfar
    obtain ⟨w, b, hb, hlong, hback⟩ := monotonous_turned_back (not_lt.mp hfar)
    have hunit : (monotonous g 0).source.InUnit := fun _ => ⟨le_refl 0, zero_lt_one⟩
    obtain ⟨w', bs, hbs, haligned⟩ := h (monotonous g 0).source (monotonous g 0).axes 0 () ()
      (List.replicate k '[' ++ ['F']) hunit
    obtain ⟨-, hbs⟩ := Prod.mk.inj (hb.symm.trans hbs)
    obtain rfl : [b] = bs := Except.ok.inj hbs
    exact hback.not_gt (haligned b List.mem_cons_self hlong).1
  · intro h G S source axes time gen sampler s hunit
    obtain ⟨w, bs, hrun⟩ := interpret_ok (⟨g, source, axes, time⟩ : Turtle ℝ G S) gen sampler s
    refine ⟨w, bs, hrun, ?_⟩
    intro b hb hlong
    obtain ⟨e, he, hway, hrot⟩ := heading_of_mem hrun hb
    obtain ⟨k, hk⟩ := neg_backReach_le hd hunit hrun hb
    rw [hway, Vec3.norm_scale, he, one_mul] at hlong
    -- a length that is below zero would be nearer to it than the least one
    refine aligned_of_length he hway hrot ?_
    rcases le_abs.mp hlong with hlong | hlong
    · exact hlong
    · linarith [h k]

/-- A plant with a little jitter, with a turn in an open branch. -/
theorem segments_aligned_windy :
    windyDraft.check = .ok windyTurtle.grammar ∧ windyTurtle.source.InUnit ∧
    ∃ w b c, windyTurtle.interpret 0 () "F[+F".toList = (w, .ok [b, c]) ∧
      (leastLength ≤ (c.stop - c.start).norm → c.Aligned) := by
  have hnarrow : windyTurtle.grammar.lengthVariation ≤ 2 := by
    show (0.5 : ℝ) ≤ 2
    norm_num
  obtain ⟨w, bs, h, haligned⟩ := (segments_aligned_iff windyDraft_accepted).mpr (Or.inl hnarrow) windyTurtle.source
    windyTurtle.axes windyTurtle.time 0 () "F[+F".toList windy_draw
  obtain ⟨b, c, rfl⟩ := List.length_eq_two.mp (length_of_run h : bs.length = 2)
  exact ⟨windyDraft_accepted, windy_draw, w, b, c, h, haligned c (by simp)⟩

/-- A grammar whose jitter is eight times as wide as the length. -/
noncomputable def wildDraft : Draft ℝ := { windyDraft with length := 1.0, lengthVariation := 8.0 }

/-- The number a quarter turns the trunk of a wild plant back: it grows down, and its rotation takes `Vec3.up` up. -/
theorem segment_turned_back_wild :
    let t := monotonous wildDraft.grammar (1 / 4)
    wildDraft.check = .ok t.grammar ∧ t.source.InUnit ∧ ∃ w b q e, t.interpret () () "F".toList = (w, .ok [b]) ∧
      b.length = -1 ∧ leastLength ≤ (b.stop - b.start).norm ∧ b.rotation? = .ok q ∧ b.direction? = .ok e ∧
      q.rotate .up = ⟨0, 1, 0⟩ ∧ e = ⟨0, -1, 0⟩ ∧ ¬ (q.rotate .up - e).norm ≤ 2 * leastLength := by
  intro t
  have hd : wildDraft.check = .ok t.grammar := by
    apply Draft.check_of_bounds rfl rfl
    · intro s
      cases s <;> norm_num [Draft.size, wildDraft, windyDraft]
    · intro j
      cases j <;> norm_num [Draft.jitter, wildDraft, windyDraft]
  have hunit : t.source.InUnit := by
    intro _
    show (1 / 4 : ℝ) ∈ Set.Ico 0 1
    norm_num
  obtain ⟨w, b, h, hlength⟩ := monotonous_draws wildDraft.grammar (1 / 4) 0
  have hback : b.length = -1 := by
    rw [hlength]
    show (1.0 : ℝ) * 0.5 ^ 0 * (1 + (1 / 4 - 1 / 2) * 8.0) = -1
    norm_num
  obtain ⟨v, b', hpre, hb', hseg⟩ := segment_of_forward h (i := 0) rfl
  obtain rfl : b = b' := Option.some.inj hb'
  obtain rfl : v = t.start () () := (Prod.mk.inj hpre).1.symm
  have hway : b.stop - b.start = Vec3.up.scale b.length := by
    rw [hseg]
    exact Vec3.add_sub_self Vec3.zero _
  have hnorm : (b.stop - b.start).norm = 1 := by
    rw [hway, Vec3.norm_scale, Vec3.norm_up, hback]
    norm_num
  have hlong : leastLength ≤ |b.length| := by
    rw [hback]
    norm_num [leastLength]
  have hdown : b.direction? = .ok (Vec3.up.scale (-1)) := by
    rw [direction?_of_heading Vec3.norm_up hway hlong, hback]
    norm_num
  have hrot : b.orientation = rotationFromUp .up := by rw [hseg]; rfl
  have hgap : (Vec3.up - Vec3.up.scale (-1) : Vec3 ℝ) = Vec3.up.scale 2 := by
    show Vec3.mk _ _ _ = Vec3.mk _ _ _
    norm_num [Vec3.up, Vec3.scale, Vec3.map]
  have hrotation : b.rotation? = .ok b.orientation := Branch.rotation?_eq (hrot ▸ norm_rotationFromUp _)
  refine ⟨hd, hunit, w, b, b.orientation, .scale .up (-1), h, hback, ?_, hrotation, hdown, ?_, ?_, ?_⟩
  · rw [hnorm]
    norm_num [leastLength]
  · rw [hrot, rotate_up_of_up]
    norm_num [Vec3.up]
  · norm_num [Vec3.up, Vec3.scale, Vec3.map]
  · rw [hrot, rotate_up_of_up, hgap, Vec3.norm_scale, Vec3.norm_up]
    norm_num [leastLength]

end Turtle

end TurtlePlant
