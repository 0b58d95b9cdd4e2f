import TurtlePlant.Proofs.Drafts
import TurtlePlant.Proofs.Sizes
import TurtlePlant.Proofs.Lockstep

/-!
# Magnified plants

A grammar with another length and another radius draws the same plant, longer and thicker (`Turtle.magnify`). No symbol
compares a length or a radius with anything: what is compared with the least length is the length of a direction, of an axis
or of a nudge. So on exact numbers a turtle and the magnified one are in lockstep (`lockstep_magnify`), with poses, saved
poses and branches magnified (`length_and_radius_scale`).
-/

namespace TurtlePlant

/-! ## What is magnified -/

/-- A draft with its length multiplied by `c` and its radius by `r`. -/
noncomputable def Draft.magnify (c r : ℝ) (d : Draft ℝ) : Draft ℝ := { d with length := d.length * c, radius := d.radius * r }

/-- A grammar with its length multiplied by `c` and its radius by `r`. -/
noncomputable def Grammar.magnify (c r : ℝ) (g : Grammar ℝ) : Grammar ℝ :=
  { g with length := g.length * c, radius := g.radius * r }

/-- A pose in a plant that is `c` times as long and `r` times as thick. -/
noncomputable def Pose.magnify (c r : ℝ) (p : Pose ℝ) : Pose ℝ :=
  { p with position := p.position.scale c, length := p.length * c, radius := p.radius * r }

/-- A branch of a plant that is `c` times as long and `r` times as thick. -/
noncomputable def Branch.magnify (c r : ℝ) (b : Branch ℝ) : Branch ℝ :=
  { b with
    start := b.start.scale c
    stop := b.stop.scale c
    length := b.length * c
    radiusStart := b.radiusStart * r
    radiusEnd := b.radiusEnd * r }

/-- A walk whose live pose and saved ones are in a plant that is `c` times as long and `r` times as thick. -/
noncomputable def Walk.magnify {G S : Type} (c r : ℝ) (w : Walk ℝ G S) : Walk ℝ G S :=
  { w with pose := w.pose.magnify c r, stack := w.stack.map (Pose.magnify c r) }

/-- The draft is accepted as the magnified grammar. -/
theorem Draft.check_magnify {d : Draft ℝ} {g : Grammar ℝ} (h : d.check = .ok g) {c r : ℝ} (hc : 0 < c) (hr : 0 < r) :
    (d.magnify c r).check = .ok (g.magnify c r) := by
  have hsize := size_pos h
  have hjitter := jitter_nonneg h
  obtain ⟨hfaults, rfl⟩ := check_eq_ok_iff.mp h
  obtain ⟨hkeys, hiterations, -, -⟩ := d.faults_eq_nil_iff.mp hfaults
  refine (d.magnify c r).check_of_bounds hkeys hiterations ?_ ?_
  · intro s
    cases s with
    | length => exact mul_pos (hsize .length) hc
    | radius => exact mul_pos (hsize .radius) hr
    | branchScale => exact hsize .branchScale
    | taper => exact hsize .taper
  · intro j
    cases j with
    | lengthVariation => exact hjitter .lengthVariation
    | angleVariation => exact hjitter .angleVariation
    | branchJitter => exact hjitter .branchJitter

theorem Vec3.scale_add_scale (v d : Vec3 ℝ) (k c : ℝ) : v.scale c + d.scale (k * c) = (v + d.scale k).scale c := by
  have h : ∀ a b : ℝ, a * c + b * (k * c) = (a + b * k) * c := fun a b => by ring
  show Vec3.mk (v.x * c + d.x * (k * c)) (v.y * c + d.y * (k * c)) (v.z * c + d.z * (k * c)) = _
  rw [h, h, h]; rfl

namespace Turtle

variable {G S : Type}

/-- A turtle that draws a plant `c` times as long and `r` times as thick. -/
noncomputable def magnify (c r : ℝ) (t : Turtle ℝ G S) : Turtle ℝ G S := { t with grammar := t.grammar.magnify c r }

/-! ## In lockstep -/

theorem segment_magnify (g : Grammar ℝ) (c r : ℝ) (p : Pose ℝ) (u : ℝ) (colour : Rgb ℝ) :
    segment (g.magnify c r) (p.magnify c r) u colour = (segment g p u colour).magnify c r := by
  have hlength : segmentLength (g.magnify c r) (p.magnify c r) u = segmentLength g p u * c :=
    mul_right_comm p.length c _
  have hstop := Vec3.scale_add_scale p.position p.direction (segmentLength g p u) c
  have hradius : p.radius * r * g.taper = p.radius * g.taper * r := mul_right_comm _ _ _
  unfold segment Branch.magnify
  rw [hlength, Branch.mk.injEq]
  exact ⟨rfl, hstop, rfl, rfl, hradius, rfl, rfl, rfl⟩

theorem opened_magnify (g : Grammar ℝ) (c r : ℝ) (p : Pose ℝ) (u : Vec3 ℝ) :
    opened (g.magnify c r) (p.magnify c r) u = (opened g p u).magnify c r := by
  have hlength : p.length * c * g.branchScale = p.length * g.branchScale * c := mul_right_comm _ _ _
  have hradius : p.radius * r * g.branchScale = p.radius * g.branchScale * r := mul_right_comm _ _ _
  unfold opened Pose.magnify
  rw [Pose.mk.injEq]
  exact ⟨rfl, rfl, hlength, rfl, rfl, hradius, rfl⟩

/-- **A turtle and the magnified one stand and draw the same but for their sizes.** -/
theorem lockstep_magnify (t : Turtle ℝ G S) (c r : ℝ) :
    Lockstep t (t.magnify c r) (fun g s g' s' => g = g' ∧ s = s') (fun p p' => p.magnify c r = p')
      (fun b b' => b.magnify c r = b') where
  draw h := by
    obtain ⟨rfl, rfl⟩ := h
    exact ⟨rfl, rfl⟩
  axis h := by
    obtain ⟨rfl, rfl⟩ := h
    exact ⟨rfl, rfl⟩
  forward {_ _ _ _ p _ b b'} h hp hb hb' := by
    obtain ⟨rfl, rfl⟩ := h
    subst hp
    obtain ⟨hc, hseg⟩ := eq_of_segment? hb
    obtain ⟨hc', hseg'⟩ := eq_of_segment? hb'
    have hcolour : b.colour = b'.colour := Except.ok.inj (hc.symm.trans hc')
    have hbranch : b.magnify c r = b' := by
      rw [hseg', hseg, ← hcolour]
      exact (segment_magnify t.grammar c r p _ _).symm
    subst hbranch
    exact ⟨rfl, rfl⟩
  turn sign h hp := by
    obtain ⟨rfl, rfl⟩ := h
    subst hp
    rfl
  opening h hp := by
    obtain ⟨rfl, rfl⟩ := h
    subst hp
    exact (opened_magnify _ c r _ _).symm
  closing hp := by
    subst hp
    rfl

theorem paired_start (t : Turtle ℝ G S) (c r : ℝ) (gen : G) (sampler : S) :
    (t.start gen sampler).Paired (fun g s g' s' => g = g' ∧ s = s') (fun p p' => p.magnify c r = p')
      ((t.magnify c r).start gen sampler) := by
  have horigin : (Vec3.zero : Vec3 ℝ).scale c = .zero := by
    show Vec3.mk (0.0 * c) (0.0 * c) (0.0 * c) = Vec3.mk 0.0 0.0 0.0
    rw [Exact.zero_eq, zero_mul]
  have hpose : (startPose t.grammar).magnify c r = startPose (t.grammar.magnify c r) := by
    unfold startPose Pose.magnify
    rw [horigin]; rfl
  exact ⟨⟨rfl, rfl⟩, hpose, .nil⟩

theorem eq_magnify_of_paired {c r : ℝ} {w w' : Walk ℝ G S}
    (h : w.Paired (fun g s g' s' => g = g' ∧ s = s') (fun p p' => p.magnify c r = p') w') : w' = w.magnify c r := by
  obtain ⟨⟨hgen, hsampler⟩, hpose, hstack⟩ := h
  rw [← List.forall₂_map_left_iff (R := Eq), List.forall₂_eq_eq_eq] at hstack
  obtain ⟨pose, stack, gen, sampler⟩ := w'
  subst hgen hsampler hpose hstack
  rfl

/-- **Length and radius are pure scale factors.** With the length of an accepted grammar multiplied by `c` and its radius by
`r` the grammar is accepted too. From the same states of its source and its sampler the turtle then draws the same branches
with their ends and lengths multiplied by `c` and their radii by `r`, and after every symbol its pose and the saved ones are
those of the other turtle, multiplied likewise. -/
theorem length_and_radius_scale {d : Draft ℝ} {t : Turtle ℝ G S} (hd : d.check = .ok t.grammar) {c r : ℝ} (hc : 0 < c)
    (hr : 0 < r) (gen : G) (sampler : S) (s : Word) :
    (d.magnify c r).check = .ok (t.magnify c r).grammar ∧
    ∃ w w' bs, t.interpret gen sampler s = (w, .ok bs) ∧
      (t.magnify c r).interpret gen sampler s = (w', .ok (bs.map (Branch.magnify c r))) ∧
      ∀ i, ((t.magnify c r).interpret gen sampler (s.take i)).1 = (t.interpret gen sampler (s.take i)).1.magnify c r := by
  refine ⟨Draft.check_magnify hd hc hr, ?_⟩
  obtain ⟨w, bs, h⟩ := interpret_ok t gen sampler s
  obtain ⟨w', bs', h'⟩ := interpret_ok (t.magnify c r) gen sampler s
  have hL := lockstep_magnify t c r
  have hstart := paired_start t c r gen sampler
  have hbranches : bs.map (Branch.magnify c r) = bs' := by
    rw [← List.forall₂_eq_eq_eq, List.forall₂_map_left_iff]
    exact (hL.run hstart h h').2
  exact ⟨w, w', bs, h, hbranches ▸ h', fun i => eq_magnify_of_paired (hL.take hstart h h' i)⟩

/-- A turn in an open branch, on a plant three times as long and half as thick. -/
theorem length_and_radius_scale_windy :
    windyDraft.check = .ok windyTurtle.grammar ∧
    ∃ w w' bs, windyTurtle.interpret 0 () "F[-F]]F".toList = (w, .ok bs) ∧
      (windyTurtle.magnify 3 2⁻¹).interpret 0 () "F[-F]]F".toList = (w', .ok (bs.map (Branch.magnify 3 2⁻¹))) ∧
      w'.pose.position = w.pose.position.scale 3 := by
  obtain ⟨-, w, w', bs, h, h', hplaces⟩ :=
    length_and_radius_scale windyDraft_accepted (c := 3) (r := 2⁻¹) (by norm_num) (by norm_num) 0 () "F[-F]]F".toList
  have hend := hplaces "F[-F]]F".toList.length
  rw [List.take_length, h, h'] at hend
  exact ⟨windyDraft_accepted, w, w', bs, h, h', congrArg (fun v => v.pose.position) hend⟩

end Turtle

end TurtlePlant
