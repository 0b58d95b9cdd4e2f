import TurtlePlant.Proofs.Painting
import TurtlePlant.Proofs.Lockstep

/-!
# Plants without jitter

Numbers that are drawn reach a plant in three places: in the length of a step, in the angle of a turn and in the direction
of a branch that opens. On exact numbers, and where all three jitters have width zero (`Grammar.Still`), none of them gets
through (`segmentLength_of_still`, `turnAngle_of_still`, `nudged_of_still`).

So two turtles that differ in where their numbers come from are in lockstep with equal poses and equal branches
(`lockstep_still`), and what they draw is the same (`still_plant_ignores_draws`).
-/

namespace TurtlePlant

/-- A grammar without jitter. -/
structure Grammar.Still (g : Grammar ℝ) : Prop where
  lengthVariation : g.lengthVariation = 0
  angleVariation : g.angleVariation = 0
  branchJitter : g.branchJitter = 0

namespace Turtle

variable {g : Grammar ℝ} {G G' S : Type}

/-! ## Where numbers would come in -/

theorem segmentLength_of_still (h : g.Still) (p : Pose ℝ) (u : ℝ) : segmentLength g p u = p.length := by
  unfold segmentLength
  rw [h.lengthVariation]
  norm_num

theorem turnAngle_of_still (h : g.Still) (p : Pose ℝ) (u : ℝ) : turnAngle g p u = p.angle := by
  unfold turnAngle
  rw [h.angleVariation]
  norm_num

/-- No nudge is given to the direction of a branch that opens. -/
theorem nudged_of_still (h : g.Still) (p : Pose ℝ) (u : Vec3 ℝ) :
    nudged g p u = p.direction.normalizeOr p.direction := by
  have hz : p.direction + (u.map (· - 0.5)).scale 0 = p.direction := by
    show Vec3.mk _ _ _ = _
    simp [Vec3.scale, Vec3.map]
  unfold nudged
  rw [h.branchJitter, hz]

/-- A segment does not depend on the number drawn for it. -/
theorem segment_of_still (h : g.Still) (p : Pose ℝ) (u v : ℝ) (colour : Rgb ℝ) :
    segment g p u colour = segment g p v colour := by
  unfold segment
  simp only [segmentLength_of_still h]

/-! ## Two sources -/

/-- **Without jitter, turtles on different numbers stand and draw the same** as long as their samplers are in one state. -/
theorem lockstep_still (h : g.Still) (source : Source ℝ G) (source' : Source ℝ G') (next : S → Vec3 ℝ × S) (time : ℝ) :
    Lockstep (⟨g, source, .own next, time⟩ : Turtle ℝ G S) (⟨g, source', .own next, time⟩ : Turtle ℝ G' S)
      (fun _ s _ s' => s = s') Eq Eq where
  draw hs := hs
  axis {_ s _ s'} hs := congrArg (fun s => (next s).2) hs
  forward {x _ x' _ p _ b b'} _ hp hb hb' := by
    subst hp
    obtain ⟨hc, hseg⟩ := eq_of_segment? hb
    obtain ⟨hc', hseg'⟩ := eq_of_segment? hb'
    have hcolour : b.colour = b'.colour := Except.ok.inj (hc.symm.trans hc')
    have hbranch : b = b' := by
      rw [hseg, hseg', hcolour]
      exact segment_of_still h p _ _ _
    exact ⟨hbranch, by rw [hbranch]⟩
  turn sign hs hp := by
    subst hs hp
    simp only [turnAngle_of_still h]
    rfl
  opening _ hp := by
    subst hp
    unfold opened
    simp only [nudged_of_still h]
  closing hp := congrArg closed hp

/-- **Without jitter no draw reaches the plant.** Two turtles with one grammar, one sampler that draws nothing itself and one
time read a word on any numbers. Neither fails, both draw the same branches, and after every symbol their poses, their
stacks and the states of their samplers are the same. -/
theorem still_plant_ignores_draws (h : g.Still) (source : Source ℝ G) (source' : Source ℝ G') (next : S → Vec3 ℝ × S)
    (time : ℝ) (gen : G) (gen' : G') (sampler : S) (s : Word) :
    let t : Turtle ℝ G S := ⟨g, source, .own next, time⟩
    let t' : Turtle ℝ G' S := ⟨g, source', .own next, time⟩
    ∃ w w' bs, t.interpret gen sampler s = (w, .ok bs) ∧ t'.interpret gen' sampler s = (w', .ok bs) ∧
      ∀ i, (t.interpret gen sampler (s.take i)).1.pose = (t'.interpret gen' sampler (s.take i)).1.pose ∧
        (t.interpret gen sampler (s.take i)).1.stack = (t'.interpret gen' sampler (s.take i)).1.stack ∧
        (t.interpret gen sampler (s.take i)).1.sampler = (t'.interpret gen' sampler (s.take i)).1.sampler := by
  intro t t'
  obtain ⟨w, bs, hr⟩ := interpret_ok t gen sampler s
  obtain ⟨w', bs', hr'⟩ := interpret_ok t' gen' sampler s
  have hL := lockstep_still h source source' next time
  have hstart : (t.start gen sampler).Paired (fun _ s _ s' => s = s') Eq (t'.start gen' sampler) := ⟨rfl, rfl, .nil⟩
  have hbranches : bs = bs' := List.forall₂_eq_eq_eq ▸ (hL.run hstart hr hr').2
  refine ⟨w, w', bs, hr, hbranches ▸ hr', fun i => ?_⟩
  obtain ⟨hsampler, hpose, hstack⟩ := hL.take hstart hr hr' i
  exact ⟨hpose, List.forall₂_eq_eq_eq ▸ hstack, hsampler⟩

/-- A grammar with all three jitters of width zero. -/
noncomputable def stillGrammar : Grammar ℝ where
  start := ['F']
  rules := .ofKeys []
  angle := 1
  length := 2
  iterations := .int 3
  lengthVariation := 0
  angleVariation := 0
  radius := 1
  branchScale := 2⁻¹
  branchJitter := 0
  taper := 2⁻¹
  description := ""

/-- Axes that lean over further with every call. -/
noncomputable def leaning (n : Nat) : Vec3 ℝ × Nat := (⟨n, 1, 0⟩, n + 1)

/-- Draws from a list and draws that count up, beside a sampler that counts its calls, with a turn in a branch and a `[` that
is left open. -/
theorem still_plant_ignores_draws_leaning :
    let t : Turtle ℝ (Supply ℝ) Nat := ⟨stillGrammar, Supply.source, .own leaning, 2.5⟩
    let t' : Turtle ℝ Nat Nat := ⟨stillGrammar, ⟨fun n => (n, n + 1)⟩, .own leaning, 2.5⟩
    stillGrammar.Still ∧ ∃ w w' bs, t.interpret (.listed [0.25, 0.75] 0) 0 "F[-F]+[F".toList = (w, .ok bs) ∧
      t'.interpret 7 0 "F[-F]+[F".toList = (w', .ok bs) ∧
      (t.interpret (.listed [0.25, 0.75] 0) 0 "F[-".toList).1.pose = (t'.interpret 7 0 "F[-".toList).1.pose := by
  intro t t'
  have hstill : stillGrammar.Still := ⟨rfl, rfl, rfl⟩
  obtain ⟨w, w', bs, h, h', hplaces⟩ := still_plant_ignores_draws hstill t.source t'.source leaning 2.5
    (.listed [0.25, 0.75] 0) 7 0 "F[-F]+[F".toList
  exact ⟨hstill, w, w', bs, h, h', (hplaces 3).1⟩

end Turtle

end TurtlePlant
