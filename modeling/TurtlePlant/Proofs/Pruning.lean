import Mathlib.Data.List.DropRight
import TurtlePlant.Proofs.Stillness
import TurtlePlant.Proofs.Branching

/-!
# Pruning

On exact numbers a turtle without jitter, whose axes are all the same one (`Turtle.Steady`), draws the same whatever
numbers it is given. Two such turtles that stand alike but for their depths (`Pose.Alike`) go on alike
(`lockstep_alike`, `run_alike`), since every symbol changes both depths by the same amount.

A closed group gives its pose back with the depth lowered once. So what is read after it is drawn as without it, at depths
that are lower by `branchDepth` at most (`draws_alike_without_group`).
-/

namespace TurtlePlant

/-! ## Likeness -/

/-- Poses that agree but for their depths, with a gap between the depths that is one of `gaps`. The colour of the last
segment is left out. -/
structure Pose.Alike (gaps : Set ℝ) (p q : Pose ℝ) : Prop where
  position : p.position = q.position
  direction : p.direction = q.direction
  length : p.length = q.length
  angle : p.angle = q.angle
  radius : p.radius = q.radius
  depth : ∃ gap ∈ gaps, p.depth = q.depth - gap

/-- Segments that agree but for their colours and depths, with a gap between the depths that is one of `gaps`. -/
structure Branch.Alike (gaps : Set ℝ) (a b : Branch ℝ) : Prop where
  start : a.start = b.start
  stop : a.stop = b.stop
  orientation : a.orientation = b.orientation
  length : a.length = b.length
  radiusStart : a.radiusStart = b.radiusStart
  radiusEnd : a.radiusEnd = b.radiusEnd
  depth : ∃ gap ∈ gaps, a.depth = b.depth - gap

/-- Segments without a gap are the same if their colours are those of their depths. -/
theorem Branch.Alike.eq {a b : Branch ℝ} (h : a.Alike {0} b) {time : ℝ} (ha : barkColour a.depth time = .ok a.colour)
    (hb : barkColour b.depth time = .ok b.colour) : a = b := by
  obtain ⟨_, rfl, hd⟩ := h.depth
  rw [sub_zero] at hd
  have hc : a.colour = b.colour := by
    rw [hd, hb] at ha
    exact (Except.ok.inj ha).symm
  cases a
  cases b
  simp only [Branch.mk.injEq]
  exact ⟨h.start, h.stop, h.orientation, h.length, h.radiusStart, h.radiusEnd, hc, hd⟩

variable {G G' S S' : Type}

/-- Walks whose live poses are alike, and whose saved poses are, one by one. -/
structure Walk.Alike (gaps : Set ℝ) (w : Walk ℝ G S) (w' : Walk ℝ G' S') : Prop where
  pose : w.pose.Alike gaps w'.pose
  stack : List.Forall₂ (Pose.Alike gaps) w.stack w'.stack

namespace Turtle

variable {t : Turtle ℝ G S} {t' : Turtle ℝ G' S'} {w u : Walk ℝ G S} {w' u' : Walk ℝ G' S'}
  {axis : Vec3 ℝ} {gaps : Set ℝ}

/-! ## Steady turtles -/

/-- A turtle without jitter that turns about one axis. -/
structure Steady (t : Turtle ℝ G S) (axis : Vec3 ℝ) : Prop where
  lengthVariation : t.grammar.lengthVariation = 0
  angleVariation : t.grammar.angleVariation = 0
  branchJitter : t.grammar.branchJitter = 0
  axes : ∀ s g, (t.axes s g).1 = axis

theorem Steady.still (h : t.Steady axis) : t.grammar.Still := ⟨h.lengthVariation, h.angleVariation, h.branchJitter⟩

/-! ## Turtles side by side -/

/-- The gap between two depths stays when both change by the same. -/
theorem gap_add {d d' : ℝ} (h : ∃ gap ∈ gaps, d = d' - gap) (x : ℝ) : ∃ gap ∈ gaps, d + x = d' + x - gap := by
  obtain ⟨gap, hg, rfl⟩ := h
  exact ⟨gap, hg, by ring⟩

theorem alike_closed {p q : Pose ℝ} (h : p.Alike gaps q) : (closed p).Alike gaps (closed q) :=
  { h with depth := gap_add h.depth (-branchDepth) }

/-- Segments drawn from poses that are alike are alike, whatever numbers are drawn for them. -/
theorem segment_alike (h : t.grammar.Still) {p q : Pose ℝ} (hp : p.Alike gaps q) (x y : ℝ) (colour colour' : Rgb ℝ) :
    (segment t.grammar p x colour).Alike gaps (segment t.grammar q y colour') := by
  unfold segment
  simp only [segmentLength_of_still h]
  exact ⟨hp.position, by rw [hp.position, hp.direction, hp.length], by rw [hp.direction], hp.length, by rw [hp.radius],
    hp.radius, hp.depth⟩

/-- **Steady turtles that stand alike go on alike**, on any numbers. -/
theorem lockstep_alike (ht : t.Steady axis) (ht' : t'.Steady axis) (hg : t.grammar = t'.grammar) :
    Lockstep t t' (fun _ _ _ _ => True) (Pose.Alike gaps) (Branch.Alike gaps) where
  draw _ := trivial
  axis _ := trivial
  forward {_ _ _ _ p q b b'} _ hp hb hb' := by
    have hl : b.Alike gaps b' := by
      rw [(eq_of_segment? hb).2, (eq_of_segment? hb').2, ← hg]
      exact segment_alike ht.still hp _ _ _ _
    exact ⟨hl, { hp with position := hl.stop }⟩
  turn sign _ hp := by
    refine { hp with direction := ?_, depth := gap_add hp.depth turnDepth }
    simp only [turned, ht.axes, ht'.axes, turnAngle_of_still ht.still, turnAngle_of_still ht'.still, hp.direction,
      hp.angle]
  opening _ hp := by
    refine { hp with direction := ?_, length := ?_, radius := ?_, depth := gap_add hp.depth branchDepth }
    · simp only [opened, nudged_of_still ht.still, nudged_of_still ht'.still, hp.direction]
    · simp only [opened, hp.length, hg]
    · simp only [opened, hp.radius, hg]
  closing hp := alike_closed hp

/-- **Steady turtles that stand alike read every word alike.** -/
theorem run_alike (ht : t.Steady axis) (ht' : t'.Steady axis) (hg : t.grammar = t'.grammar) {s : Word}
    {bs bs' : List (Branch ℝ)} (h : w.Alike gaps w') (hr : t.run w s = (u, .ok bs)) (hr' : t'.run w' s = (u', .ok bs')) :
    u.Alike gaps u' ∧ List.Forall₂ (Branch.Alike gaps) bs bs' := by
  have hpaired : w.Paired (fun _ _ _ _ => True) (Pose.Alike gaps) w' := ⟨trivial, h.pose, h.stack⟩
  obtain ⟨hu, hb⟩ := (lockstep_alike ht ht' hg).run hpaired hr hr'
  exact ⟨⟨hu.pose, hu.stack⟩, hb⟩

/-! ## Without a group -/

/-- Steady turtles of one grammar and one time draw the same while they read the same. -/
theorem run_eq (ht : t.Steady axis) (ht' : t'.Steady axis) (hg : t.grammar = t'.grammar) (htime : t.time = t'.time)
    {s : Word} {bs bs' : List (Branch ℝ)} (h : w.Alike {0} w') (hr : t.run w s = (u, .ok bs))
    (hr' : t'.run w' s = (u', .ok bs')) : bs = bs' := by
  have hb := (run_alike ht ht' hg h hr hr').2
  have hc := colour_of_run hr
  have hc' := colour_of_run hr'
  rw [← htime] at hc'
  clear hr hr' h
  induction hb with
  | nil => rfl
  | cons hab _ ih =>
    rw [hab.eq (hc _ List.mem_cons_self) (hc' _ List.mem_cons_self),
      ih (fun b hb => hc b (List.mem_cons_of_mem _ hb)) (fun b hb => hc' b (List.mem_cons_of_mem _ hb))]

/-- Turtles of one grammar start alike. -/
theorem start_alike (hg : t.grammar = t'.grammar) (gen : G) (gen' : G') (sampler : S) (sampler' : S') :
    (t.start gen sampler).Alike {0} (t'.start gen' sampler') := by
  have h : startPose t.grammar = startPose t'.grammar := by rw [hg]
  refine ⟨⟨?_, ?_, ?_, ?_, ?_, 0, rfl, ?_⟩, .nil⟩
  all_goals simp only [start, h, sub_zero]

/-- A walk that was alike without a gap is alike with at most one when it has read a closed group alone. -/
theorem alike_past_group {v : Word} (hv : WellNested v) {bs : List (Branch ℝ)} (h : w.Alike {0} w')
    (hr : t.run w ('[' :: (v ++ [']'])) = (u, .ok bs)) : u.Alike {0, branchDepth} w' := by
  obtain ⟨hpose, hstack⟩ := run_group hv hr
  constructor
  · obtain ⟨_, rfl, hd⟩ := h.pose.depth
    rw [hpose]
    refine { h.pose with depth := ⟨branchDepth, by simp, ?_⟩ }
    show w.pose.depth - branchDepth = _
    rw [hd, sub_zero]
  · rw [hstack]
    refine h.stack.imp fun p q hpq => ?_
    obtain ⟨_, rfl, hd⟩ := hpq.depth
    exact { hpq with depth := ⟨0, by simp, hd⟩ }

/-- The last branches of two lists are those of the second. -/
theorem rtake_append {α : Type} {l l' : List α} {n : Nat} (h : l'.length = n) : (l ++ l').rtake n = l' := by
  have hd : (l ++ l').length - n = l.length := by rw [List.length_append]; omega
  rw [List.rtake, hd, List.drop_left]

/-- **Pruning a closed group moves nothing else.** Two steady turtles of one grammar and one time, with any numbers and
axis samplers, read a text with and without a closed group. Neither fails. What stands before the group is drawn as it
was, and what stands after it is drawn where it was and of the size it had, at its old depth or `branchDepth` below. -/
theorem draws_alike_without_group (ht : t.Steady axis) (ht' : t'.Steady axis) (hg : t.grammar = t'.grammar)
    (htime : t.time = t'.time) (gen : G) (gen' : G') (sampler : S) (sampler' : S') (p q : Word) {v : Word}
    (hv : WellNested v) :
    ∃ w bs w' bs', t.interpret gen sampler (p ++ '[' :: (v ++ ']' :: q)) = (w, .ok bs) ∧
      t'.interpret gen' sampler' (p ++ q) = (w', .ok bs') ∧
      bs.length = (p ++ v ++ q).count 'F' ∧ bs'.length = (p ++ q).count 'F' ∧
      bs.take (p.count 'F') = bs'.take (p.count 'F') ∧
      List.Forall₂ (fun b b' => b.start = b'.start ∧ b.stop = b'.stop ∧ b.orientation = b'.orientation ∧
        b.length = b'.length ∧ b.radiusStart = b'.radiusStart ∧ b.radiusEnd = b'.radiusEnd ∧
        (b.depth = b'.depth ∨ b.depth = b'.depth - branchDepth))
        (bs.rtake (q.count 'F')) (bs'.rtake (q.count 'F')) := by
  -- the text in three parts, and the one without a group in two
  obtain ⟨w₁, bs₁, h₁⟩ := run_ok t (t.start gen sampler) p
  obtain ⟨w₂, bs₂, h₂⟩ := run_ok t w₁ ('[' :: (v ++ [']']))
  obtain ⟨w₃, bs₃, h₃⟩ := run_ok t w₂ q
  obtain ⟨w₁', bs₁', h₁'⟩ := run_ok t' (t'.start gen' sampler') p
  obtain ⟨w₃', bs₃', h₃'⟩ := run_ok t' w₁' q
  -- alike before the group, and alike but for one gap after it
  have hstart : (t.start gen sampler).Alike {0} (t'.start gen' sampler') := start_alike hg gen gen' sampler sampler'
  have hbefore : w₁.Alike {0} w₁' := (run_alike ht ht' hg hstart h₁ h₁').1
  have hsame : bs₁ = bs₁' := run_eq ht ht' hg htime hstart h₁ h₁'
  have hafter : w₂.Alike {0, branchDepth} w₁' := alike_past_group hv hbefore h₂
  have hrest : List.Forall₂ (Branch.Alike {0, branchDepth}) bs₃ bs₃' := (run_alike ht ht' hg hafter h₃ h₃').2
  have hlen₁ : bs₁.length = p.count 'F' := length_of_run h₁
  have hlen₁' : bs₁'.length = p.count 'F' := length_of_run h₁'
  have hlen₂ : bs₂.length = v.count 'F' := by
    rw [length_of_run h₂]
    simp
  have hlen₃ : bs₃.length = q.count 'F' := length_of_run h₃
  have hlen₃' : bs₃'.length = q.count 'F' := length_of_run h₃'
  refine ⟨w₃, bs₁ ++ (bs₂ ++ bs₃), w₃', bs₁' ++ bs₃', ?_, ?_, ?_, ?_, ?_, ?_⟩
  · have hsplit : p ++ '[' :: (v ++ ']' :: q) = p ++ (('[' :: (v ++ [']'])) ++ q) := by simp
    rw [hsplit]
    exact run_append_ok.mpr ⟨w₁, bs₁, _, h₁, run_append_ok.mpr ⟨w₂, bs₂, bs₃, h₂, h₃, rfl⟩, rfl⟩
  · exact run_append_ok.mpr ⟨w₁', bs₁', bs₃', h₁', h₃', rfl⟩
  · simp only [List.length_append, List.count_append, hlen₁, hlen₂, hlen₃]
    omega
  · simp only [List.length_append, List.count_append, hlen₁', hlen₃']
  · rw [← hlen₁, List.take_left, hsame, List.take_left]
  · rw [← List.append_assoc, rtake_append hlen₃, rtake_append hlen₃']
    refine hrest.imp fun b b' hb => ⟨hb.start, hb.stop, hb.orientation, hb.length, hb.radiusStart, hb.radiusEnd, ?_⟩
    obtain ⟨gap, hgap, hd⟩ := hb.depth
    rcases hgap with rfl | rfl
    · left; rw [hd, sub_zero]
    · right; exact hd

/-- A turtle without jitter that takes the numbers of a list and is given one axis over and over. -/
noncomputable def cyclingTurtle : Turtle ℝ (Supply ℝ) Nat where
  grammar := stillGrammar
  source := Supply.source
  axes := .cycling [.across]
  time := 5

/-- The same, on numbers that count up, with a sampler that draws one and throws it away. -/
noncomputable def countingTurtle : Turtle ℝ Nat Unit where
  grammar := stillGrammar
  source := ⟨fun n => (n, n + 1)⟩
  axes := fun _ n => (.across, (), n + 1)
  time := 5

/-- A group taken out between a `[` that is left open and a `]` that closes nothing. -/
theorem draws_alike_without_group_still :
    WellNested "F-[+F]".toList ∧ ∃ w bs w' bs',
      cyclingTurtle.interpret (.listed [1, 2] 0) 0 ("F[+F".toList ++ '[' :: ("F-[+F]".toList ++ ']' :: "]]F-F".toList)) =
        (w, .ok bs) ∧
      countingTurtle.interpret 7 () ("F[+F".toList ++ "]]F-F".toList) = (w', .ok bs') ∧
      bs.length = 6 ∧ bs'.length = 4 ∧ bs.take 2 = bs'.take 2 ∧
      List.Forall₂ (fun b b' => b.start = b'.start ∧ b.stop = b'.stop ∧ b.orientation = b'.orientation ∧
        b.length = b'.length ∧ b.radiusStart = b'.radiusStart ∧ b.radiusEnd = b'.radiusEnd ∧
        (b.depth = b'.depth ∨ b.depth = b'.depth - branchDepth)) (bs.rtake 2) (bs'.rtake 2) := by
  have hv : WellNested "F-[+F]".toList := by decide
  have ht : cyclingTurtle.Steady .across := by
    refine ⟨rfl, rfl, rfl, fun n g => ?_⟩
    simp [cyclingTurtle, AxisSampler.cycling, Nat.mod_one]
  have ht' : countingTurtle.Steady .across := ⟨rfl, rfl, rfl, fun _ _ => rfl⟩
  refine ⟨hv, ?_⟩
  exact draws_alike_without_group ht ht' rfl rfl (.listed [1, 2] 0) 7 0 () "F[+F".toList "]]F-F".toList hv

end Turtle

end TurtlePlant
