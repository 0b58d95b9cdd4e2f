import TurtlePlant.Proofs.Painting
import TurtlePlant.Proofs.Branching

/-!
# Depths

A `]` takes a saved depth back, if there is one, and lowers it in any case. So a closed group leaves a fifth less behind in
the place where it stands, whatever is in it, and a `]` that closes nothing does the same. On exact numbers this gives the
depth of a pose from what is left of the text (`reads_depth`, `depth_by_text`).

Depths go by the symbols alone on numbers of any kind: two turtles, with grammars, numbers and axes of their own, stay
equally deep over words that agree but for the signs of their turns (`step_level`, `run_level`).
-/

namespace TurtlePlant

variable {R G G' S S' : Type}

/-- Symbols that are the same, or turns of either sign. -/
def SameButSign (c c' : Char) : Prop := c = c' ∨ (c = '+' ∨ c = '-') ∧ (c' = '+' ∨ c' = '-')

/-- Walks whose live poses are equally deep, and whose saved poses are, one by one. -/
structure Walk.Level (w : Walk R G S) (w' : Walk R G' S') : Prop where
  pose : w.pose.depth = w'.pose.depth
  stack : w.stack.map Pose.depth = w'.stack.map Pose.depth

namespace Turtle

/-! ## Turtles side by side -/

section Level

variable [Scalar R] {t : Turtle R G S} {t' : Turtle R G' S'} {w u : Walk R G S} {w' u' : Walk R G' S'}

/-- **One symbol keeps turtles level**, and they draw equally deep. -/
theorem step_level {c c' : Char} (hc : SameButSign c c') {b b' : Option (Branch R)} (h : w.Level w')
    (hs : t.step w c = (u, .ok b)) (hs' : t'.step w' c' = (u', .ok b')) :
    u.Level u' ∧ b.toList.map Branch.depth = b'.toList.map Branch.depth := by
  obtain ⟨hp, hst⟩ := h
  by_cases hturn : c = '+' ∨ c = '-'
  · have hturn' : c' = '+' ∨ c' = '-' := by
      rcases hc with rfl | hc
      · exact hturn
      · exact hc.2
    obtain ⟨_, _, _, _, rfl, rfl⟩ := step_turn_ok hturn hs
    obtain ⟨_, _, _, _, rfl, rfl⟩ := step_turn_ok hturn' hs'
    exact ⟨⟨congrArg (· + turnDepth) hp, hst⟩, rfl⟩
  · obtain rfl : c = c' := by
      rcases hc with hc | hc
      · exact hc
      · exact absurd hc.1 hturn
    cases c using symbol_cases with
    | forward =>
      obtain ⟨a, ha, rfl, rfl⟩ := step_forward_ok hs
      obtain ⟨a', ha', rfl, rfl⟩ := step_forward_ok hs'
      have hd : a.depth = a'.depth := by
        rw [(eq_of_segment? ha).2, (eq_of_segment? ha').2]
        exact hp
      exact ⟨⟨hp, hst⟩, congrArg (fun x => [x]) hd⟩
    | turn c hc => exact absurd hc hturn
    | opening =>
      obtain ⟨_, _, _, rfl, rfl⟩ := step_open_ok hs
      obtain ⟨_, _, _, rfl, rfl⟩ := step_open_ok hs'
      refine ⟨⟨congrArg (· + branchDepth) hp, ?_⟩, rfl⟩
      rw [List.map_cons, List.map_cons, hp, hst]
    | closing =>
      obtain ⟨rfl, rfl⟩ := step_close_ok hs
      obtain ⟨rfl, rfl⟩ := step_close_ok hs'
      have hback : (w.stack.head?.getD w.pose).depth = (w'.stack.head?.getD w'.pose).depth := by
        rw [← Option.getD_map Pose.depth, ← Option.getD_map Pose.depth, ← List.head?_map, ← List.head?_map, hst, hp]
      refine ⟨⟨congrArg (· - branchDepth) hback, ?_⟩, rfl⟩
      rw [List.map_tail, List.map_tail, hst]
    | idle c hc =>
      rw [step_idle hc] at hs hs'
      cases hs
      cases hs'
      exact ⟨⟨hp, hst⟩, rfl⟩

/-- **Turtles that are level draw equally deep** over words that agree but for the signs of their turns. -/
theorem run_level {s s' : Word} (hss : List.Forall₂ SameButSign s s') {bs bs' : List (Branch R)} (h : w.Level w')
    (hr : t.run w s = (u, .ok bs)) (hr' : t'.run w' s' = (u', .ok bs')) :
    u.Level u' ∧ bs.map Branch.depth = bs'.map Branch.depth := by
  induction hss generalizing w w' bs bs' with
  | nil =>
    cases hr
    cases hr'
    exact ⟨h, rfl⟩
  | cons hc _ ih =>
    obtain ⟨v, b, cs, hs, hrest, rfl⟩ := run_cons_ok.mp hr
    obtain ⟨v', b', cs', hs', hrest', rfl⟩ := run_cons_ok.mp hr'
    obtain ⟨hv, hb⟩ := step_level hc h hs hs'
    obtain ⟨hu, hcs⟩ := ih hv hrest hrest'
    exact ⟨hu, by rw [List.map_append, List.map_append, hb, hcs]⟩

end Level

/-! ## Depths from the text -/

/-- What a piece of what is left of a text adds to the depth. -/
noncomputable def weight : Piece Unit → ℝ
  | .symbol '+' _ | .symbol '-' _ => turnDepth
  | .symbol '[' _ => branchDepth
  | .symbol ']' _ | .group => -branchDepth
  | .symbol _ _ => 0

/-- The depth that goes with what is left of a text: more for each turn and each open bracket, and less for each closed
group and each bracket that closes nothing. -/
def HasDepth (ps : List (Piece Unit)) (p : Pose ℝ) : Prop :=
  p.depth = (ps.count (.symbol '+' ()) + ps.count (.symbol '-' ()) : ℝ) * turnDepth +
    ps.count (.symbol '[' ()) * branchDepth - (ps.count .group + ps.count (.symbol ']' ())) * branchDepth

/-- A piece more changes the depth by its weight. -/
theorem HasDepth.cons {ps : List (Piece Unit)} {p q : Pose ℝ} (h : HasDepth ps p) (x : Piece Unit)
    (hq : q.depth = p.depth + weight x) : HasDepth (x :: ps) q := by
  unfold HasDepth at h ⊢
  rw [hq, h]
  unfold weight
  split
  -- turns, brackets and closed groups are each counted once, and other symbols are not counted at all
  case h_1 => simp; ring
  case h_2 => simp; ring
  case h_3 => simp; ring
  case h_4 => simp; ring
  case h_5 => simp; ring
  case h_6 c _ hp hm ho hc =>
    have hcount : ∀ d, c ≠ d → (Piece.symbol c () :: ps).count (.symbol d ()) = ps.count (.symbol d ()) := by
      intro d hd
      simp [hd]
    rw [hcount '+' hp, hcount '-' hm, hcount '[' ho, hcount ']' hc]
    simp

variable {t : Turtle ℝ G S} {w : Walk ℝ G S} {gen : G} {sampler : S} {s : Word} {bs : List (Branch ℝ)}

/-- **Every symbol keeps depths to what is left of the text.** -/
theorem reads_depth (t : Turtle ℝ G S) : t.Reads fun ps p => HasDepth (ps.map Piece.bare) p where
  forward _ h := h.cons (.symbol 'F' ()) (by simp [weight])
  turn {_ _ c _ _ _} hc h := h.cons (.symbol c ()) (by rcases hc with rfl | rfl <;> rfl)
  opening h := h.cons (.symbol '[' ()) rfl
  closing h := h.cons .group (sub_eq_add_neg _ branchDepth)
  unmatched _ h := h.cons (.symbol ']' ()) (sub_eq_add_neg _ branchDepth)
  idle {_ _ c _} hc h := h.cons (.symbol c ()) (by
    obtain ⟨-, hp, hm, ho, hcl⟩ := hc
    simp [weight, *])

/-- **Depth is a function of the text.** The branch of an `F` is a tenth deep for each turn and a fifth for each `[` that is
left of the word before, less a fifth for each closed group that is taken out of it and each `]` that is left. So another
turtle, with a grammar, numbers and axes of its own, draws equally deep, also where it turns the other way. -/
theorem depth_by_text (h : t.interpret gen sampler s = (w, .ok bs)) :
    (∀ i, s[i]? = some 'F' → ∃ b, bs[(s.take i).count 'F']? = some b ∧
      b.depth = (Word.countLeft (s.take i) '+' + Word.countLeft (s.take i) '-' : ℝ) / 10 +
        Word.countLeft (s.take i) '[' / 5 - (Word.groups (s.take i) + Word.countLeft (s.take i) ']') / 5) ∧
    ∀ {G' S' : Type} {t' : Turtle ℝ G' S'} {w' : Walk ℝ G' S'} {gen' : G'} {sampler' : S'} {s' : Word}
      {bs' : List (Branch ℝ)}, List.Forall₂ SameButSign s s' → t'.interpret gen' sampler' s' = (w', .ok bs') →
      bs.map Branch.depth = bs'.map Branch.depth := by
  constructor
  · intro i hi
    obtain ⟨v, b, hpre, hb, hseg⟩ := segment_of_forward h hi
    have hstart : HasDepth [] (startPose t.grammar) := by norm_num [HasDepth, startPose]
    have hv : HasDepth (Word.left (s.take i)) v.pose := ((reads_depth t).left hstart hpre).1
    have hturn : (turnDepth : ℝ) = 1 / 10 := by norm_num [turnDepth]
    have hbranch : (branchDepth : ℝ) = 1 / 5 := by norm_num [branchDepth]
    unfold HasDepth at hv
    rw [hturn, hbranch, mul_one_div, mul_one_div, mul_one_div] at hv
    refine ⟨b, hb, ?_⟩
    rw [hseg]
    exact hv
  · intro G' S' t' w' gen' sampler' s' bs' hss h'
    have hstart : (t.start gen sampler).Level (t'.start gen' sampler') := ⟨rfl, rfl⟩
    exact (run_level hss hstart h h').2

/-- Behind a `]` that closes nothing, a turn of either sign and a closed group, in an open branch. -/
theorem depth_by_text_windy :
    ∃ w bs b w' bs', windyTurtle.interpret 0 () "]+[-F][F".toList = (w, .ok bs) ∧ bs[1]? = some b ∧ b.depth = (-1 / 10 : ℝ) ∧
      windyTurtle.interpret 7 () "]-[-F][F".toList = (w', .ok bs') ∧ bs.map Branch.depth = bs'.map Branch.depth := by
  obtain ⟨w, bs, h⟩ := interpret_ok windyTurtle 0 () "]+[-F][F".toList
  obtain ⟨w', bs', h'⟩ := interpret_ok windyTurtle 7 () "]-[-F][F".toList
  obtain ⟨htext, hsign⟩ := depth_by_text h
  obtain ⟨b, hb, hdepth⟩ := htext 7 (by decide)
  have hsame : List.Forall₂ SameButSign "]+[-F][F".toList "]-[-F][F".toList := by simp [SameButSign]
  have hturns : Word.countLeft ("]+[-F][F".toList.take 7) '+' = 1 ∧ Word.countLeft ("]+[-F][F".toList.take 7) '-' = 0 := by
    decide
  have hopen : Word.countLeft ("]+[-F][F".toList.take 7) '[' = 1 := by decide
  have hclosed : Word.groups ("]+[-F][F".toList.take 7) = 1 ∧ Word.countLeft ("]+[-F][F".toList.take 7) ']' = 1 := by
    decide
  refine ⟨w, bs, b, w', bs', h, hb, ?_, h', hsign hsame h'⟩
  rw [hdepth, hturns.1, hturns.2, hopen, hclosed.1, hclosed.2]
  norm_num

end Turtle

end TurtlePlant
