import TurtlePlant.Proofs.Drafts
import TurtlePlant.Proofs.Painting
import TurtlePlant.Proofs.Branching

/-!
# Sizes

Length and radius are scaled when a branch opens and come back with a saved pose. So a pose is scaled once for each bracket
that is open in what is left of the text (`reads_sized`), and the size of a segment is that of its pose, but for the jitter
of its length (`size_of_forward`), on numbers of any kind. On exact numbers the jitter of an accepted grammar keeps the
length within half its width of the scaled one (`length_mem`).
-/

namespace TurtlePlant

namespace Turtle

section Scalar

variable {R G S : Type} [Scalar R] {t : Turtle R G S} {w : Walk R G S} {gen : G} {sampler : S}

/-- A number multiplied by the scale of a branch `k` times in succession. -/
def scaled (g : Grammar R) (k : Nat) (x : R) : R := (· * g.branchScale)^[k] x

theorem scaled_succ (g : Grammar R) (k : Nat) (x : R) : scaled g (k + 1) x = scaled g k x * g.branchScale :=
  Function.iterate_succ_apply' _ _ _

/-- The number that is drawn for the `F` at a position of a word. -/
def forwardDraw (t : Turtle R G S) (gen : G) (sampler : S) (s : Word) (i : Nat) : R :=
  (t.source.next (t.interpret gen sampler (s.take i)).1.gen).1

/-- A pose that is scaled once for each open bracket of what is left of a text. -/
structure Sized (g : Grammar R) (ps : List (Piece Unit)) (p : Pose R) : Prop where
  length : p.length = scaled g (ps.count (.symbol '[' ())) g.length
  radius : p.radius = scaled g (ps.count (.symbol '[' ())) g.radius

/-- Pieces other than open brackets leave sizes alone. -/
theorem Sized.cons {g : Grammar R} {ps : List (Piece Unit)} {p q : Pose R} (h : Sized g ps p) {x : Piece Unit}
    (hx : x ≠ .symbol '[' ()) (hl : q.length = p.length) (hr : q.radius = p.radius) : Sized g (x :: ps) q := by
  have hcount : (x :: ps).count (.symbol '[' ()) = ps.count (.symbol '[' ()) := List.count_cons_of_ne hx
  constructor
  · rw [hcount, hl, h.length]
  · rw [hcount, hr, h.radius]

/-- **Every symbol keeps sizes to the open brackets**: a `[` is one more, and a closed group is none. -/
theorem reads_sized (t : Turtle R G S) : t.Reads fun ps p => Sized t.grammar (ps.map Piece.bare) p where
  forward _ h := h.cons (by simp) rfl rfl
  turn hc h := h.cons (by rcases hc with rfl | rfl <;> simp) rfl rfl
  opening h := by
    constructor
    · simp [opened, scaled_succ, h.length]
    · simp [opened, scaled_succ, h.radius]
  closing h := h.cons (by simp) rfl rfl
  unmatched _ h := h.cons (by simp) rfl rfl
  idle hc h := h.cons (by simp [hc.2.2.2.1]) rfl rfl

/-- The pose after a word is scaled once for each bracket that nothing closes. -/
theorem sized_of_interpret {s : Word} {bs : List (Branch R)} (h : t.interpret gen sampler s = (w, .ok bs)) :
    Sized t.grammar (Word.left s) w.pose :=
  ((reads_sized t).left ⟨rfl, rfl⟩ h).1

/-- The size of the branch of an `F`. -/
theorem size_of_forward {s : Word} {bs : List (Branch R)} (h : t.interpret gen sampler s = (w, .ok bs)) {i : Nat}
    (hi : s[i]? = some 'F') :
    ∃ b, bs[(s.take i).count 'F']? = some b ∧
      b.radiusEnd = scaled t.grammar (Word.countLeft (s.take i) '[') t.grammar.radius ∧
      b.radiusStart = b.radiusEnd * t.grammar.taper ∧
      b.length = scaled t.grammar (Word.countLeft (s.take i) '[') t.grammar.length *
        (1.0 + (t.forwardDraw gen sampler s i - 0.5) * t.grammar.lengthVariation) := by
  obtain ⟨v, b, hpre, hb, hseg⟩ := segment_of_forward h hi
  have hsize := sized_of_interpret hpre
  have hdraw : t.forwardDraw gen sampler s i = (t.source.next v.gen).1 := by
    unfold forwardDraw
    rw [hpre]
  refine ⟨b, hb, ?_, ?_, ?_⟩
  · rw [hseg]; exact hsize.radius
  · rw [hseg]; rfl
  · rw [hseg, hdraw]
    unfold Word.countLeft
    rw [← hsize.length]; rfl

end Scalar

/-! ## Exact sizes -/

theorem scaled_eq (g : Grammar ℝ) (k : Nat) (x : ℝ) : scaled g k x = x * g.branchScale ^ k := by
  induction k with
  | zero => simp [scaled]
  | succ k ih =>
    rw [scaled_succ, ih, pow_succ]
    exact mul_assoc x _ _

/-- A number from `[0, 1)` moves the length of a segment by half the jitter width at most. -/
theorem length_mem {d : Draft ℝ} {g : Grammar ℝ} (hd : d.check = .ok g) (k : Nat) {u : ℝ} (hu : u ∈ Set.Ico 0 1) :
    scaled g k g.length * (1.0 + (u - 0.5) * g.lengthVariation) ∈
      Set.Icc (g.length * g.branchScale ^ k * (1 - g.lengthVariation / 2))
        (g.length * g.branchScale ^ k * (1 + g.lengthVariation / 2)) := by
  obtain ⟨-, rfl⟩ := Draft.check_eq_ok_iff.mp hd
  obtain ⟨h0, h1⟩ := hu
  have hlength : 0 < d.length := Draft.size_pos hd .length
  have hscale : 0 < d.branchScale := Draft.size_pos hd .branchScale
  have hjitter : 0 ≤ d.lengthVariation := Draft.jitter_nonneg hd .lengthVariation
  have hpos : 0 ≤ d.length * d.branchScale ^ k := by positivity
  have hlow : 0 ≤ u * d.lengthVariation := mul_nonneg h0 hjitter
  have hhigh : 0 ≤ (1 - u) * d.lengthVariation := mul_nonneg (by linarith) hjitter
  have hfactor : (1.0 : ℝ) + (u - 0.5) * d.lengthVariation = 1 + (u - 1 / 2) * d.lengthVariation := by norm_num
  show scaled d.grammar k d.length * (1.0 + (u - 0.5) * d.lengthVariation) ∈
    Set.Icc (d.length * d.branchScale ^ k * (1 - d.lengthVariation / 2))
      (d.length * d.branchScale ^ k * (1 + d.lengthVariation / 2))
  rw [scaled_eq, hfactor]
  constructor
  · exact mul_le_mul_of_nonneg_left (by linarith) hpos
  · exact mul_le_mul_of_nonneg_left (by linarith) hpos

/-- **Size is governed by nesting alone.** The branch of an `F` has the radius and, but for its jitter, the length of the
grammar, scaled once for each `[` before it that nothing closes. On exact numbers and for an accepted grammar a number
drawn from `[0, 1)` keeps the length within half the jitter width of the scaled one. -/
theorem size_by_nesting :
    (∀ {R G S : Type} [Scalar R] {t : Turtle R G S} {w : Walk R G S} {gen : G} {sampler : S} {s : Word}
        {bs : List (Branch R)}, t.interpret gen sampler s = (w, .ok bs) → ∀ i, s[i]? = some 'F' →
      ∃ b, bs[(s.take i).count 'F']? = some b ∧
        b.radiusEnd = scaled t.grammar (Word.countLeft (s.take i) '[') t.grammar.radius ∧
        b.radiusStart = b.radiusEnd * t.grammar.taper ∧
        b.length = scaled t.grammar (Word.countLeft (s.take i) '[') t.grammar.length *
          (1.0 + (t.forwardDraw gen sampler s i - 0.5) * t.grammar.lengthVariation)) ∧
    ∀ {G S : Type} {t : Turtle ℝ G S} {w : Walk ℝ G S} {gen : G} {sampler : S} {s : Word} {bs : List (Branch ℝ)}
        {d : Draft ℝ}, d.check = .ok t.grammar → t.interpret gen sampler s = (w, .ok bs) → ∀ i, s[i]? = some 'F' →
      t.forwardDraw gen sampler s i ∈ Set.Ico 0 1 → ∃ b, bs[(s.take i).count 'F']? = some b ∧
        b.length ∈ Set.Icc
          (t.grammar.length * t.grammar.branchScale ^ Word.countLeft (s.take i) '[' * (1 - t.grammar.lengthVariation / 2))
          (t.grammar.length * t.grammar.branchScale ^ Word.countLeft (s.take i) '[' *
            (1 + t.grammar.lengthVariation / 2)) := by
  refine ⟨fun h i hi => size_of_forward h hi, ?_⟩
  intro G S t w gen sampler s bs d hd h i hi hu
  obtain ⟨b, hb, -, -, hlength⟩ := size_of_forward h hi
  refine ⟨b, hb, ?_⟩
  rw [hlength]
  exact length_mem hd _ hu

theorem windyDraft_accepted : windyDraft.check = .ok windyTurtle.grammar := by
  apply Draft.check_of_bounds rfl rfl
  · intro s
    cases s <;> norm_num [Draft.size, windyDraft]
  · intro j
    cases j <;> norm_num [Draft.jitter, windyDraft]

theorem windy_draw (n : Nat) : (windyTurtle.source.next n).1 ∈ Set.Ico 0 1 :=
  ⟨Int.fract_nonneg ((n : ℝ) * Real.pi), Int.fract_lt_one ((n : ℝ) * Real.pi)⟩

/-- Behind a `]` and a closed group, in two open branches: on machine numbers of a vine, and on exact ones. -/
theorem size_by_nesting_windy :
    (∃ w bs b, vine.walk 0.5 3 "][F]-[+[F".toList = (w, .ok bs) ∧ bs[1]? = some b ∧
      b.radiusEnd = (vine.turtle 0.5).grammar.radius * (vine.turtle 0.5).grammar.branchScale *
        (vine.turtle 0.5).grammar.branchScale) ∧
    windyDraft.check = .ok windyTurtle.grammar ∧
    ∃ w bs b, windyTurtle.interpret 0 () "][F]-[+[F".toList = (w, .ok bs) ∧ bs[1]? = some b ∧
      b.length ∈ Set.Icc (3 / 8) (5 / 8) := by
  have hk : Word.countLeft ("][F]-[+[F".toList.take 8) '[' = 2 := by decide
  refine ⟨?_, ?_, ?_⟩
  · have hok : (vine.walk 0.5 3 "][F]-[+[F".toList).2.toOption.isSome = true := by decide +kernel
    cases h : vine.walk 0.5 3 "][F]-[+[F".toList with
    | mk w r =>
      cases r with
      | error fault => rw [h] at hok; cases hok
      | ok bs =>
        obtain ⟨b, hb, hradius, -⟩ := size_by_nesting.1 h 8 (by decide)
        rw [hk] at hradius
        exact ⟨w, bs, b, rfl, hb, hradius⟩
  · exact windyDraft_accepted
  · obtain ⟨w, bs, h⟩ := interpret_ok windyTurtle 0 () "][F]-[+[F".toList
    have hdraw : windyTurtle.forwardDraw 0 () "][F]-[+[F".toList 8 ∈ Set.Ico 0 1 := windy_draw _
    obtain ⟨b, hb, hlength⟩ := size_by_nesting.2 windyDraft_accepted h 8 (by decide) hdraw
    refine ⟨w, bs, b, h, hb, ?_⟩
    rw [hk] at hlength
    have hlow : (2.0 : ℝ) * 0.5 ^ 2 * (1 - 0.5 / 2) = 3 / 8 := by norm_num
    have hhigh : (2.0 : ℝ) * 0.5 ^ 2 * (1 + 0.5 / 2) = 5 / 8 := by norm_num
    rw [← hlow, ← hhigh]
    exact hlength

end Turtle

end TurtlePlant
