import TurtlePlant.Proofs.BarkColour
import TurtlePlant.Proofs.Steps

/-!
# Exact runs

On exact numbers the only symbol that could fail is `F`, for want of a colour, and every depth has one. So every symbol
can be read (`step_ok`), and with it every word (`run_ok`), with any brackets, numbers and axes. All branches that are
drawn have colours with parts in `[0, 1]` (`paints_real_colours`).
-/

namespace TurtlePlant

namespace Turtle

variable {G S : Type}

/-- Every symbol can be read on exact numbers. -/
theorem step_ok (t : Turtle ℝ G S) (w : Walk ℝ G S) (c : Char) : ∃ w' b, t.step w c = (w', .ok b) := by
  cases c using symbol_cases with
  | forward =>
    obtain ⟨colour, hc, -⟩ := Exact.barkColour_ok w.pose.depth t.time
    have hs : t.segment? w.pose (t.source.next w.gen).1 =
        .ok (segment t.grammar w.pose (t.source.next w.gen).1 colour) := by
      unfold segment?
      rw [hc]; rfl
    refine ⟨(t.step w 'F').1, some (segment t.grammar w.pose (t.source.next w.gen).1 colour), ?_⟩
    simp only [step, forward, hs]; rfl
  | turn c hc => rw [step_turn hc]; exact ⟨_, _, rfl⟩
  | opening => exact ⟨_, _, rfl⟩
  | closing => exact ⟨_, _, rfl⟩
  | idle c hc => exact ⟨w, none, step_idle hc t w⟩

/-- Every word can be read on exact numbers. -/
theorem run_ok (t : Turtle ℝ G S) (w : Walk ℝ G S) (s : Word) : ∃ w' bs, t.run w s = (w', .ok bs) := by
  induction s generalizing w with
  | nil => exact ⟨w, [], rfl⟩
  | cons c s ih =>
    obtain ⟨v, b, hs⟩ := step_ok t w c
    obtain ⟨w', bs, hr⟩ := ih v
    exact ⟨w', b.toList ++ bs, run_cons_ok.mpr ⟨v, b, bs, hs, hr, rfl⟩⟩

theorem interpret_ok (t : Turtle ℝ G S) (gen : G) (sampler : S) (s : Word) :
    ∃ w bs, t.interpret gen sampler s = (w, .ok bs) :=
  run_ok t (t.start gen sampler) s

/-- The branches of a run have colours with parts in `[0, 1]`. -/
theorem inUnit_of_run {t : Turtle ℝ G S} {w w' : Walk ℝ G S} {s : Word} {bs : List (Branch ℝ)}
    (h : t.run w s = (w', .ok bs)) : ∀ b ∈ bs, b.colour.InUnit := by
  intro b hb
  have hc : barkColour b.depth t.time = .ok b.colour := colour_of_run h b hb
  obtain ⟨c, hc', hu⟩ := Exact.barkColour_ok b.depth t.time
  rw [hc] at hc'
  cases hc'
  exact hu

/-- **Every word is drawn, and in real colours.** Whatever its brackets, and whatever numbers and axes the turtle is given,
no symbol of a word fails, and the parts of the colour of every branch are in `[0, 1]`. The colour of a depth, negative
ones included, is found wherever the lightness swings to. -/
theorem paints_real_colours (t : Turtle ℝ G S) (gen : G) (sampler : S) (s : Word) :
    (∀ depth swing : ℝ, ∃ c : Rgb ℝ,
      (barkGradient depth).offsetLightness (swing * lightnessAmplitude) = .ok c ∧ c.InUnit) ∧
    ∃ w bs, t.interpret gen sampler s = (w, .ok bs) ∧ ∀ b ∈ bs, b.colour.InUnit := by
  refine ⟨fun depth swing => Exact.offsetLightness_ok (Exact.inUnit_barkGradient depth) _, ?_⟩
  obtain ⟨w, bs, h⟩ := interpret_ok t gen sampler s
  exact ⟨w, bs, h, inUnit_of_run h⟩

/-- A grammar with every jitter. -/
noncomputable def windyDraft : Draft ℝ where
  start := ['F']
  rules := []
  angle := 1.0
  length := 2.0
  iterations := .int 3
  lengthVariation := 0.5
  angleVariation := 1.0
  radius := 1.0
  branchScale := 0.5
  branchJitter := 1.0
  taper := 0.5
  description := ""

/-- A turtle with every jitter, on numbers that never come back, whose axes are all too short to have a direction. -/
noncomputable def windyTurtle : Turtle ℝ Nat Unit where
  grammar := windyDraft.grammar
  source := ⟨fun n => (Int.fract (n * Real.pi), n + 1)⟩
  axes := fun _ n => (.zero, (), n)
  time := -1.0

/-- Two brackets that close nothing leave a segment at a depth below zero. -/
theorem paints_real_colours_windy :
    ∃ w bs b, windyTurtle.interpret 0 () "]]F[-F".toList = (w, .ok bs) ∧ bs[0]? = some b ∧ b.colour.InUnit := by
  obtain ⟨-, w, bs, h, hcolour⟩ := paints_real_colours windyTurtle 0 () "]]F[-F".toList
  have hlen : bs.length = 2 := length_of_run h
  have hb : bs[0]? = some bs[0] := List.getElem?_eq_getElem (by omega)
  exact ⟨w, bs, bs[0], h, hb, hcolour _ (List.mem_of_getElem? hb)⟩

end Turtle

end TurtlePlant
