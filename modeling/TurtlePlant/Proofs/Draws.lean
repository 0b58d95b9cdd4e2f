import Mathlib.Data.List.Intervals
import TurtlePlant.Proofs.Painting
import TurtlePlant.Proofs.Branching

/-!
# Draws

What a symbol takes from the source and from the sampler does not depend on the pose, on the stack or on the numbers drawn
(`Turtle.consume`, `states_of_step`), so what a word takes depends on the word alone (`states_of_run`).

For draws that are numbered from a `Tape` and axes that are random or found without drawing (`Steering`), a symbol takes the
next few draws, how many of them depending on the symbol (`Steering.draws`, `tape_of_step`). So the draws of a symbol make a
window that the text before it fixes, the step cannot see beyond the window (`step_congr`), and what is drawn for a text is
drawn for its parts one after the other (`draws_in_windows`).
-/

namespace TurtlePlant

variable {R G S : Type}

/-! ## What is taken from the source and the sampler -/

namespace Turtle

variable [Scalar R] {t : Turtle R G S} {w w' : Walk R G S}

/-- The states of the source and of the sampler when a symbol has been read. -/
def consume (t : Turtle R G S) (x : G × S) (c : Char) : G × S :=
  if c = 'F' then ((t.source.next x.1).2, x.2)
  else if c = '+' ∨ c = '-' then
    let (_, sampler, gen) := t.axes x.2 (t.source.next x.1).2
    (gen, sampler)
  else if c = '[' then ((t.source.draw3 x.1).2, x.2)
  else x

/-- **A symbol takes the same from every pose and stack.** -/
theorem states_of_step {c : Char} {b : Option (Branch R)} (h : t.step w c = (w', .ok b)) :
    (w'.gen, w'.sampler) = t.consume (w.gen, w.sampler) c := by
  cases c using symbol_cases with
  | forward =>
    obtain ⟨_, _, _, rfl⟩ := step_forward_ok h
    rfl
  | turn c hc =>
    obtain ⟨_, _, _, hax, _, rfl⟩ := step_turn_ok hc h
    have hF : c ≠ 'F' := by rcases hc with rfl | rfl <;> decide
    simp only [consume, hF, hc, if_true, if_false, hax]
  | opening =>
    obtain ⟨_, _, hdraw, _, rfl⟩ := step_open_ok h
    show _ = ((t.source.draw3 w.gen).2, w.sampler)
    rw [hdraw]
  | closing =>
    obtain ⟨_, rfl⟩ := step_close_ok h
    rfl
  | idle c hc =>
    rw [step_idle hc] at h
    cases h
    simp [consume, hc.1, hc.2.1, hc.2.2.1, hc.2.2.2.1]

/-- **A word takes the same from every pose and stack.** -/
theorem states_of_run {s : Word} {bs : List (Branch R)} (h : t.run w s = (w', .ok bs)) :
    (w'.gen, w'.sampler) = s.foldl t.consume (w.gen, w.sampler) := by
  induction s generalizing w bs with
  | nil => cases h; rfl
  | cons c s ih =>
    obtain ⟨v, b, cs, hs, hr, rfl⟩ := run_cons_ok.mp h
    rw [ih hr, states_of_step hs, List.foldl_cons]

/-- A word that succeeds is read up to any of its symbols, and then that symbol. -/
theorem step_at {s : Word} {bs : List (Branch R)} (h : t.run w s = (w', .ok bs)) {i : Nat} {c : Char}
    (hi : s[i]? = some c) : ∃ v cs v' b, t.run w (s.take i) = (v, .ok cs) ∧ t.step v c = (v', .ok b) := by
  rw [eq_take_append hi] at h
  obtain ⟨v, cs, _, hpre, hrest, -⟩ := run_append_ok.mp h
  obtain ⟨v', b, _, hstep, -, -⟩ := run_cons_ok.mp hrest
  exact ⟨v, cs, v', b, hpre, hstep⟩

end Turtle

/-! ## Tapes -/

/-- A numbered stream of draws that is read in order: the number of the next draw, and the numbers of those read so far. -/
structure Tape where
  next : Nat := 0
  read : List Nat := []
  deriving DecidableEq

namespace Tape

/-- A stream of draws as a source. -/
def source (draws : Nat → R) : Source R Tape where
  next tape := (draws tape.next, ⟨tape.next + 1, tape.read ++ [tape.next]⟩)

/-- A tape when some more draws have been read. -/
def after (tape : Tape) (k : Nat) : Tape := ⟨tape.next + k, tape.read ++ List.Ico tape.next (tape.next + k)⟩

@[simp] theorem after_zero (tape : Tape) : tape.after 0 = tape := by simp [after]

theorem after_after (tape : Tape) (j k : Nat) : (tape.after j).after k = tape.after (j + k) := by
  simp only [after, List.append_assoc, Nat.add_assoc]
  rw [List.Ico.append_consecutive (by omega) (by omega)]

theorem snd_next (draws : Nat → R) (tape : Tape) : ((source draws).next tape).2 = tape.after 1 := by
  simp [source, after]

theorem snd_draw3 (draws : Nat → R) (tape : Tape) : ((source draws).draw3 tape).2 = tape.after 3 := by
  have h : ((source draws).draw3 tape).2 = ((tape.after 1).after 1).after 1 := by
    simp only [← snd_next draws]
    rfl
  rw [h, after_after, after_after]

/-- A draw depends on the stream at its own number only. -/
theorem next_congr {draws draws' : Nat → R} {tape : Tape} (h : draws' tape.next = draws tape.next) :
    (source draws').next tape = (source draws).next tape := by
  simp only [source, h]

/-- Three draws depend on the stream at three numbers only. -/
theorem draw3_congr {draws draws' : Nat → R} {tape : Tape} (h : ∀ k < 3, draws' (tape.next + k) = draws (tape.next + k)) :
    (source draws').draw3 tape = (source draws).draw3 tape := by
  have h0 : draws' tape.next = draws tape.next := h 0 (by decide)
  have h1 : draws' (tape.next + 1) = draws (tape.next + 1) := h 1 (by decide)
  have h2 : draws' (tape.next + 1 + 1) = draws (tape.next + 1 + 1) := h 2 (by decide)
  simp only [Source.draw3, source, h0, h1, h2]

end Tape

/-! ## Steering -/

/-- A sampler that counts its calls. -/
def AxisSampler.counted (axes : AxisSampler R G S) : AxisSampler R G (S × Nat) := fun x g =>
  let (axis, s, g) := axes x.1 g
  (axis, (s, x.2 + 1), g)

/-- Where the axes of turns come from: they are random, or a sampler finds them without drawing. -/
inductive Steering (R S : Type) where
  | random
  | own (next : S → Vec3 R × S)

namespace Steering

/-- How many draws a turn takes. -/
def turnDraws : Steering R S → Nat
  | random => 4
  | own _ => 1

/-- How many draws a symbol takes. -/
def draws (st : Steering R S) (c : Char) : Nat :=
  if c = 'F' then 1 else if c = '+' ∨ c = '-' then st.turnDraws else if c = '[' then 3 else 0

/-- How many draws a word takes. -/
def drawsOf (st : Steering R S) (s : Word) : Nat := (s.map st.draws).sum

@[simp] theorem drawsOf_nil (st : Steering R S) : st.drawsOf [] = 0 := rfl

@[simp] theorem drawsOf_cons (st : Steering R S) (c : Char) (s : Word) :
    st.drawsOf (c :: s) = st.draws c + st.drawsOf s := by
  simp [drawsOf]

@[simp] theorem drawsOf_append (st : Steering R S) (s s' : Word) :
    st.drawsOf (s ++ s') = st.drawsOf s + st.drawsOf s' := by
  simp [drawsOf]

/-- The window of a symbol ends where that of the next symbol begins. -/
theorem drawsOf_take_succ (st : Steering R S) {s : Word} {i : Nat} {c : Char} (hi : s[i]? = some c) :
    st.drawsOf (s.take (i + 1)) = st.drawsOf (s.take i) + st.draws c := by
  rw [List.take_add_one, hi, drawsOf_append]
  simp

theorem draws_turn (st : Steering R S) {c : Char} (hc : c = '+' ∨ c = '-') : st.draws c = st.turnDraws := by
  rcases hc with rfl | rfl <;> rfl

theorem draws_idle (st : Steering R S) {c : Char} (hc : Idle c) : st.draws c = 0 := by
  simp [draws, hc.1, hc.2.1, hc.2.2.1, hc.2.2.2.1]

variable [Scalar R]

/-- The sampler of the axes. -/
def axes (src : Source R G) : Steering R S → AxisSampler R G S
  | random => .random src
  | own next => .own next

/-- A turtle that is steered so, on a stream of draws. The calls of its sampler are counted. -/
def turtle (st : Steering R S) (g : Grammar R) (time : R) (draws : Nat → R) : Turtle R Tape (S × Nat) where
  grammar := g
  source := Tape.source draws
  axes := (st.axes (Tape.source draws)).counted
  time := time

variable {st : Steering R S} {g : Grammar R} {time : R} {draws draws' : Nat → R}

/-- A turn takes its draws, and its sampler is called once. -/
theorem consume_turn (x : Tape × S × Nat) {c : Char} (hc : c = '+' ∨ c = '-') :
    ∃ sampler, (st.turtle g time draws).consume x c = (x.1.after st.turnDraws, sampler, x.2.2 + 1) := by
  have hF : c ≠ 'F' := by rcases hc with rfl | rfl <;> decide
  simp only [Turtle.consume, hF, hc, if_true, if_false, turtle, Tape.snd_next, AxisSampler.counted]
  cases st with
  | random =>
    refine ⟨x.2.1, ?_⟩
    show (((Tape.source draws).draw3 (x.1.after 1)).2, _) = _
    rw [Tape.snd_draw3, Tape.after_after]
    rfl
  | own next => exact ⟨(next x.2.1).2, rfl⟩

/-- **A symbol takes the next few draws**, and the sampler is called for turns only. -/
theorem consume_tape (x : Tape × S × Nat) (c : Char) :
    ((st.turtle g time draws).consume x c).1 = x.1.after (st.draws c) ∧
    ((st.turtle g time draws).consume x c).2.2 = x.2.2 + if c = '+' ∨ c = '-' then 1 else 0 := by
  cases c using symbol_cases with
  | forward => exact ⟨Tape.snd_next draws x.1, rfl⟩
  | turn c hc =>
    obtain ⟨sampler, h⟩ : ∃ sampler, (st.turtle g time draws).consume x c = (x.1.after st.turnDraws, sampler, x.2.2 + 1) :=
      consume_turn x hc
    rw [h, st.draws_turn hc, if_pos hc]
    exact ⟨rfl, rfl⟩
  | opening => exact ⟨Tape.snd_draw3 draws x.1, rfl⟩
  | closing => exact ⟨(Tape.after_zero x.1).symm, rfl⟩
  | idle c hc =>
    rw [st.draws_idle hc, Tape.after_zero]
    simp [Turtle.consume, hc.1, hc.2.1, hc.2.2.1, hc.2.2.2.1]

/-- **A word takes the next draws in order.** -/
theorem fst_foldl_consume (x : Tape × S × Nat) (s : Word) :
    (s.foldl (st.turtle g time draws).consume x).1 = x.1.after (st.drawsOf s) := by
  induction s generalizing x with
  | nil => simp
  | cons c s ih => rw [List.foldl_cons, ih, (consume_tape x c).1, Tape.after_after, drawsOf_cons]

/-- What a step reads of the tape, and how often it calls the sampler. -/
theorem tape_of_step {w w' : Walk R Tape (S × Nat)} {c : Char} {b : Option (Branch R)}
    (h : (st.turtle g time draws).step w c = (w', .ok b)) :
    w'.gen = w.gen.after (st.draws c) ∧ w'.sampler.2 = w.sampler.2 + if c = '+' ∨ c = '-' then 1 else 0 := by
  show (w'.gen, w'.sampler).1 = _ ∧ (w'.gen, w'.sampler).2.2 = _
  rw [Turtle.states_of_step h]
  exact consume_tape (w.gen, w.sampler) c

/-- What a run reads of the tape. -/
theorem tape_of_run {w w' : Walk R Tape (S × Nat)} {s : Word} {bs : List (Branch R)}
    (h : (st.turtle g time draws).run w s = (w', .ok bs)) : w'.gen = w.gen.after (st.drawsOf s) :=
  (congrArg Prod.fst (Turtle.states_of_run h)).trans (fst_foldl_consume _ s)

/-- **A step sees no more of the stream than the draws it takes.** -/
theorem step_congr {w : Walk R Tape (S × Nat)} {c : Char}
    (h : ∀ n, w.gen.next ≤ n → n < w.gen.next + st.draws c → draws' n = draws n) :
    (st.turtle g time draws').step w c = (st.turtle g time draws).step w c := by
  have hseg : ∀ p u, (st.turtle g time draws').segment? p u = (st.turtle g time draws).segment? p u := fun _ _ => rfl
  cases c using symbol_cases with
  | forward =>
    have hnext : (Tape.source draws').next w.gen = (Tape.source draws).next w.gen :=
      Tape.next_congr (h _ (by omega) (by simp [Steering.draws]))
    simp only [Turtle.step, Turtle.forward, hseg]
    simp only [turtle, hnext]
  | turn c hc =>
    rw [draws_turn st hc] at h
    have hnext : (Tape.source draws').next w.gen = (Tape.source draws).next w.gen :=
      Tape.next_congr (h _ (by omega) (by cases st <;> simp [turnDraws]))
    have haxes : (st.axes (Tape.source draws')) w.sampler.1 ((Tape.source draws).next w.gen).2 =
        (st.axes (Tape.source draws)) w.sampler.1 ((Tape.source draws).next w.gen).2 := by
      cases st with
      | random =>
        -- the three numbers of the axis come after the one of the angle
        have hdraw : (Tape.source draws').draw3 (w.gen.after 1) = (Tape.source draws).draw3 (w.gen.after 1) := by
          refine Tape.draw3_congr fun k hk => h _ ?_ ?_ <;> simp only [Tape.after, turnDraws] <;> omega
        rw [Tape.snd_next]
        simp only [axes, AxisSampler.random, randomUnitAxis, hdraw]
      | own next => rfl
    rw [Turtle.step_turn hc, Turtle.step_turn hc]
    simp only [Turtle.turn, turtle, hnext, AxisSampler.counted, haxes]
  | opening =>
    have hdraw : (Tape.source draws').draw3 w.gen = (Tape.source draws).draw3 w.gen := by
      refine Tape.draw3_congr fun k hk => h _ (by omega) ?_
      show _ < _ + 3
      omega
    simp only [Turtle.step, Turtle.openBranch]
    simp only [turtle, hdraw]
  | closing => rfl
  | idle c hc => rw [Turtle.step_idle hc, Turtle.step_idle hc]

/-- **The draws of a symbol make a window that the text fixes.** A turtle whose axes are random, or found without drawing,
reads a word on a stream of draws and does not fail. What it reads for the symbol at a place, in order, are the draws
numbered from the sum of the costs of the text before the symbol to that sum with the symbol's own cost, and no others: on a
stream that agrees there it takes the same step. Its sampler is called once if the symbol is a turn, and otherwise not.

When it goes on to a second text from the states of its source and its sampler, these are at the end what they are when
both texts are read as one. -/
theorem draws_in_windows {tape : Tape} {sampler : S × Nat} {s : Word} {w : Walk R Tape (S × Nat)} {bs : List (Branch R)}
    (h : (st.turtle g time draws).interpret tape sampler s = (w, .ok bs)) :
    (∀ i c, s[i]? = some c →
      let window := List.Ico (tape.next + st.drawsOf (s.take i)) (tape.next + st.drawsOf (s.take (i + 1)))
      ∃ v cs v' b, (st.turtle g time draws).interpret tape sampler (s.take i) = (v, .ok cs) ∧
        (st.turtle g time draws).step v c = (v', .ok b) ∧ v'.gen.read = v.gen.read ++ window ∧
        v'.sampler.2 = v.sampler.2 + (if c = '+' ∨ c = '-' then 1 else 0) ∧
        ∀ draws' : Nat → R, (∀ n ∈ window, draws' n = draws n) → (st.turtle g time draws').step v c = (v', .ok b)) ∧
    ∀ s' w' bs', (st.turtle g time draws).interpret w.gen w.sampler s' = (w', .ok bs') →
      w'.gen = tape.after (st.drawsOf (s ++ s')) ∧
      ∀ w'' bs'', (st.turtle g time draws).interpret tape sampler (s ++ s') = (w'', .ok bs'') →
        w'.gen = w''.gen ∧ w'.sampler = w''.sampler := by
  constructor
  · intro i c hi window
    obtain ⟨v, cs, v', b, hpre, hstep⟩ := Turtle.step_at h hi
    have hgen : v.gen = tape.after (st.drawsOf (s.take i)) := tape_of_run hpre
    have hnext : v.gen.next = tape.next + st.drawsOf (s.take i) := by rw [hgen, Tape.after]
    have hwindow : window = List.Ico v.gen.next (v.gen.next + st.draws c) := by
      rw [hnext, Nat.add_assoc, ← st.drawsOf_take_succ hi]
    obtain ⟨htape, hcalls⟩ := tape_of_step hstep
    refine ⟨v, cs, v', b, hpre, hstep, ?_, hcalls, fun draws' hdraws => ?_⟩
    · rw [hwindow]
      exact congrArg Tape.read htape
    · rw [← hstep]
      refine step_congr fun n hle hlt => hdraws n ?_
      rw [hwindow, List.Ico.mem]
      exact ⟨hle, hlt⟩
  · intro s' w' bs' h'
    -- both calls together go through the costs of one text
    have hboth : (w'.gen, w'.sampler) = (s ++ s').foldl (st.turtle g time draws).consume (tape, sampler) := by
      rw [List.foldl_append, Turtle.states_of_run h']
      exact congrArg (s'.foldl _) (Turtle.states_of_run h)
    refine ⟨(congrArg Prod.fst hboth).trans (fst_foldl_consume _ (s ++ s')), fun w'' bs'' h'' => ?_⟩
    have hone : (w''.gen, w''.sampler) = (s ++ s').foldl (st.turtle g time draws).consume (tape, sampler) :=
      Turtle.states_of_run h''
    exact Prod.mk.inj (hboth.trans hone.symm)

/-- A branch that opens behind a `]` that closes nothing and a turn about a random axis: its draws are numbered from five
to seven. A second text goes on from number eight. -/
theorem draws_in_windows_windy :
    let t : Turtle ℝ Tape (Unit × Nat) := random.turtle Turtle.windyDraft.grammar (-1.0) fun n => Int.fract (n * Real.pi)
    ∃ v cs v' b w bs w' bs', t.interpret {} ((), 0) "]F-".toList = (v, .ok cs) ∧ t.step v '[' = (v', .ok b) ∧
      v'.gen.read = v.gen.read ++ [5, 6, 7] ∧ v'.sampler.2 = v.sampler.2 ∧
      t.interpret {} ((), 0) "]F-[".toList = (w, .ok bs) ∧ t.interpret w.gen w.sampler "F+".toList = (w', .ok bs') ∧
      w'.gen = Tape.after {} 13 := by
  intro t
  obtain ⟨w, bs, h⟩ := Turtle.interpret_ok t {} ((), 0) "]F-[".toList
  obtain ⟨w', bs', h'⟩ := Turtle.interpret_ok t w.gen w.sampler "F+".toList
  obtain ⟨hwindows, hcalls⟩ := draws_in_windows h
  obtain ⟨v, cs, v', b, hpre, hstep, hread, hsampler, -⟩ := hwindows 3 '[' rfl
  exact ⟨v, cs, v', b, w, bs, w', bs', hpre, hstep, hread, hsampler, h, h', (hcalls _ _ _ h').1⟩

end Steering

end TurtlePlant
