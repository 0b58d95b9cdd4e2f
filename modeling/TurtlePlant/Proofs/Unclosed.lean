import Mathlib.Data.List.Induction
import Mathlib.Order.Bounds.Basic
import TurtlePlant.Proofs.Memory
import TurtlePlant.Proofs.Nesting

/-!
# Brackets left open

A `]` closes nothing where no bracket is open, so the brackets that a text leaves open are not just the `[` that it has more
than `]`, which is its balance (`Word.balance`). They are as many as the balance is above the lowest balance on the way to it
(`Word.IsResidue`): a `]` that closes nothing makes a new lowest balance, and no other symbol does (`IsResidue.concat`). So the
height of a text is its residue (`isResidue_height`).

The stack of a turtle is as high as the text that it has read (`length_stack_of_interpret`), and the number of poses left on
it is told at the end of the walk, if there are any (`Walk.closingEvents_eq`, `Plant.told_of_interpret`). All of this together
is `residual_stack_by_text`.
-/

namespace TurtlePlant

namespace Word

/-! ## Balances -/

/-- How many more brackets a text opens than it has closing ones. -/
def balance (s : Word) : ℤ := s.count '[' - s.count ']'

/-- The balances of what a text begins with: of the empty text, of the text itself, and of all in between. -/
def balances (s : Word) : Set ℤ := balance '' {p | p <+: s}

/-- How much the balance of a text is above the lowest balance of what it begins with. -/
def IsResidue (s : Word) (n : ℕ) : Prop := ∃ least, IsLeast s.balances least ∧ (n : ℤ) = s.balance - least

/-- A symbol more counts up or down. -/
theorem balance_concat (s : Word) (c : Char) :
    balance (s ++ [c]) = balance s + if c = '[' then 1 else if c = ']' then -1 else 0 := by
  unfold balance
  rw [List.count_append, List.count_append]
  by_cases ho : c = '['
  · simp [ho]; omega
  · by_cases hc : c = ']'
    · simp [hc]; omega
    · simp [ho, hc]

theorem balances_nil : balances [] = {0} := by
  simp [balances, balance]

/-- A longer text begins with itself, besides. -/
theorem balances_concat (s : Word) (c : Char) : balances (s ++ [c]) = insert (balance (s ++ [c])) (balances s) := by
  have hprefixes : {p | p <+: s ++ [c]} = insert (s ++ [c]) {p | p <+: s} := by
    ext p
    exact List.prefix_concat_iff
  unfold balances
  rw [hprefixes, Set.image_insert_eq]

/-! ## Residues -/

variable {s : Word} {m n : ℕ}

/-- A text has one residue. -/
theorem IsResidue.unique (hm : s.IsResidue m) (hn : s.IsResidue n) : m = n := by
  obtain ⟨a, ha, hm⟩ := hm
  obtain ⟨b, hb, hn⟩ := hn
  have hab := ha.unique hb
  omega

theorem isResidue_nil : IsResidue [] 0 := by
  refine ⟨0, ?_, rfl⟩
  rw [balances_nil]
  exact isLeast_singleton

/-- **One symbol more** opens a bracket, closes one if one is open, or leaves the residue alone. -/
theorem IsResidue.concat (h : s.IsResidue n) (c : Char) : IsResidue (s ++ [c]) (rise n c) := by
  obtain ⟨least, hleast, hn⟩ := h
  refine ⟨min (balance (s ++ [c])) least, ?_, ?_⟩
  · rw [balances_concat]
    exact hleast.insert _
  · -- where nothing is open the balance is the lowest one, and a closing bracket takes both down
    rw [balance_concat]
    unfold rise
    split_ifs <;> omega

/-- **The height of a text is its residue.** -/
theorem isResidue_height (s : Word) : s.IsResidue (height 0 s) := by
  induction s using List.reverseRecOn with
  | nil => exact isResidue_nil
  | append_singleton s c ih =>
    have hheight : height 0 (s ++ [c]) = rise (height 0 s) c := by simp [height]
    rw [hheight]
    exact ih.concat c

end Word

/-! ## What is left on the stack -/

/-- What is told at the end of a walk is how many poses are left on its stack, if any are. -/
theorem Walk.closingEvents_eq {R G S : Type} (w : Walk R G S) :
    w.closingEvents = if 0 < w.stack.length then [.unclosed w.stack.length] else [] := by
  unfold closingEvents
  cases w.stack <;> rfl

/-- What a plant tells when it has drawn a word is what is told at the end of the walk of its turtle. -/
theorem Plant.told_of_interpret {R S : Type} [Scalar R] {p : Plant R S} {r : Request} {gen : Pcg} {word : Word}
    {m m' : Memory R S} {es : List Event} {bs : List (Branch R)} (h : (p.interpret r gen word).run m = ⟨m', es, .ok bs⟩) :
    ∃ w, (p.turtle r).interpret gen m.sampler word = (w, .ok bs) ∧ es = w.closingEvents := by
  rw [run_interpret] at h
  match hw : (p.turtle r).interpret gen m.sampler word with
  | (w, .error fault) => rw [hw] at h; cases h
  | (w, .ok bs') => rw [hw] at h; cases h; exact ⟨w, rfl, rfl⟩

namespace Turtle

variable {R : Type} [Scalar R]

/-- As many poses are on the stack of a turtle as brackets are open in what it has read. -/
theorem length_stack_of_interpret {G S : Type} {t : Turtle R G S} {gen : G} {sampler : S} {s : Word} {w : Walk R G S}
    {bs : List (Branch R)} (h : t.interpret gen sampler s = (w, .ok bs)) : w.stack.length = Word.height 0 s :=
  length_stack_of_run h

/-- **What is left on the stack is a function of the text**: its residue. So many poses are on the stack of every turtle that
reads the text to its end, and on its way there the same holds of each part of the text that it has read. A line about
unmatched brackets is told exactly where the residue is above zero, and gives it: at the end of the walk of the turtle, and so
by every plant that draws the text. -/
theorem residual_stack_by_text (s : Word) :
    ∃ n : ℕ, s.IsResidue n ∧
      (∀ {G S : Type} {t : Turtle R G S} {gen : G} {sampler : S} {w : Walk R G S} {bs : List (Branch R)},
        t.interpret gen sampler s = (w, .ok bs) → w.stack.length = n ∧
          w.closingEvents = (if 0 < n then [.unclosed n] else []) ∧
          ∀ u v, s = u ++ v → ∃ w' cs cs', t.interpret gen sampler u = (w', .ok cs) ∧ t.run w' v = (w, .ok cs') ∧
            u.IsResidue w'.stack.length) ∧
      ∀ {S : Type} {p : Plant R S} {r : Request} {gen : Pcg} {m m' : Memory R S} {es : List Event} {bs : List (Branch R)},
        (p.interpret r gen s).run m = ⟨m', es, .ok bs⟩ → ∀ elapsed, es.map (Event.line elapsed) =
          if 0 < n then ["DEBUG - " ++ toString n ++ " unmatched '[' left on the stack"] else [] := by
  refine ⟨Word.height 0 s, s.isResidue_height, ?_, ?_⟩
  · intro G S t gen sampler w bs h
    rw [w.closingEvents_eq, length_stack_of_interpret h]
    refine ⟨rfl, rfl, ?_⟩
    rintro u v rfl
    obtain ⟨w', cs, cs', hu, hv, -⟩ := run_append_ok.mp h
    refine ⟨w', cs, cs', hu, hv, ?_⟩
    rw [length_stack_of_interpret hu]
    exact u.isResidue_height
  · intro S p r gen m m' es bs h elapsed
    obtain ⟨w, hw, rfl⟩ := Plant.told_of_interpret h
    rw [w.closingEvents_eq, length_stack_of_interpret hw]
    split_ifs <;> rfl

/-- A vine with a `]` that closes nothing and three brackets that open, one of which is closed: two are left open, and after
the first five symbols there were two as well. -/
theorem residual_stack_by_text_vine :
    (∃ w bs w' cs, vine.walk 0.5 3 "]F[[F][F".toList = (w, .ok bs) ∧ w.stack.length = 2 ∧
      w.closingEvents = [.unclosed 2] ∧ vine.walk 0.5 3 "]F[[F".toList = (w', .ok cs) ∧
      Word.IsResidue "]F[[F".toList w'.stack.length) ∧
    ∃ m' es bs, (vine.plant.interpret {} (.ofSeed 3) "]F[[F][F".toList).run { sampler := () } = ⟨m', es, .ok bs⟩ ∧
      es.map (Event.line "0.00") = ["DEBUG - 2 unmatched '[' left on the stack"] := by
  have htwo : Word.IsResidue "]F[[F][F".toList 2 := Word.isResidue_height _
  constructor
  · obtain ⟨n, hn, hturtle, -⟩ := residual_stack_by_text (R := Float) "]F[[F][F".toList
    obtain rfl : n = 2 := hn.unique htwo
    obtain ⟨w, bs, h⟩ := ok_of_isSome (by decide +kernel :
      (vine.walk 0.5 3 "]F[[F][F".toList).2.toOption.isSome = true)
    obtain ⟨hlength, htold, hparts⟩ := hturtle h
    obtain ⟨w', cs, -, hpart, -, hresidue⟩ := hparts "]F[[F".toList "][F".toList rfl
    exact ⟨w, bs, w', cs, h, hlength, htold, hpart, hresidue⟩
  · obtain ⟨n, hn, -, hplant⟩ := residual_stack_by_text (R := Quantity) "]F[[F][F".toList
    obtain rfl : n = 2 := hn.unique htwo
    have hok : ((vine.plant.interpret {} (.ofSeed 3) "]F[[F][F".toList).run { sampler := () }).result.toOption.isSome =
      true := by decide +kernel
    match h : (vine.plant.interpret {} (.ofSeed 3) "]F[[F][F".toList).run { sampler := () } with
    | ⟨m', es, .error fault⟩ => rw [h] at hok; cases hok
    | ⟨m', es, .ok bs⟩ => exact ⟨m', es, bs, rfl, hplant h "0.00"⟩

end Turtle

end TurtlePlant
