import Mathlib.Data.Matrix.Mul
import TurtlePlant.Proofs.Calls
import TurtlePlant.Proofs.Memory

/-!
# How large plants grow

Rewriting all symbols at once is linear in how often each symbol occurs: the tally of a word that is derived is the tally of
the word times the growth matrix of the rules (`tally_derive`), so that of the word after `n` generations is the tally of the
start word times its `n`-th power (`tally_expand`). The alphabet has to be closed under the rules, as that of a grammar is
(`closed_alphabet`). The turtle draws one branch for each `F`, which tells the size of a plant before it is built
(`size_by_growth`).
-/

namespace TurtlePlant

open Matrix

/-- How often each symbol of an alphabet occurs in a word. -/
def Word.tally (A : Finset Char) (w : Word) : A → ℕ := fun c => w.count ↑c

namespace Rules

variable {rs : Rules} {A : Finset Char} {w : Word}

/-! ## Tallies -/

/-- How often each symbol of an alphabet occurs in what each symbol is replaced by. -/
def growth (rs : Rules) (A : Finset Char) : Matrix A A ℕ := fun d c => (rs.production d).count ↑c

/-- Symbols of the alphabet are replaced by symbols of the alphabet. -/
def Closed (rs : Rules) (A : Finset Char) : Prop := ∀ d ∈ A, ∀ c ∈ rs.production d, c ∈ A

theorem Closed.derive (hA : rs.Closed A) (hw : ∀ c ∈ w, c ∈ A) : ∀ c ∈ rs.derive w, c ∈ A := by
  intro c hc
  obtain ⟨d, hd, hc⟩ := List.mem_flatMap.mp hc
  exact hA d (hw d hd) c hc

theorem Closed.expand (hA : rs.Closed A) (hw : ∀ c ∈ w, c ∈ A) (n : ℕ) : ∀ c ∈ rs.expand n w, c ∈ A := by
  induction n generalizing w with
  | zero => exact hw
  | succ n ih => exact ih (hA.derive hw)

/-- **One generation multiplies by the growth matrix.** -/
theorem tally_derive (hw : ∀ c ∈ w, c ∈ A) : (rs.derive w).tally A = w.tally A ᵥ* rs.growth A := by
  funext c
  calc (rs.derive w).count ↑c
      = (w.map fun d => (rs.production d).count ↑c).sum := List.count_flatMap
    _ = ∑ d ∈ w.toFinset, w.count d * (rs.production d).count ↑c := Finset.sum_list_map_count w _
    _ = ∑ d ∈ A, w.count d * (rs.production d).count ↑c := by
      apply Finset.sum_subset
      · intro d hd
        exact hw d (List.mem_toFinset.mp hd)
      · intro d _ hd
        have hnot : d ∉ w := fun h => hd (List.mem_toFinset.mpr h)
        rw [List.count_eq_zero_of_not_mem hnot, zero_mul]
    _ = (w.tally A ᵥ* rs.growth A) c := (Finset.sum_coe_sort A _).symm

/-- **Generations multiply by powers of the growth matrix.** -/
theorem tally_expand (hA : rs.Closed A) (hw : ∀ c ∈ w, c ∈ A) (n : ℕ) :
    (rs.expand n w).tally A = w.tally A ᵥ* rs.growth A ^ n := by
  induction n generalizing w with
  | zero => rw [expand_zero, pow_zero, vecMul_one]
  | succ n ih => rw [expand_succ, ih (hA.derive hw), tally_derive hw, vecMul_vecMul, pow_succ']

/-! ## Alphabets -/

/-- The symbols that have a rule and those of the productions. -/
def symbols (rs : Rules) : List Char := rs.entries.flatMap fun e => e.1 :: e.2

theorem mem_symbols_of_production {c d : Char} (hc : c ∈ rs.production d) : c = d ∨ c ∈ rs.symbols := by
  rcases production_cases rs d with h | h
  · exact Or.inr (List.mem_flatMap.mpr ⟨_, h, List.mem_cons_of_mem _ hc⟩)
  · rw [h] at hc
    exact Or.inl (List.mem_singleton.mp hc)

end Rules

namespace Grammar

variable {R : Type}

/-- The symbols of a grammar: those of its start word, those that have a rule, and those of the productions. -/
def alphabet (g : Grammar R) : Finset Char := (g.start ++ g.rules.symbols).toFinset

theorem mem_alphabet_of_start {g : Grammar R} : ∀ c ∈ g.start, c ∈ g.alphabet := by
  intro c hc
  exact List.mem_toFinset.mpr (List.mem_append_left _ hc)

theorem closed_alphabet (g : Grammar R) : g.rules.Closed g.alphabet := by
  intro d hd c hc
  rcases Rules.mem_symbols_of_production hc with rfl | hc
  · exact hd
  · exact List.mem_toFinset.mpr (List.mem_append_right _ hc)

theorem tally_expandTo (g : Grammar R) (n : ℤ) :
    (g.expandTo n).tally g.alphabet = g.start.tally g.alphabet ᵥ* g.rules.growth g.alphabet ^ n.toNat :=
  Rules.tally_expand g.closed_alphabet mem_alphabet_of_start _

theorem mem_alphabet_of_expandTo {g : Grammar R} {n : ℤ} : ∀ c ∈ g.expandTo n, c ∈ g.alphabet :=
  g.closed_alphabet.expand mem_alphabet_of_start _

end Grammar

/-! ## Plants -/

namespace Plant

variable {R S : Type} [Scalar R] {p : Plant R S}

/-- Branches that the turtle draws are the `F`s of the expansion. -/
theorem Draws.length_eq {bs : List (Branch R)} (h : p.Draws bs) :
    ∃ n, p.grammar.iterations.integer? = .ok n ∧ bs.length = (p.grammar.expandTo n).count 'F' := by
  obtain ⟨r, gen, sampler, word, walk, hword, hdrawn⟩ := h
  unfold Grammar.expand? at hword
  cases hn : p.grammar.iterations.integer? with
  | error fault => rw [hn] at hword; cases hword
  | ok n =>
    rw [hn] at hword
    cases hword
    exact ⟨n, rfl, Turtle.length_of_run hdrawn⟩

/-- **The growth matrix predicts the size of a plant.** In the expansion to any generation, a symbol of the alphabet occurs
as often as the power of the growth matrix says, and no other symbol occurs. Whatever was asked of the plant before, a build
that gives branches gives as many as the grammar's own number of generations makes symbols `F`. -/
theorem size_by_growth (p : Plant R S) :
    (∀ (n : ℕ) (c : p.grammar.alphabet), (p.grammar.expandTo n).count ↑c =
      ∑ d : p.grammar.alphabet, p.grammar.start.count ↑d * (p.grammar.rules.growth p.grammar.alphabet ^ n) d c) ∧
    (∀ (n : ℕ), ∀ c ∉ p.grammar.alphabet, (p.grammar.expandTo n).count c = 0) ∧
    ∀ m m' r es bs, p.Recalls m → (p.build r).run m = ⟨m', es, .ok bs⟩ →
      ∃ n, p.grammar.iterations.integer? = .ok n ∧
        (∀ hF : 'F' ∈ p.grammar.alphabet, bs.length = (p.grammar.start.tally p.grammar.alphabet ᵥ*
          p.grammar.rules.growth p.grammar.alphabet ^ n.toNat) ⟨'F', hF⟩) ∧
        ('F' ∉ p.grammar.alphabet → bs = []) := by
  refine ⟨?_, ?_, ?_⟩
  · intro n c
    exact congrFun (p.grammar.tally_expandTo n) c
  · intro n c hc
    apply List.count_eq_zero_of_not_mem
    intro h
    exact hc (Grammar.mem_alphabet_of_expandTo c h)
  · intro m m' r es bs hm h
    obtain ⟨n, hn, hlength⟩ := (draws_of_build hm h).length_eq
    refine ⟨n, hn, ?_, ?_⟩
    · intro hF
      rw [hlength]
      exact congrFun (p.grammar.tally_expandTo n) ⟨'F', hF⟩
    · intro hF
      have hnone : (p.grammar.expandTo n).count 'F' = 0 :=
        List.count_eq_zero_of_not_mem fun h => hF (Grammar.mem_alphabet_of_expandTo _ h)
      rw [hnone] at hlength
      exact List.eq_nil_of_length_eq_zero hlength

/-- A vine that grows straight for two generations, built when its word is known, has nine branches. -/
theorem size_by_growth_straight :
    let rules := Rules.ofList [('F', "F[F]F".toList)]
    let p : Plant Quantity Unit := { vine.plant with grammar := { vine.plant.grammar with rules, iterations := .int 2 } }
    let m := (p.generate.run { sampler := () }).state
    p.Recalls m ∧ ∃ m' es bs, (p.build (.of 7 (.int 0))).run m = ⟨m', es, .ok bs⟩ ∧ bs.length = 9 := by
  intro rules p m
  have hm : p.Recalls m := .generate (.new ())
  have hok : ((p.build (.of 7 (.int 0))).run m).result.toOption.isSome = true := by decide +kernel
  cases hrun : (p.build (.of 7 (.int 0))).run m with
  | mk m' es drawn =>
    rw [hrun] at hok
    cases drawn with
    | error fault => cases hok
    | ok bs =>
      obtain ⟨n, hn, hlength, -⟩ := (size_by_growth p).2.2 m m' _ es bs hm hrun
      obtain rfl : 2 = n := Except.ok.inj hn
      have hpower : (p.grammar.start.tally p.grammar.alphabet ᵥ*
          p.grammar.rules.growth p.grammar.alphabet ^ 2) ⟨'F', by decide⟩ = 9 := by decide +kernel
      exact ⟨hm, m', es, bs, rfl, (hlength _).trans hpower⟩

end Plant

end TurtlePlant
