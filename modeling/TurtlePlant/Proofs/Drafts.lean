import TurtlePlant.Proofs.Exact
import TurtlePlant.Grammar

/-!
# Accepted drafts

Nothing is wrong with a draft when all its tests pass (`faults_eq_nil_iff`), and then it is accepted, also with another
number of generations (`faults_of_iterations`). On exact numbers the sizes of an accepted draft are above zero (`size_pos`)
and its jitter widths are not below (`jitter_nonneg`).
-/

namespace TurtlePlant

namespace Draft

/-- **Nothing is wrong with a draft** of symbols as keys that passes every test. -/
theorem faults_eq_nil_iff {N : Type} [Signed N] (d : Draft N) :
    d.faults = [] ↔ d.badKeys = [] ∧ Signed.negative d.iterations = false ∧
      (∀ s, Signed.nonPositive (d.size s) = false) ∧ ∀ j, Signed.negative (d.jitter j) = false := by
  have hsizes : (sizes.filter fun s => Signed.nonPositive (d.size s)) = [] ↔
      ∀ s, Signed.nonPositive (d.size s) = false := by
    have hall : ∀ s, s ∈ sizes := fun s => by cases s <;> decide
    simp [List.filter_eq_nil_iff, hall]
  have hjitters : (jitters.filter fun j => Signed.negative (d.jitter j)) = [] ↔
      ∀ j, Signed.negative (d.jitter j) = false := by
    have hall : ∀ j, j ∈ jitters := fun j => by cases j <;> decide
    simp [List.filter_eq_nil_iff, hall]
  simp only [faults, List.append_eq_nil_iff, List.map_eq_nil_iff, hsizes, hjitters, and_assoc, ite_eq_right_iff,
    List.cons_ne_nil, imp_false, Bool.not_eq_true]

/-- Nothing else is looked for when another number of generations is asked for. -/
theorem faults_of_iterations {N : Type} [Signed N] {d : Draft N} (h : d.faults = []) {n : Number}
    (hn : Signed.negative n = false) : ({ d with iterations := n } : Draft N).faults = [] := by
  obtain ⟨hkeys, -, hsizes, hjitters⟩ := d.faults_eq_nil_iff.mp h
  refine (faults_eq_nil_iff _).mpr ⟨hkeys, hn, ?_, ?_⟩
  · intro s
    cases s with
    | length => exact hsizes .length
    | radius => exact hsizes .radius
    | branchScale => exact hsizes .branchScale
    | taper => exact hsizes .taper
  · intro j
    cases j with
    | lengthVariation => exact hjitters .lengthVariation
    | angleVariation => exact hjitters .angleVariation
    | branchJitter => exact hjitters .branchJitter

theorem nonPositive_eq_false_iff (x : ℝ) : Signed.nonPositive x = false ↔ 0 < x := by
  show decide (x ≤ 0.0) = false ↔ 0 < x
  rw [decide_eq_false_iff_not, Exact.zero_eq, not_le]

theorem negative_eq_false_iff (x : ℝ) : Signed.negative x = false ↔ 0 ≤ x := by
  show decide (x < 0.0) = false ↔ 0 ≤ x
  rw [decide_eq_false_iff_not, Exact.zero_eq, not_lt]

variable {d : Draft ℝ} {g : Grammar ℝ}

theorem check_of_bounds (hkeys : d.badKeys = []) (hn : Signed.negative d.iterations = false) (hs : ∀ s, 0 < d.size s)
    (hj : ∀ j, 0 ≤ d.jitter j) : d.check = .ok d.grammar :=
  check_eq_ok_iff.mpr ⟨d.faults_eq_nil_iff.mpr ⟨hkeys, hn, fun s => (nonPositive_eq_false_iff _).mpr (hs s),
    fun j => (negative_eq_false_iff _).mpr (hj j)⟩, rfl⟩

theorem size_pos (h : d.check = .ok g) (s : Size) : 0 < d.size s := by
  obtain ⟨-, -, hs, -⟩ := d.faults_eq_nil_iff.mp (check_eq_ok_iff.mp h).1
  exact (nonPositive_eq_false_iff _).mp (hs s)

theorem jitter_nonneg (h : d.check = .ok g) (j : Jitter) : 0 ≤ d.jitter j := by
  obtain ⟨-, -, -, hj⟩ := d.faults_eq_nil_iff.mp (check_eq_ok_iff.mp h).1
  exact (negative_eq_false_iff _).mp (hj j)

end Draft

end TurtlePlant
