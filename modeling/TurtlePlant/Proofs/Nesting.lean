import TurtlePlant.Proofs.Drafts
import TurtlePlant.Fault
import TurtlePlant.Plant
import TurtlePlant.Proofs.Branching

/-!
# Brackets over generations

Words stay well nested when every symbol but the brackets is replaced by a well-nested word and the brackets stay
(`Rules.Nested`, `Rules.Nested.expand`). How many brackets are open in a text is counted by `Word.height`, and so many poses
are on the stack of the turtle, after every symbol (`Turtle.length_stack_of_step`, `Turtle.length_stack_of_run`). So the
turtle never meets a `]` without a saved pose on a plant of such rules, and none is left at the end
(`brackets_stay_matched`). The presets are such plants, for any number of generations (`Preset.nested_of_accept`).
-/

namespace TurtlePlant

/-! ## Rules -/

theorem WellNested.append {v w : Word} (hv : WellNested v) (hw : WellNested w) : WellNested (v ++ w) := by
  induction hv with
  | nil => exact hw
  | symbol ho hc _ ih => exact .symbol ho hc ih
  | group hu _ _ ih =>
    rw [List.cons_append, List.append_assoc, List.cons_append]
    exact .group hu ih

namespace Rules

/-- Rules by which brackets stay, and other symbols are replaced by well-nested words. -/
def Nested (rs : Rules) : Prop := ∀ e ∈ rs.entries, e.1 ≠ '[' ∧ e.1 ≠ ']' ∧ WellNested e.2

instance (rs : Rules) : Decidable rs.Nested := inferInstanceAs (Decidable (∀ e ∈ rs.entries, _))

variable {rs : Rules} {c : Char} {w : Word}

theorem Nested.production_bracket (h : rs.Nested) (hc : c = '[' ∨ c = ']') : rs.production c = [c] := by
  rcases rs.production_cases c with he | he
  · obtain ⟨ho, hcl, -⟩ := h _ he
    rcases hc with rfl | rfl
    · exact absurd rfl ho
    · exact absurd rfl hcl
  · exact he

theorem Nested.production (h : rs.Nested) (ho : c ≠ '[') (hc : c ≠ ']') : WellNested (rs.production c) := by
  rcases rs.production_cases c with he | he
  · exact (h _ he).2.2
  · rw [he]
    exact .symbol ho hc .nil

/-- **One generation keeps a word well nested.** -/
theorem Nested.derive (h : rs.Nested) (hw : WellNested w) : WellNested (rs.derive w) := by
  induction hw with
  | nil => exact .nil
  | symbol ho hc _ ih =>
    rw [derive_cons]
    exact (h.production ho hc).append ih
  | group _ _ ihv ihw =>
    rw [derive_cons, derive_append, derive_cons, h.production_bracket (Or.inl rfl), h.production_bracket (Or.inr rfl)]
    exact .group ihv ihw

/-- **Generations keep a word well nested.** -/
theorem Nested.expand (h : rs.Nested) (hw : WellNested w) (n : Nat) : WellNested (rs.expand n w) := by
  induction n generalizing w with
  | zero => exact hw
  | succ n ih => exact ih (h.derive hw)

end Rules

/-- A grammar whose words are well nested. -/
structure Grammar.Nested {R : Type} (g : Grammar R) : Prop where
  start : WellNested g.start
  rules : g.rules.Nested

theorem Grammar.Nested.expandTo {R : Type} {g : Grammar R} (h : g.Nested) (n : Int) : WellNested (g.expandTo n) :=
  h.rules.expand h.start n.toNat

/-! ## Heights -/

/-- How many brackets are open after a symbol. -/
def Word.rise (n : Nat) (c : Char) : Nat := if c = '[' then n + 1 else if c = ']' then n - 1 else n

/-- How many brackets are open after a word, when `n` were open before it and a `]` too many closes nothing. -/
def Word.height (n : Nat) (s : Word) : Nat := s.foldl Word.rise n

theorem closes_cons {n : Nat} {c : Char} {s : Word} :
    closes n (c :: s) = true ↔ (c = ']' → 0 < n) ∧ closes (Word.rise n c) s = true := by
  by_cases ho : c = '['
  · simp [closes, Word.rise, ho]
  · by_cases hc : c = ']'
    · cases n <;> simp [closes, Word.rise, hc]
    · simp [closes, Word.rise, ho, hc]

/-- No bracket is left open when all are closed. -/
theorem height_of_closes {n : Nat} {s : Word} (h : closes n s = true) : Word.height n s = 0 := by
  induction s generalizing n with
  | nil => exact beq_iff_eq.mp h
  | cons c s ih => exact ih (closes_cons.mp h).2

/-- A bracket is open in front of each one that closes. -/
theorem height_pos_of_closes {n : Nat} {u v : Word} (h : closes n (u ++ ']' :: v) = true) : 0 < Word.height n u := by
  induction u generalizing n with
  | nil => exact (closes_cons.mp h).1 rfl
  | cons c u ih => exact ih (closes_cons.mp h).2

namespace Turtle

variable {R G S : Type} [Scalar R] {t : Turtle R G S} {w w' : Walk R G S}

/-- A symbol saves a pose, takes one back, or leaves the saved ones alone. -/
theorem length_stack_of_step {c : Char} {b : Option (Branch R)} (h : t.step w c = (w', .ok b)) :
    w'.stack.length = Word.rise w.stack.length c := by
  cases c using symbol_cases with
  | forward =>
    obtain ⟨_, _, _, rfl⟩ := step_forward_ok h
    rfl
  | turn c hc =>
    obtain ⟨_, _, _, _, _, rfl⟩ := step_turn_ok hc h
    rcases hc with rfl | rfl <;> rfl
  | opening =>
    obtain ⟨_, _, _, _, rfl⟩ := step_open_ok h
    rfl
  | closing =>
    obtain ⟨_, rfl⟩ := step_close_ok h
    exact List.length_tail
  | idle c hc =>
    rw [step_idle hc] at h
    cases h
    simp [Word.rise, hc.2.2.2.1, hc.2.2.2.2]

/-- **As many poses are saved as brackets are open.** -/
theorem length_stack_of_run {s : Word} {bs : List (Branch R)} (h : t.run w s = (w', .ok bs)) :
    w'.stack.length = Word.height w.stack.length s := by
  induction s generalizing w bs with
  | nil => cases h; rfl
  | cons c s ih =>
    obtain ⟨v, b, cs, hs, hr, rfl⟩ := run_cons_ok.mp h
    rw [ih hr, length_stack_of_step hs]; rfl

end Turtle

/-! ## Presets -/

namespace Preset

theorem mem_presets_iff {p : Preset} : p ∈ presets ↔
    p = spatialTree ∨ p = fern ∨ p = treeBinary ∨ p = treeTernary ∨ p = shrub ∨ p = vine := by
  simp [presets]

theorem find?_name {p : Preset} (hp : p ∈ presets) : find? p.name = some p := by
  rcases mem_presets_iff.mp hp with rfl | rfl | rfl | rfl | rfl | rfl <;> rfl

/-- Nothing is wrong with a preset. -/
theorem faults_draft {p : Preset} (hp : p ∈ presets) : p.draft.faults = [] := by
  apply List.isEmpty_iff.mp
  rcases mem_presets_iff.mp hp with rfl | rfl | rfl | rfl | rfl | rfl <;> decide +kernel

theorem nested_draft {p : Preset} (hp : p ∈ presets) : p.draft.grammar.Nested := by
  have hstart : WellNested p.draft.grammar.start := by
    rcases mem_presets_iff.mp hp with rfl | rfl | rfl | rfl | rfl | rfl <;> decide +kernel
  have hrules : p.draft.grammar.rules.Nested := by
    rcases mem_presets_iff.mp hp with rfl | rfl | rfl | rfl | rfl | rfl <;> decide +kernel
  exact ⟨hstart, hrules⟩

theorem accept_name {p : Preset} (hp : p ∈ presets) (s : Settings Number) :
    accept p.name s = (s.over p.draft).check.mapError Fault.draft := by
  unfold accept
  rw [find?_name hp]; rfl

/-- Presets are accepted for any number of generations. -/
theorem accept_iterations {p : Preset} (hp : p ∈ presets) (n : Nat) :
    accept p.name { iterations := some (.int n) } = .ok { p.draft.grammar with iterations := .int n } := by
  have hn : Signed.negative (Number.int n) = false := decide_eq_false (by omega)
  have hcheck := Draft.check_eq_ok_iff.mpr ⟨Draft.faults_of_iterations (faults_draft hp) hn, rfl⟩
  rw [accept_name hp]
  exact congrArg (Except.mapError Fault.draft) hcheck

/-- **Presets are well nested**, whatever number of generations is asked for. -/
theorem nested_of_accept {p : Preset} (hp : p ∈ presets) {iterations : Option Number} {g : Grammar Number}
    (h : accept p.name { iterations } = .ok g) : g.Nested := by
  rw [accept_name hp] at h
  obtain ⟨-, rfl⟩ := Draft.check_eq_ok_iff.mp (eq_ok_of_mapError h)
  exact ⟨(nested_draft hp).start, (nested_draft hp).rules⟩

end Preset

/-! ## Runs -/

namespace Turtle

variable {R G S : Type} [Scalar R]

/-- **Brackets stay matched** over any number of generations, if the start word and the productions are well nested and no
bracket has a production, as in all presets. Then every turtle that reads a generation to its end meets no `]` without a
saved pose, has none saved at the end, and nothing is told of open brackets. -/
theorem brackets_stay_matched :
    (∀ p ∈ presets, (∀ n : Nat, ∃ g, Preset.accept p.name { iterations := some (.int n) } = .ok g) ∧
      ∀ iterations g, Preset.accept p.name { iterations } = .ok g → g.Nested) ∧
    ∀ {N : Type} {g : Grammar N}, g.Nested → ∀ n : Nat, WellNested (g.expandTo n) ∧
      ∀ {t : Turtle R G S} {gen : G} {sampler : S} {w : Walk R G S} {bs : List (Branch R)},
        t.interpret gen sampler (g.expandTo n) = (w, .ok bs) →
        (∀ u v, g.expandTo n = u ++ ']' :: v →
          ∃ w' bs', t.interpret gen sampler u = (w', .ok bs') ∧ w'.stack ≠ []) ∧
        w.stack = [] ∧ w.closingEvents = [] := by
  constructor
  · intro p hp
    exact ⟨fun n => ⟨_, Preset.accept_iterations hp n⟩, fun _ _ h => Preset.nested_of_accept hp h⟩
  · intro N g hg n
    have hn : WellNested (g.expandTo n) := hg.expandTo n
    have hcloses : closes 0 (g.expandTo n) = true := (wellNested_iff _).mp hn
    refine ⟨hn, ?_⟩
    intro t gen sampler w bs h
    have hend : w.stack = [] := List.eq_nil_of_length_eq_zero ((length_stack_of_run h).trans (height_of_closes hcloses))
    refine ⟨?_, hend, ?_⟩
    · intro u v huv
      rw [huv] at h hcloses
      obtain ⟨w', bs', _, hu, _⟩ := run_append_ok.mp h
      refine ⟨w', bs', hu, ?_⟩
      intro hnil
      have hlength := length_stack_of_run hu
      have hpos := height_pos_of_closes hcloses
      rw [hnil] at hlength
      exact absurd hlength hpos.ne
    · unfold Walk.closingEvents
      rw [hend]; rfl

/-- A fern of one generation, as it is accepted, with its brackets in each other. -/
theorem brackets_stay_matched_fern :
    ∃ g w bs, Preset.accept "fern" { iterations := some (.int 1) } = .ok g ∧ g.Nested ∧
      g.expandTo 1 = "F+[[X]-X]-F[-FX]+X".toList ∧
      (fern.turtle 2.5).interpret (.ofSeed 3) () (g.expandTo 1) = (w, .ok bs) ∧ w.stack = [] := by
  obtain ⟨hpresets, hrun⟩ := brackets_stay_matched (R := Float) (G := Pcg) (S := Unit)
  have hp : fern ∈ presets := Preset.mem_presets_iff.mpr (Or.inr (Or.inl rfl))
  have hg := Preset.accept_iterations hp 1
  have hnested := (hpresets fern hp).2 _ _ hg
  have hword : Grammar.expandTo { fern.draft.grammar with iterations := .int 1 } 1 = "F+[[X]-X]-F[-FX]+X".toList := by
    decide +kernel
  obtain ⟨w, bs, h⟩ := ok_of_isSome (by decide +kernel :
    ((fern.turtle 2.5).interpret (.ofSeed 3) () "F+[[X]-X]-F[-FX]+X".toList).2.toOption.isSome = true)
  rw [← hword] at h
  exact ⟨_, w, bs, hg, hnested, hword, h, ((hrun hnested 1).2 h).2.1⟩

end Turtle

end TurtlePlant
