import TurtlePlant.Proofs.Drafts
import TurtlePlant.Proofs.Memory

/-!
# Generations in two parts

The word of a generation can be taken as the start word of the generations after it (`Rules.expand_add`). A grammar that
goes on from there is `Grammar.resumed`, and it is accepted like the one it comes from (`Draft.check_resumed`).

The turtle draws by the settings of a grammar and not by its words, which it is handed (`Turtle.run_of_words`). So a plant
with the resumed grammar does what the plant with all generations does: tasks of the two are alike (`Task.Alike`) in what
they give and in what they remember, and differ in what they tell alone (`generate_resumed`, `build_resumed`). All of this
together is `generations_split`.
-/

namespace TurtlePlant

/-! ## Tasks that are alike -/

namespace Task

variable {σ α β : Type} {t t' : Task σ α} {f f' : α → Task σ β}

/-- Tasks that leave the same state and the same result behind, from every state, whatever they tell. -/
def Alike (t t' : Task σ α) : Prop := ∀ s, (t.run s).state = (t'.run s).state ∧ (t.run s).result = (t'.run s).result

theorem Alike.refl (t : Task σ α) : t.Alike t := fun _ => ⟨rfl, rfl⟩

/-- Tasks of two steps are alike when both steps are. -/
theorem Alike.bind (h : t.Alike t') (hf : ∀ a, (f a).Alike (f' a)) : (t >>= f).Alike (t' >>= f') := by
  intro s
  obtain ⟨hstate, hresult⟩ := h s
  rw [run_bind, run_bind, hstate, hresult]
  cases (t'.run s).result with
  | error fault => exact ⟨rfl, rfl⟩
  | ok a => exact hf a _

end Task

/-! ## Resumed grammars -/

/-- The grammar that goes on from the word of a generation, for some more generations. -/
def Grammar.resumed {R : Type} (g : Grammar R) (m n : ℕ) : Grammar R :=
  { g with start := g.rules.expand m g.start, iterations := .int n }

/-- The draft that goes on from the word of a generation, for some more generations. -/
def Draft.resumed {N : Type} (d : Draft N) (m n : ℕ) : Draft N :=
  { d with start := (Rules.ofKeys d.rules).expand m d.start, iterations := .int n }

/-- An accepted draft is accepted wherever it is resumed. -/
theorem Draft.check_resumed {N : Type} [Signed N] {d : Draft N} {g : Grammar N} (h : d.check = .ok g) (m n : ℕ) :
    (d.resumed m n).check = .ok (g.resumed m n) := by
  obtain ⟨hfaults, rfl⟩ := check_eq_ok_iff.mp h
  have hn : Signed.negative (Number.int n) = false := decide_eq_false (by omega)
  -- the start word is not looked at
  have hstart : ({ d with start := (Rules.ofKeys d.rules).expand m d.start } : Draft N).faults = [] := hfaults
  exact check_eq_ok_iff.mpr ⟨faults_of_iterations hstart hn, rfl⟩

/-- **The generations that are left lead to the word of all of them.** -/
theorem Grammar.expandTo_resumed {R : Type} (g : Grammar R) (m n : ℕ) :
    (g.resumed m n).expandTo n = g.expandTo (m + n : ℕ) := (g.rules.expand_add m n g.start).symm

/-! ## Turtles and plants -/

namespace Turtle

variable {R G S : Type} [Scalar R] (t : Turtle R G S) (start : Word) (rules : Rules) (iterations : Number)

/-- A step is not made by the words of a grammar. -/
theorem step_of_words (w : Walk R G S) (c : Char) :
    ({ t with grammar := { t.grammar with start, rules, iterations } } : Turtle R G S).step w c = t.step w c := by
  cases c using symbol_cases with
  | forward => rfl
  | turn c hc => rw [step_turn hc, step_turn hc]; rfl
  | opening => rfl
  | closing => rfl
  | idle c hc => rw [step_idle hc, step_idle hc]

/-- **Nor is a run.** -/
theorem run_of_words (w : Walk R G S) (s : Word) :
    ({ t with grammar := { t.grammar with start, rules, iterations } } : Turtle R G S).run w s = t.run w s :=
  run_congr (t.step_of_words start rules iterations) w s

end Turtle

namespace Plant

variable {R S : Type} {p : Plant R S} {m n : ℕ}

/-- The plant whose grammar goes on from the word of a generation, for some more generations. -/
def resumed (p : Plant R S) (m n : ℕ) : Plant R S := { p with grammar := p.grammar.resumed m n }

/-- The word is the same, and expanded under the same circumstances. -/
theorem generate_resumed (hn : p.grammar.iterations = .int (m + n)) : (p.resumed m n).generate.Alike p.generate := by
  intro memory
  cases hword : memory.word with
  | some w =>
    rw [generate_remembered hword, generate_remembered hword]
    exact ⟨rfl, rfl⟩
  | none =>
    have hall : p.grammar.iterations.integer? = .ok (m + n : ℕ) := by rw [hn]; rfl
    have hrest : (p.resumed m n).grammar.iterations.integer? = .ok (n : ℕ) := rfl
    have hexpansion : (p.resumed m n).grammar.expandTo n = p.grammar.expandTo (m + n : ℕ) :=
      p.grammar.expandTo_resumed m n
    rw [generate_expanded hword hall, generate_expanded hword hrest, hexpansion]
    exact ⟨rfl, rfl⟩

variable [Scalar R]

/-- The same branches are drawn of a word. -/
theorem interpret_resumed (p : Plant R S) (m n : ℕ) (r : Request) (gen : Pcg) (word : Word) :
    (p.resumed m n).interpret r gen word = p.interpret r gen word := by
  have hrun : ∀ sampler, ((p.resumed m n).turtle r).interpret gen sampler word = (p.turtle r).interpret gen sampler word :=
    fun sampler => (p.turtle r).run_of_words _ _ _ _ word
  unfold interpret
  simp only [hrun]

/-- **A plant is built alike from both grammars**, for every request and whatever is remembered. -/
theorem build_resumed (hn : p.grammar.iterations = .int (m + n)) (r : Request) :
    ((p.resumed m n).build r).Alike (p.build r) := by
  refine (Task.Alike.refl _).bind fun _ => (Task.Alike.refl _).bind fun memory => ?_
  have hmemory : (p.resumed m n).remembered? memory r = p.remembered? memory r := rfl
  rw [hmemory]
  cases p.remembered? memory r with
  | some b => exact Task.Alike.refl _
  | none =>
    refine (Task.Alike.refl (p.generator r)).bind fun gen => (generate_resumed hn).bind fun word => ?_
    rw [interpret_resumed]
    exact Task.Alike.refl _

/-- **Expansion is an action of the generations on words.** No generations leave a word alone, one replaces a symbol by its
production, and they go along with concatenation and add up. So an accepted draft is also accepted with the word of a
generation as its start word, and the plant with the generations that are left gives the word of all of them and, for every
request and whatever is remembered, what the plant with all of them gives. -/
theorem generations_split {N : Type} [Signed N] :
    (∀ (rs : Rules) (w : Word), rs.expand 0 w = w) ∧
    (∀ (rs : Rules) (c : Char), rs.expand 1 [c] = rs.production c) ∧
    (∀ (rs : Rules) (n : ℕ) (v w : Word), rs.expand n (v ++ w) = rs.expand n v ++ rs.expand n w) ∧
    (∀ (rs : Rules) (m n : ℕ) (w : Word), rs.expand (m + n) w = rs.expand n (rs.expand m w)) ∧
    ∀ (d : Draft N) (g : Grammar N), d.check = .ok g → ∀ m n : ℕ, ∃ whole rest : Grammar N,
      ({ d with iterations := .int (m + n) } : Draft N).check = .ok whole ∧
      ({ d with start := g.rules.expand m g.start, iterations := .int n } : Draft N).check = .ok rest ∧
      ∀ (greenhouse : Greenhouse R) (value : N → R) (axes : AxisSampler R Pcg S),
        let p : Plant R S := { greenhouse with grammar := whole.map value, axes }
        let q : Plant R S := { greenhouse with grammar := rest.map value, axes }
        (∀ sampler, (q.generate.run { sampler }).result = .ok (g.rules.expand (m + n) g.start)) ∧
          q.generate.Alike p.generate ∧ ∀ r, (q.build r).Alike (p.build r) := by
  refine ⟨Rules.expand_zero, fun rs c => List.append_nil _, Rules.expand_append, Rules.expand_add, ?_⟩
  intro d g hd m n
  obtain ⟨-, rfl⟩ := Draft.check_eq_ok_iff.mp hd
  refine ⟨d.grammar.resumed 0 (m + n), d.grammar.resumed m n, Draft.check_resumed hd 0 (m + n),
    Draft.check_resumed hd m n, ?_⟩
  intro greenhouse value axes p q
  have hq : q = p.resumed m n := rfl
  have hn : p.grammar.iterations = .int (m + n) := rfl
  refine ⟨fun sampler => ?_, hq ▸ generate_resumed hn, fun r => hq ▸ build_resumed hn r⟩
  rw [hq, (generate_resumed hn _).2, generate_expanded rfl (congrArg Number.integer? hn)]
  rfl

/-- One and two generations of a vine that grows buds, makes stems of them, and loses its turns. -/
theorem generations_split_budding :
    let d : Draft Number := { vine.draft with
      rules := [(.text "F", "F[X]".toList), (.text "X", "+F".toList), (.text "+", [])] }
    let p : Plant Quantity Unit := { vine.plant with
      grammar := ({ d.grammar with iterations := .int 3 } : Grammar Number).map .ofNumber }
    let q : Plant Quantity Unit := { vine.plant with
      grammar := ({ d.grammar with start := "F[X]".toList, iterations := .int 2 } : Grammar Number).map .ofNumber }
    d.check = .ok d.grammar ∧ (q.generate.run { sampler := () }).result = .ok "F[X][+F][F[X]]".toList ∧
      ∀ r, (q.build r).Alike (p.build r) := by
  intro d p q
  have hfaults : d.faults.isEmpty = true := by decide +kernel
  have hd : d.check = .ok d.grammar := Draft.check_eq_ok_iff.mpr ⟨List.isEmpty_iff.mp hfaults, rfl⟩
  obtain ⟨-, -, -, -, hplants⟩ := generations_split (N := Number) (R := Quantity) (S := Unit)
  obtain ⟨whole, rest, hwhole, hrest, hplant⟩ := hplants d d.grammar hd 1 2
  obtain ⟨-, rfl⟩ := Draft.check_eq_ok_iff.mp hwhole
  obtain ⟨-, rfl⟩ := Draft.check_eq_ok_iff.mp hrest
  obtain ⟨hword, -, hbuild⟩ := hplant vine.plant.toGreenhouse .ofNumber vine.plant.axes
  have hthird : d.grammar.rules.expand (1 + 2) d.grammar.start = "F[X][+F][F[X]]".toList := by decide +kernel
  exact ⟨hd, hthird ▸ hword (), hbuild⟩

end Plant

end TurtlePlant
