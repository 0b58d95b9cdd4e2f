import TurtlePlant.Proofs.Growth
import TurtlePlant.Proofs.Steps

/-!
# Calls of a plant

A plant is called again and again, with any requests and samplers, and some of the calls fail (`Plant.Recalls`). Whatever
was called before, the word that is remembered is the expansion of the grammar and the plants that are remembered were drawn
from it (`Plant.Faithful`): no step of a call changes that, a failing one included (`Task.Keeps`, `keeps_generate`,
`keeps_build`). So a build gives branches that the turtle draws from the expansion (`draws_of_build`).
-/

namespace TurtlePlant

/-! ## What tasks keep -/

namespace Task

variable {σ α β : Type} {P : σ → Prop} {Q : α → Prop} {Q' : β → Prop} {t : Task σ α} {f : α → Task σ β}

/-- A task that keeps `P` of the state, also when it fails, and gives results with `Q` only. -/
def Keeps (P : σ → Prop) (t : Task σ α) (Q : α → Prop) : Prop :=
  ∀ s, P s → P (t.run s).state ∧ ∀ a, (t.run s).result = .ok a → Q a

/-- A task of two steps keeps what both steps keep. -/
theorem Keeps.bind (h : t.Keeps P Q) (h' : ∀ a, Q a → (f a).Keeps P Q') : (t >>= f).Keeps P Q' := by
  intro s hs
  obtain ⟨hstate, hresult⟩ := h s hs
  rw [run_bind]
  cases hr : (t.run s).result with
  | error fault => exact ⟨hstate, fun b hb => by cases hb⟩
  | ok a => exact h' a (hresult a hr) _ hstate

theorem keeps_pure {a : α} (ha : Q a) : (pure a : Task σ α).Keeps P Q :=
  fun _ hs => ⟨hs, fun _ hr => Except.ok.inj hr ▸ ha⟩

theorem keeps_get : (get : Task σ σ).Keeps P P := fun _ hs => ⟨hs, fun _ hr => Except.ok.inj hr ▸ hs⟩

theorem keeps_modify {g : σ → σ} (hg : ∀ s, P s → P (g s)) : (modify g).Keeps P fun _ => True :=
  fun s hs => ⟨hg s hs, fun _ _ => trivial⟩

theorem keeps_tell (events : List Event) : (tell events : Task σ Unit).Keeps P fun _ => True :=
  fun _ hs => ⟨hs, fun _ _ => trivial⟩

theorem keeps_ofExcept (r : Except Fault α) : (ofExcept r : Task σ α).Keeps P fun a => r = .ok a :=
  fun _ hs => ⟨hs, fun _ hr => hr⟩

end Task

/-! ## What calls keep -/

namespace Plant

variable {R S : Type} [Scalar R]

/-- What is remembered of a plant after some calls, in any order, whether they succeed or not. The sampler may be in another
state at each call. -/
inductive Recalls (p : Plant R S) : Memory R S → Prop
  | new (sampler : S) : p.Recalls { sampler }
  | generate {m : Memory R S} : p.Recalls m → p.Recalls (p.generate.run m).state
  | build {m : Memory R S} (r : Request) : p.Recalls m → p.Recalls ((p.build r).run m).state
  | steer {m : Memory R S} (sampler : S) : p.Recalls m → p.Recalls { m with sampler }

/-- Branches that the turtle of a plant draws from the expansion of its grammar, for some request. -/
def Draws (p : Plant R S) (bs : List (Branch R)) : Prop :=
  ∃ r gen sampler word walk, p.grammar.expand? = .ok word ∧ (p.turtle r).interpret gen sampler word = (walk, .ok bs)

/-- What is remembered is what would be found anew: the word is the expansion, and the plants are drawn from it. -/
structure Faithful (p : Plant R S) (m : Memory R S) : Prop where
  word : ∀ w, m.word = some w → p.grammar.expand? = .ok w
  built : ∀ b ∈ m.built, p.Draws b.branches

variable {p : Plant R S} {m m' : Memory R S} {r : Request} {es : List Event} {bs : List (Branch R)}

theorem keeps_generate (p : Plant R S) : p.generate.Keeps p.Faithful fun w => p.grammar.expand? = .ok w := by
  refine Task.keeps_get.bind fun m hm => ?_
  cases hw : m.word with
  | some w => exact Task.keeps_pure (hm.word w hw)
  | none =>
    refine (Task.keeps_ofExcept _).bind fun n hn => ?_
    have hx : p.grammar.expand? = .ok (p.grammar.grow n).1 := by
      rw [Grammar.fst_grow, Grammar.expand?, eq_ok_of_mapError hn]
      rfl
    refine (Task.keeps_modify ?_).bind fun _ _ => (Task.keeps_tell _).bind fun _ _ => Task.keeps_pure hx
    intro m hm
    exact ⟨fun w hw => Option.some.inj hw ▸ hx, hm.built⟩

theorem keeps_generator (p : Plant R S) (r : Request) : (p.generator r).Keeps p.Faithful fun _ => True := by
  unfold generator
  cases r.seed with
  | some seed => exact fun m hm => ⟨hm, fun _ _ => trivial⟩
  | none =>
    refine Task.keeps_get.bind fun m hm => (Task.keeps_modify ?_).bind fun _ _ => Task.keeps_pure trivial
    intro m hm
    exact ⟨hm.word, hm.built⟩

theorem keeps_interpret (p : Plant R S) (r : Request) (gen : Pcg) {word : Word} (hw : p.grammar.expand? = .ok word) :
    (p.interpret r gen word).Keeps p.Faithful p.Draws := by
  refine Task.keeps_get.bind fun m _ => (Task.keeps_modify ?_).bind fun _ _ => ?_
  · intro m hm
    exact ⟨hm.word, hm.built⟩
  · refine (Task.keeps_ofExcept _).bind fun bs hbs => (Task.keeps_tell _).bind fun _ _ => Task.keeps_pure ?_
    exact ⟨r, gen, m.sampler, word, _, hw, Prod.ext rfl (eq_ok_of_mapError hbs)⟩

theorem keeps_buildAnew (p : Plant R S) (r : Request) : (p.buildAnew r).Keeps p.Faithful p.Draws := by
  refine (keeps_generator p r).bind fun gen _ => (keeps_generate p).bind fun word hw => ?_
  refine (keeps_interpret p r gen hw).bind fun bs hbs => (Task.keeps_modify ?_).bind fun _ _ => ?_
  · intro m hm
    refine ⟨hm.word, fun b hb => ?_⟩
    rcases List.mem_append.mp hb with hb | hb
    · exact hm.built b hb
    · rw [List.mem_singleton.mp hb]
      exact hbs
  · exact (Task.keeps_tell _).bind fun _ _ => Task.keeps_pure hbs

theorem keeps_build (p : Plant R S) (r : Request) : (p.build r).Keeps p.Faithful p.Draws := by
  refine (Task.keeps_ofExcept _).bind fun _ _ => Task.keeps_get.bind fun m hm => ?_
  cases hf : p.remembered? m r with
  | some b => exact Task.keeps_pure (hm.built b (List.mem_of_find?_eq_some hf))
  | none => exact keeps_buildAnew p r

/-- **No call makes a plant remember anything else** than what would be found anew. -/
theorem faithful_of_recalls (h : p.Recalls m) : p.Faithful m := by
  induction h with
  | new sampler =>
    constructor
    · intro w hw
      cases hw
    · intro b hb
      cases hb
  | generate _ ih => exact (keeps_generate p _ ih).1
  | build r _ ih => exact (keeps_build p r _ ih).1
  | steer sampler _ ih => exact ⟨ih.word, ih.built⟩

/-- **A build gives what the turtle draws from the expansion**, whatever was called before. -/
theorem draws_of_build (hm : p.Recalls m) (h : (p.build r).run m = ⟨m', es, .ok bs⟩) : p.Draws bs := by
  have hresult := (keeps_build p r m (faithful_of_recalls hm)).2
  rw [h] at hresult
  exact hresult bs rfl

end Plant

end TurtlePlant
