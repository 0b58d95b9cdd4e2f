import TurtlePlant.Proofs.Calm
import TurtlePlant.Proofs.Growth
import TurtlePlant.Proofs.Integers
import TurtlePlant.Proofs.Saving

/-!
# One plant for every purpose

A job asks for its plant twice with one request: to return and keep it, and to show it. The plant that was built for a
request is the one remembered for it, whatever its time is and also without a seed (`Plant.build_twice`). So what is
returned, kept and shown is one plant, which is expanded and built once (`Job.run_ok`).

Kept branches come back in their stored forms. Of a plant that is measured in given numbers only the radii change with that,
and only where its radius is given as an integer (`Job.one_plant_for_all`), which may be too wide for a machine number
(`Job.one_plant_for_all_but_thick`).
-/

namespace TurtlePlant

/-! ## Asking twice -/

namespace Plant

section Memory

variable {R S : Type} {p : Plant R S} {m m' : Memory R S} {r : Request} {es : List Event}

/-- A generator is found without a word and without a plant, for a seed that is an integer or for none. -/
theorem generator_ok {gen : Pcg} (h : (p.generator r).run m = ⟨m', es, .ok gen⟩) :
    p.Grows m m' es [] ∧ m'.word = m.word ∧ r.sameSeed r = true := by
  unfold generator at h
  unfold Request.sameSeed
  cases hseed : r.seed with
  | none =>
    rw [hseed] at h
    cases h
    exact ⟨⟨fun _ hw => Or.inl hw, (List.append_nil _).symm, rfl, Nat.zero_add _⟩, rfl, rfl⟩
  | some seed =>
    rw [hseed] at h
    obtain ⟨rfl, rfl, hgen⟩ := Task.run_ofExcept_ok h
    cases seed with
    | int n => exact ⟨Grows.quiet p m' (by simp), rfl, beq_self_eq_true n⟩
    | float x => cases hgen

/-- A word that is given is remembered. -/
theorem word_of_generate {word : Word} (h : p.generate.run m = ⟨m', es, .ok word⟩) : m'.word = some word := by
  cases hm : m.word with
  | some w =>
    rw [generate_remembered hm] at h
    cases h
    exact hm
  | none =>
    cases hn : p.grammar.iterations.integer? with
    | error fault => rw [generate_refused hm hn] at h; cases h
    | ok n =>
      rw [generate_expanded hm hn] at h
      cases h
      rfl

/-- A word stays remembered. -/
theorem word_of_grows {added : List (Built R)} (h : p.Grows m m' es added) (hw : m.word.isSome = true) :
    m'.word.isSome = true := by
  have hcount : es.countP Event.isExpanded + 1 = m'.word.isSome.toNat := by
    rw [← h.expanded, hw]
    rfl
  refine Bool.toNat_eq_one.mp ?_
  have hle : m'.word.isSome.toNat ≤ 1 := Bool.toNat_le _
  omega

end Memory

section Builds

variable {R : Type} [Scalar R] {p : Plant R Unit} {m m' : Memory R Unit} {r : Request} {es : List Event}
  {bs : List (Branch R)}

/-- **A build gives what the turtle draws**, and adds it to what is remembered. -/
theorem buildAnew_ok (hw : ∀ w, m.word = some w → p.grammar.expand? = .ok w)
    (h : (p.buildAnew r).run m = ⟨m', es, .ok bs⟩) :
    p.Grows m m' es [⟨r, bs⟩] ∧ m'.word.isSome = true ∧ r.sameSeed r = true ∧
      ∃ gen word walk, (p.turtle r).interpret gen () word = (walk, .ok bs) := by
  obtain ⟨m₁, told₁, gen, _, hgen, h₁, rfl⟩ := Task.run_bind_ok.mp h
  obtain ⟨m₂, told₂, word, _, hword, h₂, rfl⟩ := Task.run_bind_ok.mp h₁
  obtain ⟨m₃, told₃, drawn, _, hdraw, h₃, rfl⟩ := Task.run_bind_ok.mp h₂
  cases h₃
  obtain ⟨hgrows₁, hword₁, hseed⟩ := generator_ok hgen
  have hgrows₂ : p.Grows m₁ m₂ told₂ [] := by
    have hd := (does_generate (hword₁ ▸ hw)).grows
    rw [hword] at hd
    exact hd
  have hdoes := does_interpret p r gen word m₂
  have hgrows₃ : p.Grows m₂ m₃ told₃ [] := by
    have hd := hdoes.grows
    rw [hdraw] at hd
    exact hd
  have hresult : ((p.turtle r).interpret gen () word).2 = .ok bs := by
    have hr := hdoes.result
    rw [hdraw] at hr
    exact eq_ok_of_mapError hr.symm
  have hsome : m₃.word.isSome = true := word_of_grows hgrows₃ (by rw [word_of_generate hword]; rfl)
  exact ⟨hgrows₁.trans (hgrows₂.trans (hgrows₃.trans (Grows.add p m₃ ⟨r, bs⟩))), hsome, hseed, gen,
    word, _, Prod.ext rfl hresult⟩

/-- A request whose seed is its own seed is answered by its own plant, whatever its time is. -/
theorem same_self (h : r.sameSeed r = true) : p.same r r = true := by
  unfold same isNaN
  rw [h]
  cases p.time r == p.time r <;> simp

/-- **A plant that is asked for twice is built once.** The first time it is the only plant that is built; the second time it
is remembered. -/
theorem build_twice (h : (p.build r).run { sampler := () } = ⟨m', es, .ok bs⟩) :
    m'.built = [⟨r, bs⟩] ∧ es.filter Event.isBuilt = [.built bs.length r.seed r.time] ∧
      es.countP Event.isExpanded = 1 ∧ (p.build r).run m' = ⟨m', [], .ok bs⟩ ∧
      ∃ gen word walk, (p.turtle r).interpret gen () word = (walk, .ok bs) := by
  obtain ⟨_, _, time, _, htime, h₁, rfl⟩ := Task.run_bind_ok.mp h
  obtain ⟨rfl, rfl, hresult⟩ := Task.run_ofExcept_ok htime
  obtain ⟨hgrows, hword, hseed, hdrawn⟩ := buildAnew_ok (fun _ hw => by cases hw) h₁
  have hbuilt : m'.built = [⟨r, bs⟩] := hgrows.built
  have hfound : p.remembered? m' r = some ⟨r, bs⟩ := by
    unfold remembered?
    rw [hbuilt]
    simp [same_self hseed]
  refine ⟨hbuilt, hgrows.told, ?_, build_remembered (eq_ok_of_mapError hresult) hfound, hdrawn⟩
  have hcount := hgrows.expanded
  rw [hword] at hcount
  exact hcount

end Builds

end Plant

/-! ## Showing and keeping -/

variable {R : Type} [Scalar R]

/-- What a display tells is about itself. -/
theorem Display.quiet_events (x : Display R) : ∀ e ∈ x.events, e.Quiet := by
  intro e he
  obtain rfl | rfl | ⟨path, rfl⟩ | ⟨path, rfl⟩ := mem_events he <;> exact ⟨rfl, rfl⟩

namespace Desk

variable {p : Plant R Unit} {r : Request} {d d' : Desk R Unit} {es : List Event} {bs : List (Branch R)}

/-- What is shown comes after what was shown. -/
theorem present_ok {x : Display R} {u : Unit} (h : (present x).run d = ⟨d', es, .ok u⟩) :
    d' = { d with displays := d.displays ++ [x] } ∧ ∀ e ∈ es, e.Quiet := by
  obtain ⟨d₁, told₁, _, told₂, hmodify, h₁, rfl⟩ := Task.run_bind_ok.mp h
  obtain ⟨d₂, told₃, _, told₄, hattempt, htell, rfl⟩ := Task.run_bind_ok.mp h₁
  cases hmodify
  cases htell
  obtain ⟨rfl, rfl, -⟩ := Task.run_ofExcept_ok hattempt
  exact ⟨rfl, x.quiet_events⟩

/-- What can be shown is shown. -/
theorem present_eq {x : Display R} (h : x.attempt.2 = .ok ()) (d : Desk R Unit) :
    (present x).run d = ⟨{ d with displays := d.displays ++ [x] }, x.events, .ok ()⟩ := by
  unfold present
  simp only [Task.run_bind, Task.run_modify, Task.run_ofExcept, Task.run_tell, h]
  rfl

/-- A plant that is remembered is given as it is, and nothing is told. -/
theorem build_again (hm : (p.build r).run d.memory = ⟨d.memory, [], .ok bs⟩) :
    (build p r).run d = ⟨d, [], .ok bs⟩ := by
  unfold build Task.within
  simp only [hm]

end Desk

namespace Job

variable {job : Job} {p : Plant R Unit} {d d' : Desk R Unit} {es : List Event} {bs : List (Branch R)} {u : Unit}

/-- What is shown of a plant that is remembered: nothing, or that plant once. -/
theorem view_ok (hm : (p.build job.request).run d.memory = ⟨d.memory, [], .ok bs⟩)
    (h : (job.view p).run d = ⟨d', es, .ok u⟩) :
    d'.memory = d.memory ∧ d'.store = d.store ∧ (∀ e ∈ es, e.Quiet) ∧
      (job.backend = Backend.nothing.name → d'.displays = d.displays) ∧
      d'.displays.filterMap Display.branches? =
        d.displays.filterMap Display.branches? ++ if job.backend = Backend.nothing.name then [] else [bs] := by
  unfold view at h
  cases hb : Backend.ofName? job.backend with
  | none => rw [hb] at h; cases h
  | some b =>
    have hname : b.name = job.backend := by
      have hf := List.find?_some hb
      exact beq_iff_eq.mp hf
    rw [hb] at h
    rw [← hname]
    cases b with
    | nothing =>
      cases h
      exact ⟨rfl, rfl, by simp, fun _ => rfl, by simp⟩
    | window =>
      obtain ⟨d₁, told₁, branches, told₂, hbuild, hpresent, rfl⟩ := Task.run_bind_ok.mp h
      rw [Desk.build_again hm] at hbuild
      cases hbuild
      obtain ⟨rfl, hquiet⟩ := Desk.present_ok hpresent
      refine ⟨rfl, rfl, hquiet, fun h => absurd h (by decide), ?_⟩
      simp [Display.branches?, Backend.name]
    | figure =>
      obtain ⟨d₁, told₁, branches, told₂, hbuild, h₁, rfl⟩ := Task.run_bind_ok.mp h
      obtain ⟨d₂, told₃, _, told₄, hpresent, hclose, rfl⟩ := Task.run_bind_ok.mp h₁
      rw [Desk.build_again hm] at hbuild
      cases hbuild
      obtain ⟨rfl, hquiet⟩ := Desk.present_ok hpresent
      obtain ⟨rfl, hquiet'⟩ := Desk.present_ok hclose
      refine ⟨rfl, rfl, ?_, fun h => absurd h (by decide), ?_⟩
      · intro e he
        have he : e ∈ told₃ ++ told₄ := he
        rcases List.mem_append.mp he with he | he
        · exact hquiet e he
        · exact hquiet' e he
      · -- a figure is shown or closed after it is drawn, which shows no plant
        cases job.screenshot <;> simp [Display.branches?, Backend.name]

/-- What is kept of branches: nothing, or those that are loaded again in their stored forms. -/
theorem keep_ok (h : (job.keep bs).run d = ⟨d', es, .ok u⟩) :
    d'.memory = d.memory ∧ d'.displays = d.displays ∧ (∀ e ∈ es, e.Quiet) ∧
      ∀ path, job.target = some path → path ≠ "" →
        ∃ stored, bs.mapM Branch.settled? = .ok stored ∧ d'.store.load (Store.target path) = .ok stored := by
  unfold keep at h
  cases ht : job.target.filter fun path => !path.isEmpty with
  | none =>
    rw [ht] at h
    cases h
    refine ⟨rfl, rfl, by simp, ?_⟩
    intro path hpath hne
    rw [hpath] at ht
    simp [Option.filter, hne] at ht
  | some path =>
    rw [ht] at h
    obtain ⟨store, hsave, rfl⟩ := Task.run_within_ok h
    obtain ⟨rfl, hstored⟩ := Store.load_of_save hsave
    refine ⟨rfl, rfl, ?_, ?_⟩
    · intro e he
      rw [List.mem_singleton.mp he]
      exact ⟨rfl, rfl⟩
    · intro path' hpath' hne
      obtain rfl : path' = path := by
        rw [hpath'] at ht
        simpa [Option.filter, hne] using ht
      exact hstored

/-- **A job that gets to its end grows one plant.** It is expanded and built once, and the same branches are returned, kept
and shown. -/
theorem run_ok {house : Greenhouse R} {store : Store R}
    (h : (job.run house).run { memory := { sampler := () }, store } = ⟨d, es, .ok bs⟩) :
    d.memory.built = [⟨job.request, bs⟩] ∧ es.countP Event.isExpanded = 1 ∧
      es.filter Event.isBuilt = [.built bs.length job.request.seed job.request.time] ∧
      d.displays.filterMap Display.branches? = (if job.backend = Backend.nothing.name then [] else [bs]) ∧
      (job.backend = Backend.nothing.name → d.calls = []) ∧
      (∀ path, job.target = some path → path ≠ "" →
        ∃ stored, bs.mapM Branch.settled? = .ok stored ∧ d.store.load (Store.target path) = .ok stored) ∧
      ∃ p gen word walk, job.plant house = .ok p ∧ (p.turtle job.request).interpret gen () word = (walk, .ok bs) := by
  obtain ⟨_, _, p, _, hplant, h₁, rfl⟩ := Task.run_bind_ok.mp h
  obtain ⟨d₁, told₁, _, _, hbuild, h₂, rfl⟩ := Task.run_bind_ok.mp h₁
  obtain ⟨d₂, told₂, _, _, hkeep, h₃, rfl⟩ := Task.run_bind_ok.mp h₂
  obtain ⟨d₃, told₃, _, _, hview, h₄, rfl⟩ := Task.run_bind_ok.mp h₃
  cases h₄
  obtain ⟨rfl, rfl, hresult⟩ := Task.run_ofExcept_ok hplant
  obtain ⟨m, hm, rfl⟩ := Task.run_within_ok hbuild
  obtain ⟨hbuilt, htold, hexpanded, hagain, gen, word, walk, hdrawn⟩ := Plant.build_twice hm
  obtain ⟨hmemory₂, hdisplays₂, hquiet₂, hstored⟩ := keep_ok hkeep
  obtain ⟨hmemory₃, hstore₃, hquiet₃, hnothing, hshown⟩ := view_ok (by rw [hmemory₂]; exact hagain) hview
  refine ⟨?_, ?_, ?_, ?_, ?_, ?_, p, gen, word, walk, hresult, hdrawn⟩
  · rw [hmemory₃, hmemory₂]
    exact hbuilt
  · simp only [List.nil_append, List.append_nil, List.countP_append, hexpanded, Plant.countP_of_quiet hquiet₂,
      Plant.countP_of_quiet hquiet₃]
  · simp only [List.nil_append, List.append_nil, List.filter_append, htold, Plant.filter_of_quiet hquiet₂,
      Plant.filter_of_quiet hquiet₃]
  · rw [hshown, hdisplays₂]
    rfl
  · intro hb
    unfold Desk.calls
    rw [hnothing hb, hdisplays₂]
    rfl
  · rw [hstore₃]
    exact hstored

/-- The radius of a plant is the one that is asked for, or the usual one. -/
theorem radius_of_plant {house : Greenhouse R} (h : job.plant house = .ok p) :
    p.grammar.radius = house.value (job.settings.radius.getD (.float 0.02)) := by
  obtain ⟨g, haccept, h⟩ := Turtle.bind_ok h
  cases h
  unfold Preset.accept at haccept
  split at haccept
  · cases haccept
  · obtain ⟨-, rfl⟩ := Draft.check_eq_ok_iff.mp (eq_ok_of_mapError haccept)
    rfl

/-- **What is returned, kept and shown is one plant.** When a job gets to its end, its grammar has been expanded once and
its plant built once, for the seed and the time of the job, whether there is a seed or not. The plant that is shown is the
one returned; none is shown and no drawing call is made where nothing is to be shown. If there is a path, the file under it
holds the branches returned, with their radii in the stored form. These are the same branches unless the radius of the plant
is asked for as an integer. -/
theorem one_plant_for_all (job : Job) (entropy : Nat → Pcg) (store : Store Quantity) {d : Desk Quantity Unit}
    {es : List Event} {bs : List (Branch Quantity)}
    (h : (job.run ⟨entropy, .ofNumber⟩).run { memory := { sampler := () }, store } = ⟨d, es, .ok bs⟩) :
    (∀ path, job.target = some path → path ≠ "" →
      d.store.load (Store.target path) = .ok (bs.map Branch.settleRadii)) ∧
    ((∀ n, job.settings.radius ≠ some (.int n)) → bs.map Branch.settleRadii = bs) ∧
    d.displays.filterMap Display.branches? = (if job.backend = Backend.nothing.name then [] else [bs]) ∧
    (job.backend = Backend.nothing.name → d.calls = []) ∧
    d.memory.built = [⟨job.request, bs⟩] ∧ es.countP Event.isExpanded = 1 ∧
    es.filter Event.isBuilt = [.built bs.length job.request.seed job.request.time] := by
  obtain ⟨hbuilt, hexpanded, htold, hshown, hnothing, hstored, p, gen, word, walk, hplant, hdrawn⟩ := run_ok h
  have hplain : ∀ b ∈ bs, b.Plain p.grammar.radius.isInteger := Turtle.plain_of_interpret hdrawn
  refine ⟨?_, ?_, hshown, hnothing, hbuilt, hexpanded, htold⟩
  · intro path hpath hne
    obtain ⟨stored, hsettled, hload⟩ := hstored path hpath hne
    rw [hload, eq_map_of_mapM (fun b hb b' => Branch.eq_of_settled? (hplain b hb)) hsettled]
  · intro hradius
    have hwhole : p.grammar.radius.isInteger = false := by
      rw [radius_of_plant hplant]
      cases hr : job.settings.radius with
      | none => rfl
      | some r =>
        cases r with
        | int n => exact absurd hr (hradius n)
        | float x => rfl
    rw [hwhole] at hplain
    exact (List.map_congr_left fun b hb => Branch.settleRadii_of_plain (hplain b hb)).trans (List.map_id bs)

/-- A job gets to its end when each of its steps does. -/
theorem run_of_steps {house : Greenhouse R} {m m' : Memory R Unit} {store : Store R} {es' es'' : List Event}
    (hplant : job.plant house = .ok p) (hbuild : (p.build job.request).run m = ⟨m', es, .ok bs⟩)
    (hkeep : (job.keep bs).run { memory := m', store } = ⟨d, es', .ok ()⟩)
    (hview : (job.view p).run d = ⟨d', es'', .ok ()⟩) :
    (job.run house).run { memory := m, store } = ⟨d', es ++ (es' ++ es''), .ok bs⟩ := by
  have hdesk : (Desk.build p job.request).run { memory := m, store } = ⟨{ memory := m', store }, es, .ok bs⟩ := by
    unfold Desk.build Task.within
    simp only [hbuild]
  refine Task.run_bind_ok.mpr ⟨_, [], p, _, by rw [hplant]; rfl, ?_, rfl⟩
  refine Task.run_bind_ok.mpr ⟨_, es, bs, _, hdesk, ?_, rfl⟩
  refine Task.run_bind_ok.mpr ⟨d, es', (), _, hkeep, ?_, rfl⟩
  exact Task.run_bind_ok.mpr ⟨d', es'', (), [], hview, rfl, (List.append_nil es'').symm⟩

/-- A vine of one segment, to be kept and drawn, whose radius is an integer that no machine number equals. -/
def thickVine : Job where
  preset := "vine"
  settings := { iterations := some (.int 0), radius := some (.int 9007199254740993) }
  backend := Backend.figure.name
  target := some "plant"

/-- Numbered generators, and numbers as they are given. -/
def numberedHouse : Greenhouse Quantity := ⟨fun n => .ofSeed n, .ofNumber⟩

/-- The vine gets to its end, with a segment whose radius is not the one in its stored form. -/
theorem thickVine_run : ∃ d es b, (thickVine.run numberedHouse).run { memory := { sampler := () } } = ⟨d, es, .ok [b]⟩ ∧
    (b.radiusEnd == .integer 9007199254740993) = true ∧ (b.radiusEnd.settle == b.radiusEnd) = false := by
  -- all but the colour is found by calculation
  have hfound : ((thickVine.plant numberedHouse).toOption.bind fun p =>
      ((p.build thickVine.request).run { sampler := () }).result.toOption.map fun bs =>
        ((Display.figure { branches := bs }).attempt.2.isOk, bs.map fun b =>
          (b.storable, b.radiusEnd == .integer 9007199254740993, b.radiusEnd.settle == b.radiusEnd))) =
      some (true, [(true, true, false)]) := by
    decide +kernel
  cases hplant : thickVine.plant numberedHouse with
  | error fault => rw [hplant] at hfound; cases hfound
  | ok p =>
    rw [hplant] at hfound
    match hbuild : (p.build thickVine.request).run { sampler := () } with
    | ⟨m, es, .error fault⟩ =>
      simp only [Except.toOption, Option.bind_some, hbuild] at hfound
      cases hfound
    | ⟨m, es, .ok bs⟩ =>
      simp only [Except.toOption, Option.bind_some, hbuild] at hfound
      obtain ⟨hdrawable, hbs⟩ := Prod.mk.inj (Option.some.inj hfound)
      obtain ⟨b, rfl, hb⟩ := List.map_eq_singleton_iff.mp hbs
      obtain ⟨hstorable, hradii⟩ := Prod.mk.inj hb
      obtain ⟨hwide, hstored⟩ := Prod.mk.inj hradii
      obtain ⟨-, -, -, hagain, gen, word, walk, hdrawn⟩ := Plant.build_twice hbuild
      have hplain : b.Plain p.grammar.radius.isInteger := Turtle.plain_of_interpret hdrawn b (by simp)
      obtain ⟨b', hb'⟩ := Branch.settled?_of_storable hstorable hplain.colour
      have hsettled : [b].mapM Branch.settled? = .ok [b'] := by rw [List.mapM_cons, hb']; rfl
      obtain ⟨s', hsave⟩ : ∃ s', (Store.save "plant" [b]).run ({} : Store Quantity) =
          ⟨s', [.saved 1 "plant"], .ok ()⟩ := ⟨_, Store.save_eq rfl hsettled rfl⟩
      have hkeep : (thickVine.keep [b]).run { memory := m } =
          ⟨{ memory := m, store := s' }, [.saved 1 "plant"], .ok ()⟩ := by
        show ((Store.save "plant" [b]).within Desk.store fun store d => { d with store }).run { memory := m } = _
        unfold Task.within
        simp only [hsave]
      obtain ⟨_, hattempt⟩ := eq_ok_of_isOk hdrawable
      have hview : ∃ d es, (thickVine.view p).run { memory := m, store := s' } = ⟨d, es, .ok ()⟩ := by
        have hdesk : (Desk.build p thickVine.request).run { memory := m, store := s' } =
            ⟨{ memory := m, store := s' }, [], .ok [b]⟩ := Desk.build_again hagain
        have hfigure := Desk.present_eq hattempt { memory := m, store := s' }
        exact ⟨_, _, Task.run_bind_ok.mpr ⟨_, _, _, _, hdesk,
          Task.run_bind_ok.mpr ⟨_, _, _, _, hfigure, Desk.present_eq rfl _, rfl⟩, rfl⟩⟩
      obtain ⟨d, es', hview⟩ := hview
      exact ⟨d, _, b, run_of_steps hplant hbuild hkeep hview, hwide, hstored⟩

/-- **A radius may be too wide to be kept**: the branches that are loaded are not those that were returned. -/
theorem one_plant_for_all_but_thick : ∃ d es bs stored,
    (thickVine.run numberedHouse).run { memory := { sampler := () } } = ⟨d, es, .ok bs⟩ ∧
      d.store.load "plant.npz" = .ok stored ∧ (bs.map fun b => b.radiusEnd == .integer 9007199254740993) = [true] ∧
      List.zipWith Branch.same stored bs = [false] := by
  obtain ⟨d, es, b, hrun, hwide, hradius⟩ := thickVine_run
  obtain ⟨-, -, -, -, -, hkept, p, gen, word, walk, -, hdrawn⟩ := run_ok hrun
  obtain ⟨stored, hsettled, hload⟩ := hkept "plant" rfl (by decide)
  have hplain : b.Plain p.grammar.radius.isInteger := Turtle.plain_of_interpret hdrawn b (by simp)
  have hstored : stored = [b.settleRadii] :=
    eq_map_of_mapM (fun a ha a' h => by rw [List.mem_singleton.mp ha] at h ⊢; exact Branch.eq_of_settled? hplain h) hsettled
  refine ⟨d, es, [b], stored, hrun, hload, by rw [List.map_singleton, hwide], ?_⟩
  have hsame : b.settleRadii.same b = false := by
    unfold Branch.same Branch.settleRadii
    simp only [hradius, Bool.and_false, Bool.false_and]
  rw [hstored, List.zipWith_cons_cons, List.zipWith_nil_left, hsame]

/-- The thick vine is drawn and kept as it was built, but for its radii. -/
theorem one_plant_for_all_thick : ∃ d es bs,
    (thickVine.run numberedHouse).run { memory := { sampler := () } } = ⟨d, es, .ok bs⟩ ∧
      d.store.load "plant.npz" = .ok (bs.map Branch.settleRadii) ∧ d.displays.filterMap Display.branches? = [bs] ∧
      es.countP Event.isExpanded = 1 := by
  obtain ⟨d, es, b, hrun, -⟩ := thickVine_run
  obtain ⟨hkept, -, hshown, -, -, hexpanded, -⟩ := one_plant_for_all thickVine (fun n => .ofSeed n) {} hrun
  exact ⟨d, es, [b], hrun, hkept "plant" rfl (by decide), hshown, hexpanded⟩

end Job

end TurtlePlant
