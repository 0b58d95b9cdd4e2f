import TurtlePlant.CommandLine.Session
import TurtlePlant.Proofs.Calm
import TurtlePlant.Proofs.Drawing
import TurtlePlant.Proofs.Jobs
import TurtlePlant.Proofs.Nesting
import TurtlePlant.Proofs.Shades

/-!
# Failures of the command line

On machine numbers a command line that gives values fails for four reasons only: an unknown preset, a number of generations
below zero, a seed below zero, and an infinite time for a plant that draws something (`BadInput`).

- Walks. Depths stay `Moderate` from symbol to symbol, since what is added to them is small (`Temperate`,
  `step_ok_of_temperate`). So a turtle comes to the end of a word unless it draws at an infinite time (`run_ok_of_temperate`),
  and then it does not (`run_error_of_temperate`).
- Keeping and showing. Machine numbers are in every form that files, windows and figures ask for, so nothing is refused
  there (`Job.keep_machine`, `Job.view_machine`).
- Jobs. A build without memory ends as the walk does (`Plant.result_of_build`). A job with bad input ends before anything
  is written or shown (`Job.Asks.refuses`), and the plant of any other job is built (`Job.Asks.builds`).
- Sessions. `Session.fails_only_on_bad_input` says what the command line tells and gives in both cases; that a job itself
  tells of no failure is `Task.calm_job`.
-/

namespace TurtlePlant

namespace Turtle

open Machine

variable {G S : Type} {t : Turtle Float G S} {w : Walk Float G S}

/-! ## Walks on machine numbers -/

/-- A walk whose depths are moderate, now and on the stack. -/
structure Temperate (w : Walk Float G S) : Prop where
  pose : Moderate w.pose.depth
  stack : ∀ p ∈ w.stack, Moderate p.depth

theorem between_turnDepth : Between 0 (1 / 2) (turnDepth : Float) :=
  (near_ofScientific (m := 1) (by decide)).between representable_zero representable_half (by norm_num) (by norm_num)

theorem between_branchDepth : Between 0 (1 / 2) (branchDepth : Float) :=
  (near_ofScientific (m := 2) (by decide)).between representable_zero representable_half (by norm_num) (by norm_num)

/-- A segment has a colour unless the time is infinite. -/
theorem segment?_of_finite (ht : t.time.isInf = false) {p : Pose Float} (hp : Moderate p.depth) (u : Float) :
    ∃ b, t.segment? p u = .ok b := by
  obtain ⟨colour, hc⟩ := barkColour_ok hp.finite ((isInf_angle hp t.time).trans ht)
  unfold segment?
  rw [hc]
  exact ⟨_, rfl⟩

theorem segment?_of_infinite (ht : t.time.isInf = true) {p : Pose Float} (hp : Moderate p.depth) (u : Float) :
    t.segment? p u = .error .infiniteAngle := by
  unfold segment?
  rw [barkColour_infinite ((isInf_angle hp t.time).trans ht)]
  rfl

/-- **A symbol is read unless it draws at an infinite time**, and depths stay moderate. -/
theorem step_ok_of_temperate (hw : Temperate w) {c : Char} (hc : c = 'F' → t.time.isInf = false) :
    ∃ w' b, t.step w c = (w', .ok b) ∧ Temperate w' := by
  cases c using symbol_cases with
  | forward =>
    obtain ⟨b, hb⟩ := segment?_of_finite (hc rfl) hw.pose (t.source.next w.gen).1
    refine ⟨{ w with gen := (t.source.next w.gen).2, pose := { w.pose with position := b.stop, colour := b.colour } },
      some b, ?_, hw.pose, hw.stack⟩
    simp only [step, forward, hb]
    rfl
  | turn c hc =>
    rw [step_turn hc]
    exact ⟨_, _, rfl, hw.pose.add between_turnDepth, hw.stack⟩
  | opening =>
    refine ⟨_, _, rfl, hw.pose.add between_branchDepth, ?_⟩
    exact List.forall_mem_cons.mpr ⟨hw.pose, hw.stack⟩
  | closing =>
    refine ⟨_, _, rfl, ?_, fun p hp => hw.stack p (List.mem_of_mem_tail hp)⟩
    refine Moderate.sub ?_ between_branchDepth
    cases hs : w.stack with
    | nil => exact hw.pose
    | cons p rest => exact hw.stack p (by rw [hs]; exact List.mem_cons_self)
  | idle c hc => exact ⟨w, none, step_idle hc t w, hw⟩

/-- **A word is read to its end** if it draws nothing at an infinite time. -/
theorem run_ok_of_temperate (hw : Temperate w) {s : Word} (hs : 'F' ∈ s → t.time.isInf = false) :
    ∃ bs, (t.run w s).2 = .ok bs := by
  induction s generalizing w with
  | nil => exact ⟨[], rfl⟩
  | cons c s ih =>
    have hc : c = 'F' → t.time.isInf = false := by
      rintro rfl
      exact hs List.mem_cons_self
    obtain ⟨w', b, hstep, hw'⟩ := step_ok_of_temperate hw hc
    obtain ⟨bs, hrun⟩ := ih hw' fun h => hs (List.mem_cons_of_mem _ h)
    refine ⟨b.toList ++ bs, ?_⟩
    rw [run_cons, hstep]
    simp only [hrun]
    rfl

/-- **A word that draws at an infinite time is not read to its end.** -/
theorem run_error_of_temperate (hw : Temperate w) {s : Word} (hs : 'F' ∈ s) (ht : t.time.isInf = true) :
    (t.run w s).2 = .error .infiniteAngle := by
  induction s generalizing w with
  | nil => cases hs
  | cons c s ih =>
    rw [run_cons]
    by_cases hc : c = 'F'
    · subst hc
      have hstep : t.step w 'F' = ({ w with gen := (t.source.next w.gen).2 }, .error .infiniteAngle) := by
        simp only [step, forward, segment?_of_infinite ht hw.pose]
        rfl
      rw [hstep]
    · obtain ⟨w', b, hstep, hw'⟩ := step_ok_of_temperate hw fun h => absurd h hc
      have hrest : 'F' ∈ s := (List.mem_cons.mp hs).resolve_left (Ne.symm hc)
      rw [hstep]
      simp only [ih hw' hrest]
      rfl

theorem temperate_start (t : Turtle Float G S) (gen : G) (sampler : S) : Temperate (t.start gen sampler) :=
  ⟨moderate_zero, fun _ hp => by cases hp⟩

/-- **Only an infinite time keeps a turtle from the end of a word**, and only if the word draws something. -/
theorem interpret_ok_of_finite (gen : G) (sampler : S) {s : Word} (hs : 'F' ∈ s → t.time.isInf = false) :
    ∃ bs, (t.interpret gen sampler s).2 = .ok bs :=
  run_ok_of_temperate (temperate_start t gen sampler) hs

theorem interpret_error_of_infinite (gen : G) (sampler : S) {s : Word} (hs : 'F' ∈ s) (ht : t.time.isInf = true) :
    (t.interpret gen sampler s).2 = .error .infiniteAngle :=
  run_error_of_temperate (temperate_start t gen sampler) hs ht

end Turtle

/-! ## Keeping and showing machine numbers -/

/-- Every machine number is in its stored form. -/
theorem Branch.settled?_machine (b : Branch Float) : b.settled? = .ok b := rfl

/-- Machine numbers have the forms that a skeleton is made of. -/
theorem Skeleton.check_machine (bs : List (Branch Float)) : check bs = .ok () :=
  check_of_settled (fun _ _ => rfl) (fun _ _ => rfl) (Block.form_eq_machine (fun _ => rfl) _)

/-- A figure of machine numbers can be drawn. -/
theorem Figure.check_machine (f : Figure Float) : f.check = .ok () := f.check_of_kept fun _ => rfl

/-- The timer of a window with the usual settings can be started. -/
theorem Display.timerCalls_machine (s : Scene Float) (h : s.config.framesPerSecond = 30.0) :
    ∃ calls, timerCalls s = .ok calls := by
  have hinterval : swayInterval? (30.0 : Float) = .ok 33 := by rfl
  unfold timerCalls
  rw [h, hinterval]
  split
  · exact ⟨_, rfl⟩
  · exact ⟨_, rfl⟩

theorem Display.attempt_window (bs : List (Branch Float)) (job : Job) (screenshot : Option (Given String)) :
    (window bs job.config screenshot).attempt.2 = .ok () := by
  obtain ⟨calls, hcalls⟩ := timerCalls_machine (scene bs job.config screenshot) rfl
  show (attemptWindow (scene bs job.config screenshot) screenshot).2 = .ok ()
  unfold attemptWindow
  rw [show Skeleton.check (scene bs job.config screenshot).branches = .ok () from Skeleton.check_machine bs, hcalls]

theorem Display.attempt_figure (f : Figure Float) : (figure f).attempt.2 = .ok () := by
  show (attemptFigure f).2 = .ok ()
  unfold attemptFigure
  rw [f.check_machine]

/-- A path under which anything can be written, in directories that can be made. -/
def Store.Writable {R : Type} (s : Store R) (path : String) : Prop :=
  ∃ s₁, s.makeWay path = (s₁, .ok ()) ∧ ∀ a, ∃ s₂, s₁.write (target path) a = .ok s₂

/-- Branches of machine numbers are saved under such a path. -/
theorem Store.save_machine {s : Store Float} {path : String} (h : s.Writable path) (bs : List (Branch Float)) :
    ∃ s', (save path bs).run s = ⟨s', [.saved bs.length path], .ok ()⟩ := by
  obtain ⟨s₁, hway, hwrite⟩ := h
  obtain ⟨s₂, hs₂⟩ := hwrite [(branchesName, .table (.pack bs))]
  have hprepare : (prepare path).run s = ⟨s₁, [], .ok ()⟩ := by
    unfold prepare
    simp only [Task.run_bind, Task.run_get, hway]
    rfl
  exact ⟨s₂, save_eq hprepare (mapM_self fun b _ => b.settled?_machine) hs₂⟩

namespace Job

variable {job : Job} {p : Plant Float Unit} {d : Desk Float Unit} {bs : List (Branch Float)}

theorem keep_machine (h : ∀ path, job.target = some path → path ≠ "" → d.store.Writable path)
    (bs : List (Branch Float)) : ∃ d' es, (job.keep bs).run d = ⟨d', es, .ok ()⟩ ∧ d'.memory = d.memory := by
  unfold keep
  cases ht : job.target.filter fun path => !path.isEmpty with
  | none => exact ⟨d, [], rfl, rfl⟩
  | some path =>
    obtain ⟨htarget, hne⟩ := Option.filter_eq_some_iff.mp ht
    obtain ⟨s', hsave⟩ := Store.save_machine (h path htarget (by simpa using hne)) bs
    refine ⟨{ d with store := s' }, [.saved bs.length path], ?_, rfl⟩
    show (Desk.save path bs).run d = _
    unfold Desk.save Task.within
    simp only [hsave]

theorem view_machine (hm : (p.build job.request).run d.memory = ⟨d.memory, [], .ok bs⟩) {b : Backend}
    (hb : Backend.ofName? job.backend = some b) : ∃ d' es, (job.view p).run d = ⟨d', es, .ok ()⟩ := by
  have hbuild := Desk.build_again hm
  unfold view
  rw [hb]
  cases b with
  | nothing => exact ⟨d, [], rfl⟩
  | window =>
    have hwindow := Display.attempt_window bs job job.screenshot
    exact ⟨_, _, Task.run_bind_ok.mpr ⟨_, _, _, _, hbuild, Desk.present_eq hwindow d, rfl⟩⟩
  | figure =>
    have hfigure := Display.attempt_figure { branches := bs, savePath := job.screenshot.bind Given.value? }
    obtain ⟨closing, hclosing⟩ : ∃ x : Display Float,
        x = if job.screenshot.isNone then .showFigures else .closeFigure := ⟨_, rfl⟩
    have hclose : closing.attempt.2 = .ok () := by
      rw [hclosing]
      split <;> rfl
    simp only [← hclosing]
    exact ⟨_, _, Task.run_bind_ok.mpr ⟨_, _, _, _, hbuild, Task.run_bind_ok.mpr
      ⟨_, _, _, _, Desk.present_eq hfigure d, Desk.present_eq hclose _, rfl⟩, rfl⟩⟩

end Job

/-! ## Building -/

namespace Plant

variable {R : Type} [Scalar R] {p : Plant R Unit} {m : Memory R Unit} {r : Request} {t : R}

/-- A build without memory needs a generator first. -/
theorem build_error_of_generator {m' : Memory R Unit} {es : List Event} {fault : Fault} (htime : kept? (p.time r) = .ok t)
    (hfound : p.remembered? m r = none) (hgen : (p.generator r).run m = ⟨m', es, .error fault⟩) :
    (p.build r).run m = ⟨m', es, .error fault⟩ := by
  rw [build_unknown htime hfound]
  unfold buildAnew
  rw [Task.run_bind, hgen]

/-- **A build without memory ends as the walk of the turtle does** when there are a generator and a word. -/
theorem result_of_build {m' : Memory R Unit} {es : List Event} {gen : Pcg} {word : Word} (htime : kept? (p.time r) = .ok t)
    (hfound : p.remembered? m r = none) (hgen : (p.generator r).run m = ⟨m', es, .ok gen⟩) (hword : m'.word = none)
    (hexpand : p.grammar.expand? = .ok word) :
    ((p.build r).run m).result = ((p.turtle r).interpret gen () word).2.mapError .numeric := by
  have hgrow := does_generate (p := p) (m := m') fun w hw => by rw [hword] at hw; cases hw
  have hdraw := does_interpret p r gen word (p.generate.run m').state
  rw [hexpand] at hgrow
  rw [build_unknown htime hfound]
  unfold buildAnew
  rw [Task.run_bind, hgen]
  cases hb : ((p.turtle r).interpret gen () word).2 with
  | error fault =>
    rw [hb] at hdraw
    exact (hgrow.bind hdraw.bind_error).result
  | ok bs =>
    rw [hb] at hdraw
    exact (hgrow.bind (hdraw.bind (does_keep ⟨r, bs⟩ _))).result

end Plant

namespace Job

variable {job : Job} {store : Store Float}

/-- A job whose plant is built gets to its end if it can be kept where it is to be kept. -/
theorem run_of_build {house : Greenhouse Float} {p : Plant Float Unit} {bs : List (Branch Float)} {b : Backend}
    (hplant : job.plant house = .ok p) (hbuild : ((p.build job.request).run { sampler := () }).result = .ok bs)
    (hb : Backend.ofName? job.backend = some b)
    (hwrite : ∀ path, job.target = some path → path ≠ "" → store.Writable path) :
    ∃ d es, (job.run house).run { memory := { sampler := () }, store } = ⟨d, es, .ok bs⟩ := by
  match hrun : (p.build job.request).run { sampler := () } with
  | ⟨m, es, r⟩ =>
    rw [hrun] at hbuild
    obtain rfl : r = .ok bs := hbuild
    obtain ⟨-, -, -, hagain, -⟩ := Plant.build_twice hrun
    obtain ⟨d, es', hkeep, hmemory⟩ := keep_machine (d := { memory := m, store }) hwrite bs
    obtain ⟨d', es'', hview⟩ := view_machine (d := d) (by rw [hmemory]; exact hagain) hb
    exact ⟨d', _, run_of_steps hplant hrun hkeep hview⟩

end Job

/-! ## The command line -/

/-- Options with a value wherever a plant takes one, for a plant and not for the list of presets. The others, which are
the paths and the switches, are as they come. -/
def Options.ofValues (name : String) (iterations seed : Option Int) (time : Float) (backend : Backend)
    (others : Options) : Options :=
  { others with
    preset := .value name
    iterations := iterations.map .value
    seed := seed.map .value
    time := .value time
    backend := .value backend
    listPresets := false }

/-- What is wrong with the values of options: there is no such preset, a number is below zero, or the time is infinite for
a plant that draws something. -/
inductive BadInput (name : String) (iterations seed : Option Int) (time : Float) : Prop
  | preset (h : Preset.find? name = none)
  | iterations {n : Int} (h : iterations = some n) (hn : n < 0)
  | seed {n : Int} (h : seed = some n) (hn : n < 0)
  | time {g : Grammar Number} {word : Word} (hg : Preset.accept name { iterations := iterations.map .int } = .ok g)
      (hword : g.expand? = .ok word) (hdraws : 'F' ∈ word) (h : time.isInf = true)

namespace Options

variable (name : String) (iterations seed : Option Int) (time : Float) (backend : Backend) (others : Options)

/-- The job that such options ask for. -/
theorem job_ofValues : (ofValues name iterations seed time backend others).job =
    { preset := name
      settings := { iterations := iterations.map .int }
      request := { seed := seed.map .int, time := .float time }
      backend := backend.name
      screenshot := others.screenshot
      target := others.target.bind Given.value?
      animate := others.animate } := by
  cases iterations <;> cases seed <;> rfl

/-- Nothing is left blank. -/
theorem blankFault?_ofValues : (ofValues name iterations seed time backend others).blankFault? = none := by
  have hiterations : (iterations.map Given.value).any Given.isBlank = false := by cases iterations <;> rfl
  have hseed : (seed.map Given.value).any Given.isBlank = false := by cases seed <;> rfl
  unfold blankFault? ofValues
  simp only [hiterations, hseed]
  split
  · rfl
  · simp only [Bool.false_eq_true, if_false]
    split <;> rfl

end Options

namespace Preset

variable {name : String} {iterations : Option Int}

/-- A preset that is found has the name that it was looked for by. -/
theorem mem_of_find? {p : Preset} (h : find? name = some p) : p ∈ presets ∧ p.name = name :=
  have hname := List.find?_some h
  ⟨List.mem_of_find?_eq_some h, beq_iff_eq.mp hname⟩

/-- A known preset is accepted unless a number of generations is below zero, and its word is expanded. -/
theorem accept_ok (hname : find? name ≠ none) (h : ∀ n, iterations = some n → 0 ≤ n) :
    ∃ g word, accept name { iterations := iterations.map .int } = .ok g ∧ g.expand? = .ok word := by
  obtain ⟨p, hfind⟩ := Option.ne_none_iff_exists'.mp hname
  obtain ⟨hp, rfl⟩ := mem_of_find? hfind
  cases iterations with
  | none =>
    have hcheck := Draft.check_eq_ok_iff.mpr ⟨faults_draft hp, rfl⟩
    refine ⟨p.draft.grammar, p.draft.grammar.expandTo p.iterations, ?_, rfl⟩
    rw [accept_name hp]
    exact congrArg (Except.mapError Fault.draft) hcheck
  | some n =>
    obtain ⟨k, rfl⟩ := Int.eq_ofNat_of_zero_le (h n rfl)
    exact ⟨_, _, accept_iterations hp k, rfl⟩

/-- Anything else is complained about. -/
theorem accept_error (h : find? name = none ∨ ∃ n, iterations = some n ∧ n < 0) :
    ∃ fault, accept name { iterations := iterations.map .int } = .error fault ∧ fault.isComplaint = true := by
  cases hfind : find? name with
  | none =>
    refine ⟨.unknownPreset name, ?_, rfl⟩
    unfold accept
    rw [hfind]
  | some p =>
    obtain ⟨n, rfl, hn⟩ := h.resolve_left (by rw [hfind]; nofun)
    obtain ⟨hp, rfl⟩ := mem_of_find? hfind
    rw [accept_name hp]
    cases hc : (({ iterations := (some n).map .int } : Settings Number).over p.draft).check with
    | error fault => exact ⟨.draft fault, rfl, rfl⟩
    | ok g =>
      obtain ⟨hfaults, -⟩ := Draft.check_eq_ok_iff.mp hc
      obtain ⟨-, hnonneg, -⟩ := (Draft.faults_eq_nil_iff _).mp hfaults
      exact absurd hn (of_decide_eq_false hnonneg)

end Preset

namespace Job

/-- A job that asks for a preset with some values. -/
structure Asks (job : Job) (name : String) (iterations seed : Option Int) (time : Float) : Prop where
  preset : job.preset = name
  settings : job.settings = { iterations := iterations.map .int }
  request : job.request = { seed := seed.map .int, time := .float time }

/-- A job ends in a complaint, with the files as they were and nothing shown. -/
def Refuses {R : Type} [Scalar R] (job : Job) (house : Greenhouse R) (store : Store R) : Prop :=
  ∃ m es fault, (job.run house).run { memory := { sampler := () }, store } =
    ⟨{ memory := m, store }, es, .error fault⟩ ∧ fault.isComplaint = true

/-! A job is refused when there is no plant, and when its plant is not built. -/

section Refusing

variable {R : Type} [Scalar R] {job : Job} {house : Greenhouse R} {fault : Fault}

theorem refuses_of_plant (hplant : job.plant house = .error fault) (h : fault.isComplaint = true) (store : Store R) :
    job.Refuses house store := by
  refine ⟨{ sampler := () }, [], fault, ?_, h⟩
  unfold run
  rw [hplant]
  rfl

theorem refuses_of_build {p : Plant R Unit} (hplant : job.plant house = .ok p)
    (hbuild : ((p.build job.request).run { sampler := () }).result = .error fault) (h : fault.isComplaint = true)
    (store : Store R) : job.Refuses house store := by
  refine ⟨((p.build job.request).run { sampler := () }).state, ((p.build job.request).run { sampler := () }).events,
    fault, ?_, h⟩
  unfold run Desk.build Task.within
  simp only [Task.run_bind, hplant, Task.run_ofExcept, hbuild, List.nil_append]

end Refusing

variable {job : Job} {name : String} {iterations seed : Option Int} {time : Float} {entropy : Nat → Pcg}
variable {p : Plant Float Unit} {word : Word}

/-- The plant of a job whose grammar is accepted. -/
theorem Asks.exists_plant (hjob : job.Asks name iterations seed time) (entropy : Nat → Pcg) {g : Grammar Number}
    (hg : Preset.accept name { iterations := iterations.map .int } = .ok g) :
    ∃ p, job.plant ⟨entropy, Number.toFloat⟩ = .ok p ∧ p.grammar.expand? = g.expand? ∧
      (p.turtle job.request).time = time := by
  refine ⟨⟨⟨entropy, Number.toFloat⟩, g.map Number.toFloat, .random Pcg.source⟩, ?_, rfl, ?_⟩
  · unfold plant
    rw [hjob.preset, hjob.settings, hg]
    rfl
  · rw [hjob.request]
    rfl

/-- **A seed below zero is refused.** -/
theorem Asks.build_of_neg (hjob : job.Asks name iterations seed time) {n : Int} (hseed : seed = some n) (hn : n < 0)
    (p : Plant Float Unit) : ((p.build job.request).run { sampler := () }).result = .error .negativeSeed := by
  have hgen : (p.generator job.request).run { sampler := () } = ⟨{ sampler := () }, [], .error .negativeSeed⟩ := by
    rw [hjob.request, hseed]
    unfold Plant.generator Pcg.ofSeed?
    simp only [Option.map_some, Number.integer?, Task.mapError_ok, bind, Except.bind, if_pos hn]
    rfl
  exact congrArg Outcome.result (Plant.build_error_of_generator rfl rfl hgen)

/-- **With any other seed, or none, a build ends as the walk of a turtle does.** -/
theorem Asks.build_of_nonneg (hjob : job.Asks name iterations seed time) (hseed : ∀ n, seed = some n → 0 ≤ n)
    (hword : p.grammar.expand? = .ok word) :
    ∃ gen, ((p.build job.request).run { sampler := () }).result =
      ((p.turtle job.request).interpret gen () word).2.mapError .numeric := by
  obtain ⟨m, gen, hgen, hm⟩ : ∃ m gen, (p.generator job.request).run { sampler := () } = ⟨m, [], .ok gen⟩ ∧
      m.word = none := by
    rw [hjob.request]
    cases seed with
    | none => exact ⟨_, p.entropy 0, rfl, rfl⟩
    | some n =>
      have hn : ¬ n < 0 := not_lt.mpr (hseed n rfl)
      refine ⟨{ sampler := () }, .ofSeed n.toNat, ?_, rfl⟩
      unfold Plant.generator Pcg.ofSeed?
      simp only [Option.map_some, Number.integer?, Task.mapError_ok, bind, Except.bind, if_neg hn]
      rfl
  exact ⟨gen, Plant.result_of_build rfl rfl hgen hm hword⟩

/-- **A job with bad input is refused.** -/
theorem Asks.refuses (hjob : job.Asks name iterations seed time) (h : BadInput name iterations seed time)
    (entropy : Nat → Pcg) (store : Store Float) : job.Refuses ⟨entropy, Number.toFloat⟩ store := by
  -- the preset and its generations are looked at first, then the seed, and the time last
  by_cases hgrammar : Preset.find? name = none ∨ ∃ n, iterations = some n ∧ n < 0
  · obtain ⟨fault, haccept, hfault⟩ := Preset.accept_error hgrammar
    refine refuses_of_plant ?_ hfault store
    unfold plant
    rw [hjob.preset, hjob.settings, haccept]
    rfl
  · push Not at hgrammar
    obtain ⟨g, word, haccept, hword⟩ := Preset.accept_ok hgrammar.1 hgrammar.2
    obtain ⟨p, hplant, hexpand, htime⟩ := hjob.exists_plant entropy haccept
    by_cases hseed : ∃ n, seed = some n ∧ n < 0
    · obtain ⟨n, hn, hneg⟩ := hseed
      exact refuses_of_build hplant (hjob.build_of_neg hn hneg p) rfl store
    · push Not at hseed
      cases h with
      | preset h => exact absurd h hgrammar.1
      | iterations h hn => exact absurd hn (not_lt.mpr (hgrammar.2 _ h))
      | seed h hn => exact absurd hn (not_lt.mpr (hseed _ h))
      | time hg hword' hdraws hinf =>
        cases haccept.symm.trans hg
        cases hword.symm.trans hword'
        obtain ⟨gen, hbuild⟩ := hjob.build_of_nonneg hseed (hexpand.trans hword)
        rw [Turtle.interpret_error_of_infinite gen () hdraws (htime.symm ▸ hinf)] at hbuild
        exact refuses_of_build hplant hbuild rfl store

/-- **The plant of a job with no bad input is built.** -/
theorem Asks.builds (hjob : job.Asks name iterations seed time) (h : ¬ BadInput name iterations seed time)
    (entropy : Nat → Pcg) : ∃ p bs, job.plant ⟨entropy, Number.toFloat⟩ = .ok p ∧
      ((p.build job.request).run { sampler := () }).result = .ok bs := by
  have hname : Preset.find? name ≠ none := fun hname => h (.preset hname)
  have hiterations : ∀ n, iterations = some n → 0 ≤ n := fun n hn => not_lt.mp fun hneg => h (.iterations hn hneg)
  have hseed : ∀ n, seed = some n → 0 ≤ n := fun n hn => not_lt.mp fun hneg => h (.seed hn hneg)
  obtain ⟨g, word, haccept, hword⟩ := Preset.accept_ok hname hiterations
  obtain ⟨p, hplant, hexpand, htime⟩ := hjob.exists_plant entropy haccept
  obtain ⟨gen, hbuild⟩ := hjob.build_of_nonneg hseed (hexpand.trans hword)
  obtain ⟨bs, hdrawn⟩ := (p.turtle job.request).interpret_ok_of_finite gen () fun hdraws => by
    rw [htime, Bool.eq_false_iff]
    exact fun hinf => h (.time haccept hword hdraws hinf)
  rw [hdrawn] at hbuild
  exact ⟨p, bs, hplant, hbuild⟩

end Job

namespace Session

variable {R : Type} [Scalar R]

/-- Nothing is told of a failure by a job. -/
theorem errors_of_job (o : Options) (job : Job) (house : Greenhouse R) (d : Desk R Unit) :
    (((job.run house).run d).events.filter (tells o)).filter (fun e => e.level == .error) = [] := by
  refine List.filter_eq_nil_iff.mpr fun e he => ?_
  rw [beq_iff_eq]
  exact Task.calm_job job house d e (List.mem_of_mem_filter he)

theorem ofOutcome_ok {o : Options} {d : Desk R Unit} {es : List Event} {bs : List (Branch R)} :
    ofOutcome o ⟨d, es, .ok bs⟩ = { events := es.filter (tells o), desk := d } := rfl

theorem ofOutcome_complaint {o : Options} {d : Desk R Unit} {es : List Event} {fault : Fault}
    (h : fault.isComplaint = true) :
    ofOutcome o ⟨d, es, .error fault⟩ =
      { exitCode := failureCode
        complaint := some fault.message
        events := es.filter (tells o) ++ [.failed fault.message]
        desk := d } := by
  unfold ofOutcome
  simp only [h, if_true]

/-- Options without a blank make a job. -/
theorem ofOptions_ofValues (name : String) (iterations seed : Option Int) (time : Float) (backend : Backend)
    (others : Options) (house : Greenhouse R) (store : Store R) :
    let o := Options.ofValues name iterations seed time backend others
    ofOptions o house store = ofOutcome o ((o.job.run house).run { memory := { sampler := () }, store }) := by
  intro o
  show ofJob o house store = _
  unfold ofJob
  rw [Options.blankFault?_ofValues]

/-- **The command line fails cleanly, and only for bad input.** A plant is asked for with values, the paths and the
switches being whatever they are, on machine numbers and with files that can be written where the plant is to be kept.
Then the exit code is zero, and nothing is told of a failure, unless the preset is unknown, a number of generations or a
seed is below zero, or the time is infinite for a plant that draws something. In these cases the exit code is two, the
complaint is told once as the only failure, nothing is broken off, no file or directory has been made and nothing
drawn. -/
theorem fails_only_on_bad_input (name : String) (iterations seed : Option Int) (time : Float) (backend : Backend)
    (others : Options) (entropy : Nat → Pcg) (store : Store Float)
    (hwrite : ∀ path, others.target = some (.value path) → path ≠ "" → store.Writable path) :
    let s := ofOptions (.ofValues name iterations seed time backend others) ⟨entropy, Number.toFloat⟩ store
    (BadInput name iterations seed time →
      s.exitCode = 2 ∧
      (∃ message, s.complaint = some message ∧ s.events.filter (fun e => e.level == .error) = [.failed message]) ∧
      s.breakdown = none ∧ s.desk.store = store ∧ s.desk.calls = []) ∧
    (¬ BadInput name iterations seed time →
      s.exitCode = 0 ∧ s.complaint = none ∧ s.breakdown = none ∧
      s.events.filter (fun e => e.level == .error) = []) := by
  intro s
  obtain ⟨o, ho⟩ : ∃ o, o = Options.ofValues name iterations seed time backend others := ⟨_, rfl⟩
  have hs : s = ofOutcome o ((o.job.run ⟨entropy, Number.toFloat⟩).run { memory := { sampler := () }, store }) := by
    rw [ho]
    exact ofOptions_ofValues name iterations seed time backend others _ store
  have hcalm := errors_of_job o o.job ⟨entropy, Number.toFloat⟩ { memory := { sampler := () }, store }
  have hjob := Options.job_ofValues name iterations seed time backend others
  rw [← ho] at hjob
  have hasks : o.job.Asks name iterations seed time := by
    rw [hjob]
    exact ⟨rfl, rfl, rfl⟩
  constructor
  · intro hbad
    obtain ⟨m, es, fault, hrun, hcomplaint⟩ := hasks.refuses hbad entropy store
    rw [hrun] at hs hcalm
    rw [hs, ofOutcome_complaint hcomplaint]
    refine ⟨rfl, ⟨fault.message, rfl, ?_⟩, rfl, rfl, rfl⟩
    rw [List.filter_append, hcalm]
    rfl
  · intro hgood
    obtain ⟨p, bs, hplant, hbuild⟩ := hasks.builds hgood entropy
    have hbackend : Backend.ofName? o.job.backend = some backend := by
      rw [hjob]
      cases backend <;> rfl
    have htarget : ∀ path, o.job.target = some path → path ≠ "" → store.Writable path := by
      intro path hpath
      rw [hjob] at hpath
      obtain ⟨given, hgiven, hvalue⟩ := Option.bind_eq_some_iff.mp hpath
      cases given with
      | blank => cases hvalue
      | value path' =>
        cases hvalue
        exact hwrite path hgiven
    obtain ⟨d, es, hrun⟩ := Job.run_of_build hplant hbuild hbackend htarget
    rw [hrun] at hs hcalm
    rw [hs, ofOutcome_ok]
    exact ⟨rfl, rfl, rfl, hcalm⟩

/-- A shrub of no generations draws nothing, so it is grown at an infinite time and saved; after one generation it is
not. -/
theorem fails_only_on_bad_input_shrub :
    let others : Options := { target := some (.value "plant") }
    let house : Greenhouse Float := ⟨fun n => .ofSeed n, Number.toFloat⟩
    ({} : Store Float).Writable "plant" ∧
    (ofOptions (.ofValues "shrub" (some 0) none (1.0 / 0.0) .nothing others) house {}).exitCode = 0 ∧
    (ofOptions (.ofValues "shrub" (some 1) none (1.0 / 0.0) .nothing others) house {}).exitCode = 2 := by
  intro others house
  have hwritable : ({} : Store Float).Writable "plant" := ⟨{}, rfl, fun a => ⟨_, rfl⟩⟩
  have hshrub : shrub ∈ presets := Preset.mem_presets_iff.mpr (by simp)
  have haccept : ∀ n : Nat, Preset.accept "shrub" { iterations := (some (n : Int)).map .int } =
      .ok { shrub.draft.grammar with iterations := .int n } := Preset.accept_iterations hshrub
  have hwrite : ∀ path, others.target = some (.value path) → path ≠ "" → ({} : Store Float).Writable path := by
    intro path hpath _
    cases hpath
    exact hwritable
  refine ⟨hwritable, ?_, ?_⟩
  · refine ((fails_only_on_bad_input "shrub" (some 0) none (1.0 / 0.0) .nothing others _ {} hwrite).2 ?_).1
    rintro (h | ⟨h, hn⟩ | ⟨h, hn⟩ | ⟨hg, hword, hF, -⟩)
    · cases h
    · cases h
      exact absurd hn (lt_irrefl 0)
    · cases h
    · have hg' := hg.symm.trans (haccept 0)
      cases hg'
      cases hword
      exact absurd hF (by decide +kernel)
  · refine ((fails_only_on_bad_input "shrub" (some 1) none (1.0 / 0.0) .nothing others _ {} hwrite).1 ?_).1
    exact .time (haccept 1) rfl (by decide +kernel) rfl

end Session

end TurtlePlant
