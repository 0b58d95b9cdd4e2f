import Mathlib.Data.List.Forall2
import TurtlePlant.Preset
import TurtlePlant.Proofs.Brackets
import TurtlePlant.Proofs.Steps

/-!
# Branches of a plant and brackets of its word

A closed group of brackets gives the pose and the stack back, but for the depth (`run_group`, `closed_group_transparent`):
whatever is read between the brackets, the stack below the saved pose is not touched (`stack_of_wellNested`).

In a word with any brackets the pose belongs to what is left of the text read so far, and each saved pose to what is left
before its bracket. A relation between pieces and poses that every symbol keeps (`Turtle.Reads`) holds of the live pose
and of every saved one after every run (`Turtle.Reads.run`), and a relation that looks at the bare text holds of what is
left of it (`Turtle.Reads.left`). The relation that places the turtle at the end of the branch of the last `F` that is left
is kept (`reads_tip`), so the branches are a tree (`branches_form_tree`).

Every branch is that of an `F` (`forward_of_mem`), drawn from the pose to which the word before it leads
(`segment_of_forward`): what is known of all poses is known of all branches.
-/

namespace TurtlePlant

namespace Turtle

variable {R G S : Type} [Scalar R] {t : Turtle R G S} {w w' : Walk R G S}

/-! ## Closed groups -/

/-- What follows a group is read from the pose before the group, with its depth lowered, and from the same stack, if the
word in the group leaves the stack alone. -/
theorem run_past_group {v s : Word} {bs : List (Branch R)}
    (hv : ∀ {u u' : Walk R G S} {cs : List (Branch R)}, t.run u v = (u', .ok cs) → u'.stack = u.stack)
    (h : t.run w ('[' :: (v ++ ']' :: s)) = (w', .ok bs)) :
    ∃ u cs, u.pose = closed w.pose ∧ u.stack = w.stack ∧ t.run u s = (w', .ok cs) := by
  obtain ⟨u₁, b₁, cs₁, hopen, h₁, _⟩ := run_cons_ok.mp h
  obtain ⟨u₂, cs₂, cs₃, hin, h₂, _⟩ := run_append_ok.mp h₁
  obtain ⟨u₃, b₃, cs₄, hclose, h₃, _⟩ := run_cons_ok.mp h₂
  obtain ⟨_, _, _, _, rfl⟩ := step_open_ok hopen
  obtain ⟨_, rfl⟩ := step_close_ok hclose
  have hs : u₂.stack = w.pose :: w.stack := hv hin
  exact ⟨_, cs₄, by simp [hs], by simp [hs], h₃⟩

/-- A well-nested word leaves the saved poses as they are. -/
theorem stack_of_wellNested {v : Word} (hv : WellNested v) {bs : List (Branch R)} (h : t.run w v = (w', .ok bs)) :
    w'.stack = w.stack := by
  induction hv generalizing w w' bs with
  | nil => cases h; rfl
  | @symbol c v ho hc _ ih =>
    obtain ⟨u, b, cs, hs, hr, _⟩ := run_cons_ok.mp h
    rw [ih hr]
    cases c using symbol_cases with
    | forward => obtain ⟨a, _, _, rfl⟩ := step_forward_ok hs; rfl
    | turn c ht => obtain ⟨_, _, _, _, _, rfl⟩ := step_turn_ok ht hs; rfl
    | opening => exact absurd rfl ho
    | closing => exact absurd rfl hc
    | idle c hi => rw [step_idle hi] at hs; cases hs; rfl
  | group _ _ ihv ihv' =>
    obtain ⟨u, cs, _, hs, hr⟩ := run_past_group ihv h
    rw [ihv' hr, hs]

/-- After a closed group the pose is the one before it, with its depth lowered, and so is the stack. -/
theorem run_group {v : Word} (hv : WellNested v) {bs : List (Branch R)}
    (h : t.run w ('[' :: (v ++ [']'])) = (w', .ok bs)) : w'.pose = closed w.pose ∧ w'.stack = w.stack := by
  obtain ⟨u, cs, hp, hs, hr⟩ := run_past_group (stack_of_wellNested hv) h
  cases hr
  exact ⟨hp, hs⟩

/-- **A closed group is transparent up to depth**: everything about the pose but its depth comes back as it was saved,
the depth is the saved one lowered once, and the stack holds what it held. -/
theorem closed_group_transparent {v : Word} (hv : WellNested v) {bs : List (Branch R)}
    (h : t.run w ('[' :: (v ++ [']'])) = (w', .ok bs)) :
    w'.pose.position = w.pose.position ∧ w'.pose.direction = w.pose.direction ∧ w'.pose.length = w.pose.length ∧
    w'.pose.angle = w.pose.angle ∧ w'.pose.colour = w.pose.colour ∧ w'.pose.radius = w.pose.radius ∧
    w'.pose.depth = w.pose.depth - branchDepth ∧ w'.stack = w.stack := by
  obtain ⟨hp, hs⟩ := run_group hv h
  rw [hp]
  exact ⟨rfl, rfl, rfl, rfl, rfl, rfl, rfl, hs⟩

end Turtle

/-- The turtle of a preset on machine numbers, with a random axis for every turn. -/
def Preset.turtle (p : Preset) (time : Float) : Turtle Float Pcg Unit where
  grammar := p.draft.grammar.map Number.toFloat
  source := Pcg.source
  axes := .random Pcg.source
  time := time

/-- The walk of a preset's turtle from a seed. -/
def Preset.walk (p : Preset) (time : Float) (seed : Nat) (word : Word) :
    Walk Float Pcg Unit × Except NumericFault (List (Branch Float)) :=
  (p.turtle time).interpret (.ofSeed seed) () word

namespace Turtle

variable {R G S : Type} [Scalar R] {t : Turtle R G S} {w w' : Walk R G S}

/-- A group that opens on a fern, with a group in it, from a walk with a pose already saved. -/
theorem closed_group_transparent_fern :
    let w := (fern.walk 2.5 7 "F+[F".toList).1
    WellNested "F-[+F]X".toList ∧ w.stack.length = 1 ∧
    ∃ w' bs, (fern.turtle 2.5).run w ('[' :: ("F-[+F]X".toList ++ [']'])) = (w', .ok bs) ∧
      w'.pose.position = w.pose.position ∧ w'.pose.depth = w.pose.depth - branchDepth ∧ w'.stack = w.stack := by
  intro w
  have hv : WellNested "F-[+F]X".toList := by decide
  have hok : ((fern.turtle 2.5).run w ('[' :: ("F-[+F]X".toList ++ [']']))).2.toOption.isSome = true := by
    decide +kernel
  cases h : (fern.turtle 2.5).run w ('[' :: ("F-[+F]X".toList ++ [']'])) with
  | mk w' r =>
    cases r with
    | error fault => rw [h] at hok; cases hok
    | ok bs =>
      have ht := closed_group_transparent hv h
      exact ⟨hv, by decide +kernel, w', bs, rfl, ht.1, ht.2.2.2.2.2.2.1, ht.2.2.2.2.2.2.2⟩

/-! ## What is left of the text -/

/-- Each symbol of a word with the first branch that is drawn from it on. -/
def withNext {β : Type} : List β → Word → List (Char × Option β)
  | _, [] => []
  | bs, c :: s => (c, bs.head?) :: withNext (if c = 'F' then bs.tail else bs) s

/-- The first branch drawn from a symbol on is found by counting the `F`s before it. -/
theorem withNext_eq {β : Type} (bs : List β) (s : Word) (k : Nat) :
    withNext bs s = (s.zipIdx k).map fun x => (x.1, bs[(s.take (x.2 - k)).count 'F']?) := by
  induction s generalizing bs k with
  | nil => rfl
  | cons c s ih =>
    rw [withNext, ih _ (k + 1), List.zipIdx_cons, List.map_cons]
    congr 1
    · simp [List.head?_eq_getElem?]
    · refine List.map_congr_left fun x hx => ?_
      obtain ⟨hk, -, -⟩ := List.mem_zipIdx hx
      have hx' : x.2 - k = (x.2 - (k + 1)) + 1 := by omega
      rw [hx', List.take_succ_cons]
      by_cases hc : c = 'F'
      · simp [hc]
      · simp [hc]

/-- What is left of a word does not depend on the branches that are told of its symbols. -/
theorem left_withNext {β : Type} (bs : List β) (s : Word) :
    (Piece.readAll [] (withNext bs s)).map Piece.bare = Word.left s := by
  have hbare : ∀ bs : List β, (withNext bs s).map (fun x => (x.1, ())) = s.map fun c => (c, ()) := by
    induction s with
    | nil => intro bs; rfl
    | cons c s ih => intro bs; simp only [withNext, List.map_cons, ih]
  have hm := Piece.readAll_map (fun _ => ()) [] (withNext bs s)
  rw [List.map_nil, hbare] at hm
  exact hm.symm

/-- A relation between what is left of a text and a pose that every symbol keeps. -/
structure Reads (t : Turtle R G S) (Q : List (Piece (Option (Branch R))) → Pose R → Prop) : Prop where
  forward : ∀ {ps p u b}, t.segment? p u = .ok b → Q ps p →
    Q (.symbol 'F' (some b) :: ps) { p with position := b.stop, colour := b.colour }
  turn : ∀ {ps p c a axis angle}, c = '+' ∨ c = '-' → Q ps p → Q (.symbol c a :: ps) (turned p axis angle)
  opening : ∀ {ps p a u}, Q ps p → Q (.symbol '[' a :: ps) (opened t.grammar p u)
  closing : ∀ {ps p}, Q ps p → Q (.group :: ps) (closed p)
  unmatched : ∀ {ps p a}, Piece.opens ps = [] → Q ps p → Q (.symbol ']' a :: ps) (closed p)
  idle : ∀ {ps p c a}, Idle c → Q ps p → Q (.symbol c a :: ps) p

variable {Q : List (Piece (Option (Branch R))) → Pose R → Prop} {ps : List (Piece (Option (Branch R)))}

/-- One symbol keeps the relation for the live pose and for every saved one. -/
theorem Reads.step (hQ : t.Reads Q) {c : Char} {a b : Option (Branch R)} (h : t.step w c = (w', .ok b))
    (ha : ∀ x, b = some x → a = some x) (hp : Q ps w.pose) (hs : List.Forall₂ Q (Piece.opens ps) w.stack) :
    Q (Piece.read ps c a) w'.pose ∧ List.Forall₂ Q (Piece.opens (Piece.read ps c a)) w'.stack := by
  cases c using symbol_cases with
  | forward =>
    obtain ⟨x, hx, hb, rfl⟩ := step_forward_ok h
    rw [ha x hb]
    exact ⟨hQ.forward hx hp, by simpa [Piece.read, Piece.opens] using hs⟩
  | turn c hc =>
    obtain ⟨_, _, _, _, _, rfl⟩ := step_turn_ok hc h
    have ho : c ≠ '[' := by rcases hc with rfl | rfl <;> decide
    have hcl : c ≠ ']' := by rcases hc with rfl | rfl <;> decide
    rw [Piece.opens_read_of_ne ho hcl]
    exact ⟨by simpa [Piece.read, hcl] using hQ.turn hc hp, hs⟩
  | opening =>
    obtain ⟨_, _, _, _, rfl⟩ := step_open_ok h
    rw [Piece.opens_read_open]
    exact ⟨hQ.opening hp, .cons hp hs⟩
  | closing =>
    -- there is a saved pose just when a bracket is open in what is left
    obtain ⟨_, rfl⟩ := step_close_ok h
    rw [Piece.opens_read_close]
    cases ho : Piece.opens ps with
    | nil =>
      rw [ho] at hs
      have hw : w.stack = [] := by cases hw : w.stack with
        | nil => rfl
        | cons _ _ => rw [hw] at hs; cases hs
      simp only [hw, List.tail_nil]
      exact ⟨by simpa [Piece.read, ho] using hQ.unmatched ho hp, .nil⟩
    | cons q qs =>
      rw [ho] at hs
      cases hw : w.stack with
      | nil => rw [hw] at hs; cases hs
      | cons p st =>
        rw [hw] at hs
        obtain ⟨hq, hqs⟩ := List.forall₂_cons.mp hs
        exact ⟨by simpa [Piece.read, ho] using hQ.closing hq, hqs⟩
  | idle c hc =>
    rw [step_idle hc] at h
    cases h
    rw [Piece.opens_read_of_ne hc.2.2.2.1 hc.2.2.2.2]
    exact ⟨by simpa [Piece.read, hc.2.2.2.2] using hQ.idle hc hp, hs⟩

/-- **A relation that every symbol keeps holds after every run**, of the live pose and what is left of the text, and of
each saved pose and what is left before its bracket. -/
theorem Reads.run (hQ : t.Reads Q) {s : Word} {bs : List (Branch R)} (h : t.run w s = (w', .ok bs))
    (hp : Q ps w.pose) (hs : List.Forall₂ Q (Piece.opens ps) w.stack) :
    Q (Piece.readAll ps (withNext bs s)) w'.pose ∧
      List.Forall₂ Q (Piece.opens (Piece.readAll ps (withNext bs s))) w'.stack := by
  induction s generalizing w bs ps with
  | nil => cases h; exact ⟨hp, hs⟩
  | cons c s ih =>
    obtain ⟨u, b, cs, hc, hr, rfl⟩ := run_cons_ok.mp h
    have hn : (if c = 'F' then (b.toList ++ cs).tail else b.toList ++ cs) = cs := by
      have hl := length_of_step hc
      cases b with
      | none =>
        have hF : c ≠ 'F' := by rintro rfl; simp at hl
        simp [hF]
      | some x =>
        have hF : c = 'F' := by by_contra hF; simp [hF] at hl
        simp [hF]
    have hhead : ∀ x, b = some x → (b.toList ++ cs).head? = some x := by rintro x rfl; rfl
    obtain ⟨hp', hs'⟩ := hQ.step hc hhead hp hs
    rw [withNext, hn]
    exact ih hr hp' hs'

/-- A relation that every symbol keeps and that looks at nothing told of the symbols holds of the live pose and what is
left of the word, and of each saved pose and what is left before its bracket. -/
theorem Reads.left {Q : List (Piece Unit) → Pose R → Prop} (hQ : t.Reads fun ps p => Q (ps.map Piece.bare) p)
    {gen : G} {sampler : S} (hstart : Q [] (startPose t.grammar)) {s : Word} {bs : List (Branch R)}
    (h : t.interpret gen sampler s = (w, .ok bs)) :
    Q (Word.left s) w.pose ∧ List.Forall₂ Q (Piece.opens (Word.left s)) w.stack := by
  have hnone : Q (([] : List (Piece (Option (Branch R)))).map Piece.bare) (t.start gen sampler).pose := hstart
  obtain ⟨hp, hs⟩ := hQ.run h hnone .nil
  have hopens : Piece.opens (Word.left s) =
      (Piece.opens (Piece.readAll [] (withNext bs s))).map (List.map Piece.bare) := by
    rw [← left_withNext bs s]
    exact Piece.opens_map _ _
  rw [left_withNext] at hp
  rw [hopens, List.forall₂_map_left_iff]
  exact ⟨hp, hs⟩

/-- A property of poses that every symbol keeps holds of the live pose and of all saved ones. -/
theorem Reads.poses {P : Pose R → Prop} (hP : t.Reads fun _ => P) {gen : G} {sampler : S}
    (hstart : P (startPose t.grammar)) {s : Word} {bs : List (Branch R)}
    (h : t.interpret gen sampler s = (w, .ok bs)) : P w.pose ∧ ∀ p ∈ w.stack, P p := by
  obtain ⟨hp, hs⟩ := hP.left (Q := fun _ => P) hstart h
  refine ⟨hp, ?_⟩
  generalize Piece.opens (Word.left s) = qs at hs
  generalize w.stack = st at hs
  induction hs with
  | nil => simp
  | cons hq _ ih => exact List.forall_mem_cons.mpr ⟨hq, ih⟩

/-! ## Parents -/

/-- The pose is at the end of the branch of the last `F` that is left, or at the origin if none is. -/
def AtTip (ps : List (Piece (Option (Branch R)))) (p : Pose R) : Prop :=
  match Piece.lastForward? ps with
  | none => p.position = .zero
  | some a => ∃ b, a = some b ∧ p.position = b.stop

/-- Every symbol keeps the turtle at the end of the branch of the last `F` that is left. -/
theorem reads_tip (t : Turtle R G S) : t.Reads AtTip where
  forward {ps p u b} _ _ := ⟨b, rfl, rfl⟩
  turn hc h := by
    rcases hc with rfl | rfl <;> exact h
  opening h := h
  closing h := h
  unmatched _ h := h
  idle hc h := by simpa [AtTip, Piece.lastForward?, hc.1] using h

/-- The turtle stands at the origin or at the end of the branch of the parent of what follows. -/
theorem position_eq_parent {gen : G} {sampler : S} {u : Word} {bs : List (Branch R)}
    (h : t.interpret gen sampler u = (w, .ok bs)) :
    match Word.parent? u with
    | none => w.pose.position = .zero
    | some j => ∃ b, bs[(u.take j).count 'F']? = some b ∧ w.pose.position = b.stop := by
  have hstart : AtTip [] (t.start gen sampler).pose := rfl
  have ht : AtTip (Piece.readAll [] (withNext bs u)) w.pose := ((reads_tip t).run h hstart .nil).1
  have hl : Piece.lastForward? (Piece.readAll [] (withNext bs u)) =
      (Word.parent? u).map fun j => bs[(u.take j).count 'F']? := by
    rw [withNext_eq bs u 0]
    have hm := Piece.readAll_map (fun j => bs[(u.take j).count 'F']?) [] u.zipIdx
    rw [List.map_nil] at hm
    simp only [Nat.sub_zero]
    rw [hm, Piece.lastForward?_map]; rfl
  unfold AtTip at ht
  rw [hl] at ht
  cases hp : Word.parent? u with
  | none => simpa [hp] using ht
  | some j => simpa [hp] using ht

/-- A word is what stands before one of its symbols, the symbol, and the rest. -/
theorem eq_take_append {s : Word} {i : Nat} {c : Char} (hi : s[i]? = some c) : s = s.take i ++ c :: s.drop (i + 1) := by
  obtain ⟨hl, hc⟩ := List.getElem?_eq_some_iff.mp hi
  rw [← hc, ← List.drop_eq_getElem_cons hl, List.take_append_drop]

/-- The branch of an `F` of the word: it comes after those of the `F`s before, and starts where the turtle stands when the
word before it has been read. -/
theorem branch_of_forward {gen : G} {sampler : S} {s : Word} {bs : List (Branch R)}
    (h : t.interpret gen sampler s = (w, .ok bs)) {i : Nat} (hi : s[i]? = some 'F') :
    ∃ v v' b, t.interpret gen sampler (s.take i) = (v, .ok (bs.take ((s.take i).count 'F'))) ∧
      t.step v 'F' = (v', .ok (some b)) ∧ bs[(s.take i).count 'F']? = some b ∧ b.start = v.pose.position := by
  rw [eq_take_append hi] at h
  obtain ⟨v, cs, cs', hpre, hrest, rfl⟩ := run_append_ok.mp h
  obtain ⟨v', b, ds, hstep, -, rfl⟩ := run_cons_ok.mp hrest
  obtain ⟨a, ha, rfl, -⟩ := step_forward_ok hstep
  have hlen : cs.length = (s.take i).count 'F' := length_of_run hpre
  refine ⟨v, v', a, ?_, hstep, ?_, ?_⟩
  · rw [← hlen, List.take_left]; exact hpre
  · rw [← hlen]; simp
  · rw [(eq_of_segment? ha).2]; rfl

/-- The branch of an `F` is the segment drawn from the pose to which the word before it leads. -/
theorem segment_of_forward {gen : G} {sampler : S} {s : Word} {bs : List (Branch R)}
    (h : t.interpret gen sampler s = (w, .ok bs)) {i : Nat} (hi : s[i]? = some 'F') :
    ∃ v b, t.interpret gen sampler (s.take i) = (v, .ok (bs.take ((s.take i).count 'F'))) ∧
      bs[(s.take i).count 'F']? = some b ∧ b = segment t.grammar v.pose (t.source.next v.gen).1 b.colour := by
  obtain ⟨v, v', b, hpre, hstep, hb, -⟩ := branch_of_forward h hi
  exact ⟨v, b, hpre, hb, (eq_of_segment? (segment_of_step hstep)).2⟩

/-- Every branch is the branch of an `F`. -/
theorem forward_of_mem {gen : G} {sampler : S} {s : Word} {bs : List (Branch R)}
    (h : t.interpret gen sampler s = (w, .ok bs)) {b : Branch R} (hb : b ∈ bs) :
    ∃ i, s[i]? = some 'F' ∧ bs[(s.take i).count 'F']? = some b := by
  obtain ⟨k, hk⟩ := List.mem_iff_getElem?.mp hb
  have hlt : k < s.count 'F' := by
    rw [← length_of_run h]
    exact (List.getElem?_eq_some_iff.mp hk).1
  have hcount : (s.take (s.idxOfNth 'F' k)).count 'F' = k := by
    rw [← List.countBefore_eq_count_take, List.countBefore_idxOfNth_of_lt_count hlt]
  refine ⟨s.idxOfNth 'F' k, ?_, by rw [hcount, hk]⟩
  exact List.getElem?_eq_some_iff.mpr ⟨List.idxOfNth_lt_length_of_lt_count hlt, List.getElem_idxOfNth_eq⟩

/-- **The branches form a tree that the text fixes.** There is one branch for each `F`, in order: the one drawn when the
turtle steps over that `F`. It starts at the origin, or exactly where the branch of the last `F` ends that is left of the
word before when its closed groups are taken out. -/
theorem branches_form_tree {gen : G} {sampler : S} {s : Word} {bs : List (Branch R)}
    (h : t.interpret gen sampler s = (w, .ok bs)) :
    bs.length = s.count 'F' ∧ ∀ i, s[i]? = some 'F' →
      ∃ v v' b, t.interpret gen sampler (s.take i) = (v, .ok (bs.take ((s.take i).count 'F'))) ∧
        t.step v 'F' = (v', .ok (some b)) ∧ bs[(s.take i).count 'F']? = some b ∧
        match Word.parent? (s.take i) with
        | none => b.start = .zero
        | some j => s[j]? = some 'F' ∧ ∃ a, bs[(s.take j).count 'F']? = some a ∧ b.start = a.stop := by
  refine ⟨length_of_run h, fun i hi => ?_⟩
  obtain ⟨v, v', b, hpre, hstep, hb, hstart⟩ := branch_of_forward h hi
  refine ⟨v, v', b, hpre, hstep, hb, ?_⟩
  have hpos := position_eq_parent hpre
  cases hp : Word.parent? (s.take i) with
  | none =>
    rw [hp] at hpos
    exact hstart.trans hpos
  | some j =>
    rw [hp] at hpos
    obtain ⟨a, ha, hend⟩ := hpos
    have hj : (s.take i)[j]? = some 'F' := Word.getElem?_of_parent? hp
    have hji : j < i := by
      have := (List.getElem?_eq_some_iff.mp hj).1
      rw [List.length_take] at this
      omega
    refine ⟨by rwa [List.getElem?_take_of_lt hji] at hj, a, ?_, hstart.trans hend⟩
    rw [List.take_take, Nat.min_eq_left (by omega)] at ha
    have hlt := (List.getElem?_eq_some_iff.mp ha).1
    rw [List.length_take] at hlt
    rwa [List.getElem?_take_of_lt (by omega)] at ha

/-- A vine with an unmatched `]`, a closed branch and an open one: its last branch grows from its first. -/
theorem branches_form_tree_vine :
    ∃ w bs, vine.walk 0.5 3 "]F[+F]-[F".toList = (w, .ok bs) ∧ bs.length = 3 ∧
      ∃ a b, bs[0]? = some a ∧ bs[2]? = some b ∧ b.start = a.stop := by
  have hok : (vine.walk 0.5 3 "]F[+F]-[F".toList).2.toOption.isSome = true := by decide +kernel
  cases h : vine.walk 0.5 3 "]F[+F]-[F".toList with
  | mk w r =>
    cases r with
    | error fault => rw [h] at hok; cases hok
    | ok bs =>
      obtain ⟨hlen, htree⟩ := branches_form_tree h
      obtain ⟨v, v', b, -, -, hb, hparent⟩ := htree 8 (by decide)
      have hp : Word.parent? ("]F[+F]-[F".toList.take 8) = some 1 := by decide
      rw [hp] at hparent
      obtain ⟨-, a, ha, hstart⟩ := hparent
      exact ⟨w, bs, rfl, hlen, a, b, ha, hb, hstart⟩

end Turtle

end TurtlePlant
