import Mathlib.Data.List.Forall2
import TurtlePlant.Proofs.Steps

/-!
# Turtles in lockstep

Two turtles, each with a grammar, a source, a sampler and a time of its own, read the same word. Three relations are kept by
every symbol (`Turtle.Lockstep`): one between the states of the two sources and samplers, one between poses, and one between
the branches drawn. Then the walks stay related (`Walk.Paired`) and the branches are related one by one, over every symbol
(`Lockstep.step`), over every word (`Lockstep.run`) and at every place in it (`Lockstep.take`).
-/

namespace TurtlePlant

variable {R G G' S S' : Type}

/-- Walks whose sources and samplers are in related states, whose live poses are related, and whose saved poses are, one by
one. -/
structure Walk.Paired (E : G → S → G' → S' → Prop) (P : Pose R → Pose R → Prop) (w : Walk R G S) (w' : Walk R G' S') :
    Prop where
  states : E w.gen w.sampler w'.gen w'.sampler
  pose : P w.pose w'.pose
  stack : List.Forall₂ P w.stack w'.stack

namespace Turtle

variable [Scalar R] {t : Turtle R G S} {t' : Turtle R G' S'} {w u : Walk R G S} {w' u' : Walk R G' S'}
  {E : G → S → G' → S' → Prop} {P : Pose R → Pose R → Prop} {B : Branch R → Branch R → Prop}

/-- A word in two parts at a place. -/
theorem run_take_ok {s : Word} {bs : List (Branch R)} (h : t.run w s = (u, .ok bs)) (i : Nat) :
    ∃ v cs, t.run w (s.take i) = (v, .ok cs) := by
  rw [← List.take_append_drop i s] at h
  obtain ⟨v, cs, -, hv, -⟩ := run_append_ok.mp h
  exact ⟨v, cs, hv⟩

/-- Relations between two turtles that every symbol keeps: between the states of their sources and samplers, between their
poses, and between the branches they draw. -/
structure Lockstep (t : Turtle R G S) (t' : Turtle R G' S') (E : G → S → G' → S' → Prop) (P : Pose R → Pose R → Prop)
    (B : Branch R → Branch R → Prop) : Prop where
  draw : ∀ {g s g' s'}, E g s g' s' → E (t.source.next g).2 s (t'.source.next g').2 s'
  axis : ∀ {g s g' s'}, E g s g' s' → E (t.axes s g).2.2 (t.axes s g).2.1 (t'.axes s' g').2.2 (t'.axes s' g').2.1
  forward : ∀ {g s g' s' p p' b b'}, E g s g' s' → P p p' → t.segment? p (t.source.next g).1 = .ok b →
    t'.segment? p' (t'.source.next g').1 = .ok b' →
    B b b' ∧ P { p with position := b.stop, colour := b.colour } { p' with position := b'.stop, colour := b'.colour }
  turn : ∀ {g s g' s' p p'} (sign : R), E g s g' s' → P p p' →
    P (turned p (t.axes s (t.source.next g).2).1 (sign * turnAngle t.grammar p (t.source.next g).1))
      (turned p' (t'.axes s' (t'.source.next g').2).1 (sign * turnAngle t'.grammar p' (t'.source.next g').1))
  opening : ∀ {g s g' s' p p'}, E g s g' s' → P p p' →
    P (opened t.grammar p (t.source.draw3 g).1) (opened t'.grammar p' (t'.source.draw3 g').1)
  closing : ∀ {p p'}, P p p' → P (closed p) (closed p')

/-- **One symbol keeps two turtles in lockstep.** -/
theorem Lockstep.step (hL : Lockstep t t' E P B) {c : Char} {b b' : Option (Branch R)} (h : w.Paired E P w')
    (hs : t.step w c = (u, .ok b)) (hs' : t'.step w' c = (u', .ok b')) :
    u.Paired E P u' ∧ List.Forall₂ B b.toList b'.toList := by
  obtain ⟨he, hp, hst⟩ := h
  cases c using symbol_cases with
  | forward =>
    obtain ⟨a, ha, rfl, rfl⟩ := step_forward_ok hs
    obtain ⟨a', ha', rfl, rfl⟩ := step_forward_ok hs'
    obtain ⟨hb, hq⟩ := hL.forward he hp ha ha'
    exact ⟨⟨hL.draw he, hq, hst⟩, .cons hb .nil⟩
  | turn c hc =>
    obtain ⟨axis, sampler, gen, hax, rfl, rfl⟩ := step_turn_ok hc hs
    obtain ⟨axis', sampler', gen', hax', rfl, rfl⟩ := step_turn_ok hc hs'
    have hstates := hL.axis (hL.draw he)
    have hpose := hL.turn (turnSign c) he hp
    rw [hax, hax'] at hstates hpose
    exact ⟨⟨hstates, hpose, hst⟩, .nil⟩
  | opening =>
    obtain ⟨x, gen, hx, rfl, rfl⟩ := step_open_ok hs
    obtain ⟨x', gen', hx', rfl, rfl⟩ := step_open_ok hs'
    have hstates : E (t.source.draw3 w.gen).2 w.sampler (t'.source.draw3 w'.gen).2 w'.sampler :=
      hL.draw (hL.draw (hL.draw he))
    have hpose := hL.opening he hp
    rw [hx, hx'] at hstates hpose
    exact ⟨⟨hstates, hpose, .cons hp hst⟩, .nil⟩
  | closing =>
    obtain ⟨rfl, rfl⟩ := step_close_ok hs
    obtain ⟨rfl, rfl⟩ := step_close_ok hs'
    -- the saved poses are there on both sides or on neither
    generalize w.stack = st at hst
    generalize w'.stack = st' at hst
    cases hst with
    | nil => exact ⟨⟨he, hL.closing hp, .nil⟩, .nil⟩
    | cons hq hqs => exact ⟨⟨he, hL.closing hq, hqs⟩, .nil⟩
  | idle c hc =>
    rw [step_idle hc] at hs hs'
    cases hs
    cases hs'
    exact ⟨⟨he, hp, hst⟩, .nil⟩

/-- **A word keeps two turtles in lockstep.** -/
theorem Lockstep.run (hL : Lockstep t t' E P B) {s : Word} {bs bs' : List (Branch R)} (h : w.Paired E P w')
    (hr : t.run w s = (u, .ok bs)) (hr' : t'.run w' s = (u', .ok bs')) : u.Paired E P u' ∧ List.Forall₂ B bs bs' := by
  induction s generalizing w w' bs bs' with
  | nil =>
    cases hr
    cases hr'
    exact ⟨h, .nil⟩
  | cons c s ih =>
    obtain ⟨v, b, cs, hs, hrest, rfl⟩ := run_cons_ok.mp hr
    obtain ⟨v', b', cs', hs', hrest', rfl⟩ := run_cons_ok.mp hr'
    obtain ⟨hv, hb⟩ := hL.step h hs hs'
    obtain ⟨hu, hcs⟩ := ih hv hrest hrest'
    exact ⟨hu, List.rel_append hb hcs⟩

/-- Two turtles are in lockstep at every place of a word. -/
theorem Lockstep.take (hL : Lockstep t t' E P B) {s : Word} {bs bs' : List (Branch R)} (h : w.Paired E P w')
    (hr : t.run w s = (u, .ok bs)) (hr' : t'.run w' s = (u', .ok bs')) (i : Nat) :
    (t.run w (s.take i)).1.Paired E P (t'.run w' (s.take i)).1 := by
  obtain ⟨v, cs, hv⟩ := run_take_ok hr i
  obtain ⟨v', cs', hv'⟩ := run_take_ok hr' i
  rw [hv, hv']
  exact (hL.run h hv hv').1

end Turtle

end TurtlePlant
