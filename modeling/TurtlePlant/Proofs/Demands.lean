import TurtlePlant.Fault
import TurtlePlant.Proofs.Machine

/-!
# What is asked of a draft

A draft is asked for keys that are single symbols, for generations that are not fewer than none, for sizes above zero and for
jitter widths not below zero (`Draft.demands`). It is refused for the first demand whose test it fails (`Draft.check_eq`), in
words that name what the demand is about (`Demand.message_fault`).

A test is the comparison the other way round, and a value that is no number compares with nothing: it fails no test, although
it meets no demand (`Demand.tests_iff`). So a draft is accepted when each of its values meets the demand on it or is no number
(`Draft.refused_for_first_unmet`), and a length that is no number is accepted (`Draft.accepted_without_length`).
-/

namespace TurtlePlant

/-- Something that is asked of a draft. -/
inductive Demand where
  /-- That a key is one symbol. -/
  | key (k : RuleKey)
  /-- That there are not fewer generations than none. -/
  | generations
  /-- That a size is above zero. -/
  | size (s : Size)
  /-- That a jitter width is not below zero. -/
  | jitter (j : Jitter)
  deriving DecidableEq

/-- What is asked of a draft, in the order in which it is looked for. -/
def Draft.demands {N : Type} (d : Draft N) : List Demand :=
  d.rules.map (fun e => .key e.1) ++ [.generations] ++ sizes.map .size ++ jitters.map .jitter

/-! ## The first test that fails -/

section Tests

variable {N : Type}

namespace Demand

/-- Whether a draft fails the test of a demand. -/
def refuses [Signed N] (d : Draft N) : Demand → Bool
  | key k => k.symbol?.isNone
  | generations => Signed.negative d.iterations
  | size s => Signed.nonPositive (d.size s)
  | jitter j => Signed.negative (d.jitter j)

/-- What is wrong with a draft that fails the test of a demand. -/
def fault (d : Draft N) : Demand → DraftFault N
  | key k => .badKey k
  | generations => .negativeIterations d.iterations
  | size s => .notPositive s (d.size s)
  | jitter j => .belowZero j (d.jitter j)

/-- What a demand is about, as it is called in messages. -/
def subject : Demand → String
  | key _ => "Rule keys"
  | generations => "iterations"
  | size s => s.name
  | jitter j => j.name

/-- What is demanded, as messages say it. -/
def wording : Demand → String
  | key _ => "single symbols"
  | generations | jitter _ => ">= 0"
  | size _ => "> 0"

/-- The value that a demand is made on, as messages show it. -/
def shown (write : N → String) (d : Draft N) : Demand → String
  | key k => k.display
  | generations => d.iterations.text
  | size s => write (d.size s)
  | jitter j => write (d.jitter j)

/-- **Messages name what a demand is about**, what is demanded, and what is found in its place. -/
theorem message_fault (write : N → String) (d : Draft N) (r : Demand) :
    (r.fault d).message write = r.subject ++ " must be " ++ r.wording ++ ", got " ++ r.shown write d := by
  cases r with
  | key k => rfl
  | generations => rfl
  | size s => cases s <;> rfl
  | jitter j => cases j <;> rfl

/-- A key that is no text is named by what is shown of it. -/
example : ((key (.other "None")).fault Draft.standard).message Number.text =
    "Rule keys must be single symbols, got None" := rfl

end Demand

namespace Draft

variable [Signed N] (d : Draft N)

/-- What is wrong with a draft are the demands whose tests it fails. -/
theorem faults_eq : d.faults = (d.demands.filter fun r => r.refuses d).map fun r => r.fault d := by
  -- each part of the list is that of one kind of demand
  have hpart : ∀ {α : Type} (demand : α → Demand) (l : List α),
      ((l.map demand).filter fun r => r.refuses d).map (fun r => r.fault d) =
        (l.filter fun a => (demand a).refuses d).map fun a => (demand a).fault d := by
    intro α demand l
    rw [List.filter_map, List.map_map]
    rfl
  have hkeys : d.badKeys.map .badKey =
      (d.rules.filter fun e => (Demand.key e.1).refuses d).map fun e => (Demand.key e.1).fault d := by
    rw [badKeys, List.filter_map, List.map_map]
    rfl
  have hgenerations : (if Signed.negative d.iterations then [.negativeIterations d.iterations] else []) =
      ([Demand.generations].filter fun r => r.refuses d).map fun r => r.fault d := by
    rw [List.filter_cons, List.filter_nil, apply_ite (List.map _)]
    rfl
  unfold faults demands
  rw [List.filter_append, List.filter_append, List.filter_append, List.map_append, List.map_append, List.map_append,
    hpart, hpart, hpart, hkeys, hgenerations]
  rfl

/-- **A draft is refused for the first demand whose test it fails.** -/
theorem check_eq : d.check = match d.demands.find? fun r => r.refuses d with
    | none => .ok d.grammar
    | some r => .error (r.fault d) := by
  unfold check
  rw [faults_eq, ← List.head?_filter]
  cases d.demands.filter fun r => r.refuses d <;> rfl

end Draft

end Tests

/-! ## Tests and demands -/

namespace Machine

open Float.Model (UnpackedFloat)

/-- What is a number compares with zero, either way round. -/
theorem exists_compare_zero {u : UnpackedFloat} (h : u.isNaN = false) :
    ∃ o : Ordering, u.compare (.zero .positive) = some o ∧ (UnpackedFloat.zero .positive).compare u = some o.swap := by
  cases u with
  | notANumber => cases h
  | infinity s => cases s <;> exact ⟨_, rfl, rfl⟩
  | zero s => exact ⟨.eq, rfl, rfl⟩
  | finite s m e hm => cases s <;> exact ⟨_, rfl, rfl⟩

/-- A value that is no number compares with zero neither way, and of any other exactly one of two opposite comparisons
holds. -/
theorem zero_cases (x : Float) :
    x.isNaN = true ∧ ¬ x ≤ 0.0 ∧ ¬ 0.0 < x ∧ ¬ x < 0.0 ∧ ¬ 0.0 ≤ x ∨
      x.isNaN = false ∧ (¬ x ≤ 0.0 ↔ 0.0 < x) ∧ (¬ x < 0.0 ↔ 0.0 ≤ x) := by
  have hle : x ≤ 0.0 ↔ (x.toModel.unpack.compare (.zero .positive)).any Ordering.isLE = true := le_iff_parts
  have hgt : 0.0 < x ↔ ((UnpackedFloat.zero .positive).compare x.toModel.unpack == some .lt) = true := lt_iff_parts
  have hlt : x < 0.0 ↔ (x.toModel.unpack.compare (.zero .positive) == some .lt) = true := lt_iff_parts
  have hge : 0.0 ≤ x ↔ ((UnpackedFloat.zero .positive).compare x.toModel.unpack).any Ordering.isLE = true := le_iff_parts
  rw [hle, hgt, hlt, hge]
  cases hx : x.toModel.unpack.isNaN with
  | true =>
    left
    have hnan : x.toModel.unpack = .notANumber := by
      cases h : x.toModel.unpack with
      | notANumber => rfl
      | _ => rw [h] at hx; cases hx
    rw [hnan]
    exact ⟨hx, by decide⟩
  | false =>
    right
    obtain ⟨o, ho, ho'⟩ := exists_compare_zero hx
    rw [ho, ho']
    exact ⟨hx, by cases o <;> decide⟩

end Machine

namespace Number

/-- Above zero. -/
def Positive : Number → Prop
  | int n => 0 < n
  | float x => 0.0 < x

/-- Zero or above. -/
def NotNegative : Number → Prop
  | int n => 0 ≤ n
  | float x => 0.0 ≤ x

/-- No number. -/
def IsNaN : Number → Prop
  | int _ => False
  | float x => x.isNaN = true

/-- The test of a size is passed by what is above zero, and by what is no number. -/
theorem nonPositive_eq_false_iff (x : Number) : Signed.nonPositive x = false ↔ x.Positive ∨ x.IsNaN := by
  cases x with
  | int n =>
    show decide (n ≤ 0) = false ↔ 0 < n ∨ False
    rw [decide_eq_false_iff_not, Int.not_le, or_false]
  | float x =>
    show decide (x ≤ 0.0) = false ↔ 0.0 < x ∨ x.isNaN = true
    rw [decide_eq_false_iff_not]
    obtain ⟨hnan, hle, -⟩ | ⟨hnumber, hiff, -⟩ := Machine.zero_cases x
    · exact iff_of_true hle (.inr hnan)
    · exact hiff.trans (or_iff_left (Bool.eq_false_iff.mp hnumber)).symm

/-- The test of a width is passed by zero and what is above it, and by what is no number. -/
theorem negative_eq_false_iff (x : Number) : Signed.negative x = false ↔ x.NotNegative ∨ x.IsNaN := by
  cases x with
  | int n =>
    show decide (n < 0) = false ↔ 0 ≤ n ∨ False
    rw [decide_eq_false_iff_not, Int.not_lt, or_false]
  | float x =>
    show decide (x < 0.0) = false ↔ 0.0 ≤ x ∨ x.isNaN = true
    rw [decide_eq_false_iff_not]
    obtain ⟨hnan, -, -, hlt, -⟩ | ⟨hnumber, -, hiff⟩ := Machine.zero_cases x
    · exact iff_of_true hlt (.inr hnan)
    · exact hiff.trans (or_iff_left (Bool.eq_false_iff.mp hnumber)).symm

end Number

/-- A key has a symbol when it is a text of that one symbol. -/
theorem RuleKey.symbol?_eq_some_iff {k : RuleKey} {c : Char} : k.symbol? = some c ↔ k = .text (String.singleton c) := by
  cases k with
  | number n => simp [symbol?]
  | other shown => simp [symbol?]
  | text s =>
    have hs : s.toList = [c] ↔ s = String.singleton c := by
      rw [← String.toList_singleton, String.toList_inj]
    rw [text.injEq, ← hs]
    simp only [symbol?]
    rcases s.toList with _ | ⟨c', _ | ⟨c'', cs⟩⟩
    · simp
    · exact Option.some_inj.trans List.singleton_inj.symm
    · simp

namespace Demand

/-- Whether a draft is as a demand asks. -/
def Met (d : Draft Number) : Demand → Prop
  | key k => ∃ c, k = .text (String.singleton c)
  | generations => d.iterations.NotNegative
  | size s => (d.size s).Positive
  | jitter j => (d.jitter j).NotNegative

/-- Whether the value that a demand is made on is no number. -/
def OnNaN (d : Draft Number) : Demand → Prop
  | key _ => False
  | generations => d.iterations.IsNaN
  | size s => (d.size s).IsNaN
  | jitter j => (d.jitter j).IsNaN

/-- **The test of a demand is passed by what meets it, and by what is no number.** -/
theorem refuses_eq_false_iff (d : Draft Number) (r : Demand) : r.refuses d = false ↔ r.Met d ∨ r.OnNaN d := by
  cases r with
  | key k =>
    show k.symbol?.isNone = false ↔ (∃ c, k = .text (String.singleton c)) ∨ False
    simp only [Option.isNone_eq_false_iff, Option.isSome_iff_exists, RuleKey.symbol?_eq_some_iff, or_false]
  | generations => exact d.iterations.negative_eq_false_iff
  | size s => exact (d.size s).nonPositive_eq_false_iff
  | jitter j => exact (d.jitter j).negative_eq_false_iff

end Demand

namespace Draft

variable (d : Draft Number)

theorem accept_eq : d.accept = match d.demands.find? fun r => r.refuses d with
    | none => .ok d.grammar
    | some r => .error (.draft (r.fault d)) := by
  unfold accept
  rw [check_eq]
  cases d.demands.find? fun r => r.refuses d <;> rfl

theorem accept_eq_ok_iff {g : Grammar Number} :
    d.accept = .ok g ↔ g = d.grammar ∧ ∀ r ∈ d.demands, r.refuses d = false := by
  rw [accept_eq]
  cases hfind : d.demands.find? fun r => r.refuses d with
  | none =>
    have hall : ∀ r ∈ d.demands, r.refuses d = false := by simpa using hfind
    exact ⟨fun h => ⟨(Except.ok.inj h).symm, hall⟩, fun h => congrArg _ h.1.symm⟩
  | some r =>
    have hr := List.find?_some hfind
    refine iff_of_false nofun fun h => ?_
    rw [h.2 r (List.mem_of_find?_eq_some hfind)] at hr
    cases hr

theorem accept_eq_error_iff {fault : Fault} :
    d.accept = .error fault ↔ ∃ before r after, d.demands = before ++ r :: after ∧
      (∀ q ∈ before, q.refuses d = false) ∧ r.refuses d = true ∧ fault = .draft (r.fault d) := by
  rw [accept_eq]
  constructor
  · intro h
    cases hfind : d.demands.find? fun r => r.refuses d with
    | none => rw [hfind] at h; cases h
    | some r =>
      rw [hfind] at h
      obtain ⟨hr, before, after, hsplit, hbefore⟩ := List.find?_eq_some_iff_append.mp hfind
      exact ⟨before, r, after, hsplit, by simpa using hbefore, hr, (Except.error.inj h).symm⟩
  · rintro ⟨before, r, after, hsplit, hbefore, hr, rfl⟩
    rw [List.find?_eq_some_iff_append.mpr ⟨hr, before, after, hsplit, by simpa using hbefore⟩]

end Draft

/-- **A draft is accepted when each of its values meets the demand on it or is no number**, and is otherwise refused for the
first demand of which neither holds, in words that name what it is about. -/
theorem Draft.refused_for_first_unmet (d : Draft Number) :
    (∀ g, d.accept = .ok g ↔ g = d.grammar ∧ ∀ r ∈ d.demands, r.Met d ∨ r.OnNaN d) ∧
      ∀ fault, d.accept = .error fault ↔ ∃ before r after, d.demands = before ++ r :: after ∧
        (∀ q ∈ before, q.Met d ∨ q.OnNaN d) ∧ ¬ r.Met d ∧ ¬ r.OnNaN d ∧ fault = .draft (r.fault d) ∧
        fault.message = r.subject ++ " must be " ++ r.wording ++ ", got " ++ r.shown Number.text d := by
  have hpassed := Demand.refuses_eq_false_iff d
  have hfailed : ∀ r, Demand.refuses d r = true ↔ ¬ r.Met d ∧ ¬ r.OnNaN d := by
    intro r
    rw [← not_or, ← hpassed, Bool.not_eq_false]
  refine ⟨fun g => ?_, fun fault => ?_⟩
  · simp only [accept_eq_ok_iff, hpassed]
  · simp only [accept_eq_error_iff, hpassed, hfailed]
    constructor
    · rintro ⟨before, r, after, hsplit, hbefore, ⟨hmet, hnan⟩, rfl⟩
      exact ⟨before, r, after, hsplit, hbefore, hmet, hnan, rfl, r.message_fault Number.text d⟩
    · rintro ⟨before, r, after, hsplit, hbefore, hmet, hnan, rfl, -⟩
      exact ⟨before, r, after, hsplit, hbefore, ⟨hmet, hnan⟩, rfl⟩

/-- A draft with a length that is no number, a radius that is the zero below zero, and a jitter width below zero. -/
def Draft.careless : Draft Number :=
  { Draft.standard with
    rules := [(.text "X", "F[+X]X".toList), (.text "F", "FF".toList)]
    length := .float (0.0 / 0.0)
    radius := .float (-0.0)
    branchJitter := .float (-1.0) }

/-- It is refused for its radius: its length passes, and its jitter width is not looked at. -/
theorem Draft.refused_for_first_unmet_careless :
    careless.accept = .error (.draft (.notPositive .radius (.float (-0.0)))) := by
  refine (refused_for_first_unmet careless).2 _ |>.mpr ⟨[.key (.text "X"), .key (.text "F"), .generations, .size .length],
    .size .radius, [.size .branchScale, .size .taper, .jitter .lengthVariation, .jitter .angleVariation,
      .jitter .branchJitter], rfl, ?_, ?_, ?_, rfl, rfl⟩
  · simp only [List.forall_mem_cons]
    exact ⟨.inl ⟨'X', rfl⟩, .inl ⟨'F', rfl⟩, .inl (by decide : (0 : Int) ≤ 4),
      .inr (by decide : (0.0 / 0.0 : Float).isNaN = true), by simp⟩
  · show ¬ (0.0 : Float) < -0.0
    decide
  · show ¬ (-0.0 : Float).isNaN = true
    decide

/-- **A length that is no number is accepted**, although the demand on it is not met. -/
theorem Draft.accepted_without_length :
    let d : Draft Number := { Draft.standard with length := .float (0.0 / 0.0) }
    d.accept = .ok d.grammar ∧ .size .length ∈ d.demands ∧ ¬ (Demand.size .length).Met d := by
  refine ⟨rfl, by decide, ?_⟩
  show ¬ (0.0 : Float) < 0.0 / 0.0
  decide

end TurtlePlant
