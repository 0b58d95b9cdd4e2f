/-!
# Words and derivations

A plant is written as a word of symbols. `Rules` gives some symbols a production; a derivation replaces every symbol of a
word at once, a symbol without a rule standing for itself, and `expand` does so for a number of generations.

- `Rules.insert`, `Rules.ofList`: one production for each symbol, the latest one given, in the order in which the
  symbols first came (`insert_production_self`, `insert_production_of_ne`);
- derivation works symbol by symbol (`derive_append`), hence so does expansion (`expand_append`);
- generations add up (`expand_add`);
- `generations` lists the words on the way, and the last of them is the expansion (`getLastD_generations`).
-/

namespace TurtlePlant

/-- A word of symbols. -/
abbrev Word := List Char

/-- Where keys are distinct, the entries of a list are what looking their keys up gives. -/
theorem mem_iff_lookup {α β : Type} [BEq α] [LawfulBEq α] {entries : List (α × β)}
    (hnodup : (entries.map Prod.fst).Nodup) {a : α} {b : β} : (a, b) ∈ entries ↔ entries.lookup a = some b := by
  induction entries with
  | nil => simp
  | cons entry rest ih =>
    obtain ⟨hnew, hrest⟩ := List.nodup_cons.mp hnodup
    rw [List.mem_cons, List.lookup_cons]
    by_cases ha : a = entry.1
    · have hnot : (a, b) ∉ rest := fun hmem => hnew (ha ▸ List.mem_map_of_mem hmem)
      rw [beq_iff_eq.mpr ha]
      simp only [hnot, or_false, Option.some.injEq]
      exact ⟨fun h => h ▸ rfl, fun h => Prod.ext ha h.symm⟩
    · rw [beq_eq_false_iff_ne.mpr ha, ← ih hrest]
      simp only [or_iff_right_iff_imp]
      exact fun h => absurd (congrArg Prod.fst h) ha

/-- Productions of distinct symbols, in the order in which the symbols were first given. -/
structure Rules where
  entries : List (Char × Word)
  distinct : (entries.map Prod.fst).Nodup

namespace Rules

/-! ## Building rules -/

/-- No productions. -/
def empty : Rules := ⟨[], List.nodup_nil⟩

/-- The entries with the production of `c` replaced by `w`, or added at the end. -/
def put (c : Char) (w : Word) : List (Char × Word) → List (Char × Word)
  | [] => [(c, w)]
  | (d, v) :: rest => if d = c then (c, w) :: rest else (d, v) :: put c w rest

/-- A symbol with a production after `put` had one before or is the symbol put. -/
theorem mem_keys_put {c d : Char} {w : Word} : ∀ {es : List (Char × Word)},
    d ∈ (put c w es).map Prod.fst → d = c ∨ d ∈ es.map Prod.fst
  | [], h => by simpa [put] using h
  | (a, v) :: rest, h => by
    by_cases ha : a = c
    · simp only [put, ha, if_true, List.map_cons, List.mem_cons] at h ⊢
      rcases h with h | h
      · exact Or.inl h
      · exact Or.inr (Or.inr h)
    · simp only [put, ha, if_false, List.map_cons, List.mem_cons] at h ⊢
      rcases h with h | h
      · exact Or.inr (Or.inl h)
      · rcases mem_keys_put h with h | h
        · exact Or.inl h
        · exact Or.inr (Or.inr h)

/-- Putting a production keeps the symbols distinct. -/
theorem nodup_put {c : Char} {w : Word} : ∀ {es : List (Char × Word)}, (es.map Prod.fst).Nodup →
    ((put c w es).map Prod.fst).Nodup
  | [], _ => by simp [put]
  | (a, v) :: rest, h => by
    rw [List.map_cons, List.nodup_cons] at h
    by_cases ha : a = c
    · simpa only [put, ha, if_true, List.map_cons, List.nodup_cons] using ha ▸ h
    · simp only [put, ha, if_false, List.map_cons, List.nodup_cons]
      refine ⟨fun hm => ?_, nodup_put h.2⟩
      rcases mem_keys_put hm with hc | hm
      · exact ha hc
      · exact h.1 hm

/-- The rules with `w` as the production of `c`. -/
def insert (rs : Rules) (c : Char) (w : Word) : Rules := ⟨put c w rs.entries, nodup_put rs.distinct⟩

/-- The rules of a list of productions, of which the last one for a symbol counts. -/
def ofList (es : List (Char × Word)) : Rules := es.foldl (fun rs e => rs.insert e.1 e.2) empty

/-! ## Productions -/

/-- The production of a symbol, if it has one. -/
def find? (rs : Rules) (c : Char) : Option Word := rs.entries.lookup c

/-- What a symbol is replaced by: its production, or itself. -/
def production (rs : Rules) (c : Char) : Word := (rs.find? c).getD [c]

/-- A symbol is replaced by a production that was given, or by itself. -/
theorem production_cases (rs : Rules) (c : Char) : (c, rs.production c) ∈ rs.entries ∨ rs.production c = [c] := by
  unfold production find?
  cases hc : rs.entries.lookup c with
  | none => exact Or.inr rfl
  | some w =>
    obtain ⟨es, es', hes, -⟩ := List.lookup_eq_some_iff.mp hc
    rw [hes]
    simp

theorem lookup_put_self (c : Char) (w : Word) : ∀ es : List (Char × Word), (put c w es).lookup c = some w
  | [] => by simp [put]
  | (a, v) :: rest => by
    by_cases ha : a = c
    · simp [put, ha]
    · have hc : (c == a) = false := by simpa using fun h : c = a => ha h.symm
      simp [put, ha, List.lookup_cons, hc, lookup_put_self c w rest]

theorem lookup_put_of_ne {c d : Char} (w : Word) (hd : d ≠ c) :
    ∀ es : List (Char × Word), (put c w es).lookup d = es.lookup d
  | [] => by
    have h : (d == c) = false := by simpa using hd
    simp [put, List.lookup_cons, h]
  | (a, v) :: rest => by
    by_cases ha : a = c
    · have h : (d == c) = false := by simpa using hd
      simp [put, ha, List.lookup_cons, h]
    · simp [put, ha, List.lookup_cons, lookup_put_of_ne w hd rest]

/-- The symbol just given is replaced by its new production. -/
@[simp] theorem insert_production_self (rs : Rules) (c : Char) (w : Word) : (rs.insert c w).production c = w := by
  simp [production, find?, insert, lookup_put_self]

/-- Other symbols are replaced as before. -/
theorem insert_production_of_ne (rs : Rules) {c d : Char} (w : Word) (hd : d ≠ c) :
    (rs.insert c w).production d = rs.production d := by
  simp [production, find?, insert, lookup_put_of_ne w hd]

/-! ## Derivation -/

/-- One generation: every symbol of the word is replaced at once. -/
def derive (rs : Rules) (w : Word) : Word := w.flatMap rs.production

@[simp] theorem derive_nil (rs : Rules) : rs.derive [] = [] := rfl

@[simp] theorem derive_cons (rs : Rules) (c : Char) (w : Word) :
    rs.derive (c :: w) = rs.production c ++ rs.derive w := by
  simp [derive]

/-- Derivation works symbol by symbol. -/
@[simp] theorem derive_append (rs : Rules) (v w : Word) : rs.derive (v ++ w) = rs.derive v ++ rs.derive w := by
  simp [derive]

/-- The word after `n` generations. -/
def expand (rs : Rules) : Nat → Word → Word
  | 0, w => w
  | n + 1, w => rs.expand n (rs.derive w)

@[simp] theorem expand_zero (rs : Rules) (w : Word) : rs.expand 0 w = w := rfl

theorem expand_succ (rs : Rules) (n : Nat) (w : Word) : rs.expand (n + 1) w = rs.expand n (rs.derive w) := rfl

/-- Expansion works symbol by symbol. -/
theorem expand_append (rs : Rules) (n : Nat) (v w : Word) :
    rs.expand n (v ++ w) = rs.expand n v ++ rs.expand n w := by
  induction n generalizing v w with
  | zero => rfl
  | succ n ih => simp only [expand_succ, derive_append, ih]

/-- Generations add up. -/
theorem expand_add (rs : Rules) (m n : Nat) (w : Word) : rs.expand (m + n) w = rs.expand n (rs.expand m w) := by
  induction m generalizing w with
  | zero => simp
  | succ m ih => rw [Nat.succ_add, expand_succ, expand_succ, ih]

/-- The words of the first `n` generations after `w`. -/
def generations (rs : Rules) : Nat → Word → List Word
  | 0, _ => []
  | n + 1, w =>
    let next := rs.derive w
    next :: rs.generations n next

@[simp] theorem length_generations (rs : Rules) (n : Nat) (w : Word) : (rs.generations n w).length = n := by
  induction n generalizing w with
  | zero => rfl
  | succ n ih => simp [generations, ih]

/-- The last generation is the expansion. -/
theorem getLastD_generations (rs : Rules) (n : Nat) (w : Word) :
    (rs.generations n w).getLastD w = rs.expand n w := by
  induction n generalizing w with
  | zero => rfl
  | succ n ih =>
    rw [expand_succ, ← ih, generations, List.getLastD_cons]

end Rules

end TurtlePlant
