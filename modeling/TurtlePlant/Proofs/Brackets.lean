import TurtlePlant.Word

/-!
# Brackets

A word is well nested when every `]` closes a `[` of the word and no `[` is left open (`WellNested`); one pass with a
counter decides it (`wellNested_iff`).

In any word a `]` closes the latest `[` that is still open, if there is one. What is left of a text when a mark takes the
place of every closed group, the last piece first, is found by one pass (`Piece.readAll`). The open brackets of what is
left are those that nothing closes, and `Piece.opens` is what is left before each of them (`opens_read_open`,
`opens_read_close`). `Word.parent?` is the last `F` that is left of a word: closed groups hide theirs. `Word.left` is what is
left of a word by itself, `Word.countLeft` how often a symbol is in it, and `Word.groups` how many marks are.
-/

namespace TurtlePlant

/-! ## Well-nested words -/

/-- A word in which every `]` closes a `[` of the word and no `[` is left open. -/
inductive WellNested : Word → Prop
  | nil : WellNested []
  | symbol {c : Char} {w : Word} : c ≠ '[' → c ≠ ']' → WellNested w → WellNested (c :: w)
  | group {v w : Word} : WellNested v → WellNested w → WellNested ('[' :: (v ++ ']' :: w))

/-- Whether a word closes exactly `n` brackets that were open before it, besides its own. -/
def closes : Nat → Word → Bool
  | n, [] => n == 0
  | n, c :: w =>
    if c = '[' then closes (n + 1) w
    else if c = ']' then
      match n with
      | 0 => false
      | n + 1 => closes n w
    else closes n w

/-- A well-nested word in front changes nothing. -/
theorem closes_append {v : Word} (hv : WellNested v) (n : Nat) (w : Word) : closes n (v ++ w) = closes n w := by
  induction hv generalizing n w with
  | nil => rfl
  | symbol ho hc _ ih => simp [closes, ho, hc, ih]
  | group _ _ ihv ihw => simp [closes, ihv, ihw]

/-- A word that closes `n + 1` brackets begins with a well-nested word and the first `]` that closes one of them. -/
theorem wellNested_of_closes : ∀ (n : Nat) (w : Word), closes n w = true →
    (n = 0 → WellNested w) ∧ ∀ m, n = m + 1 → ∃ v r, WellNested v ∧ w = v ++ ']' :: r ∧ closes m r = true
  | n, [], h => by
    have hn : n = 0 := by simpa [closes] using h
    exact ⟨fun _ => .nil, fun m hm => by omega⟩
  | n, c :: w, h => by
    by_cases ho : c = '['
    · subst ho
      have hw : closes (n + 1) w = true := by simpa [closes] using h
      obtain ⟨v, r, hv, rfl, hr⟩ := (wellNested_of_closes (n + 1) w hw).2 n rfl
      have ih := wellNested_of_closes n r hr
      refine ⟨fun hn => .group hv (ih.1 hn), fun m hm => ?_⟩
      obtain ⟨v', r', hv', rfl, hr'⟩ := ih.2 m hm
      exact ⟨'[' :: (v ++ ']' :: v'), r', .group hv hv', by simp, hr'⟩
    · by_cases hc : c = ']'
      · subst hc
        cases n with
        | zero => simp [closes] at h
        | succ m =>
          refine ⟨fun hn => by omega, fun m' hm => ⟨[], w, .nil, rfl, ?_⟩⟩
          have hm' : m' = m := by omega
          rw [hm']
          simpa [closes] using h
      · have hw : closes n w = true := by simpa [closes, ho, hc] using h
        have ih := wellNested_of_closes n w hw
        refine ⟨fun hn => .symbol ho hc (ih.1 hn), fun m hm => ?_⟩
        obtain ⟨v, r, hv, rfl, hr⟩ := ih.2 m hm
        exact ⟨c :: v, r, .symbol ho hc hv, rfl, hr⟩
termination_by _ w => w.length
decreasing_by all_goals (subst_vars; simp +arith)

/-- **Nesting is decided by counting.** -/
theorem wellNested_iff (w : Word) : WellNested w ↔ closes 0 w = true := by
  refine ⟨fun h => ?_, fun h => (wellNested_of_closes 0 w h).1 rfl⟩
  have := closes_append h 0 []
  rw [List.append_nil] at this
  rw [this]; rfl

instance (w : Word) : Decidable (WellNested w) := decidable_of_iff _ (wellNested_iff w).symm

/-! ## What is left of a text -/

/-- A piece of what is left of a text: a symbol with something told of it, or a mark in place of a closed group. -/
inductive Piece (α : Type) where
  | symbol (c : Char) (a : α)
  | group
  deriving DecidableEq, Repr

namespace Piece

variable {α β : Type}

/-- The pieces before each open bracket, the latest bracket and the last piece first. -/
def opens : List (Piece α) → List (List (Piece α))
  | [] => []
  | symbol c _ :: ps => if c = '[' then ps :: opens ps else opens ps
  | group :: ps => opens ps

/-- What is left after one more symbol: a `]` closes the latest open bracket, if there is one. -/
def read (ps : List (Piece α)) (c : Char) (a : α) : List (Piece α) :=
  if c = ']' then
    match (opens ps).head? with
    | some before => group :: before
    | none => symbol c a :: ps
  else symbol c a :: ps

/-- What is left after a text of symbols that something is told of. -/
def readAll (ps : List (Piece α)) (text : List (Char × α)) : List (Piece α) :=
  text.foldl (fun ps x => read ps x.1 x.2) ps

/-- What is told of the last `F` that is left. -/
def lastForward? : List (Piece α) → Option α
  | [] => none
  | symbol c a :: ps => if c = 'F' then some a else lastForward? ps
  | group :: ps => lastForward? ps

/-- The piece with what is told of it changed. -/
def map (f : α → β) : Piece α → Piece β
  | symbol c a => symbol c (f a)
  | group => group

/-- A piece with nothing told of it. -/
def bare : Piece α → Piece Unit := map fun _ => ()

@[simp] theorem bare_symbol (c : Char) (a : α) : bare (symbol c a) = symbol c () := rfl

@[simp] theorem bare_group : bare (group : Piece α) = group := rfl

@[simp] theorem readAll_nil (ps : List (Piece α)) : readAll ps [] = ps := rfl

@[simp] theorem readAll_cons (ps : List (Piece α)) (x : Char × α) (text : List (Char × α)) :
    readAll ps (x :: text) = readAll (read ps x.1 x.2) text := rfl

/-! ### Open brackets -/

@[simp] theorem opens_group (ps : List (Piece α)) : opens (group :: ps) = opens ps := rfl

/-- The open brackets before the latest one. -/
theorem opens_of_opens {ps q : List (Piece α)} {qs : List (List (Piece α))} (h : opens ps = q :: qs) : opens q = qs := by
  induction ps with
  | nil => simp [opens] at h
  | cons x ps ih =>
    cases x with
    | group => exact ih h
    | symbol c a =>
      unfold opens at h
      split at h
      · obtain ⟨rfl, rfl⟩ := List.cons.inj h; rfl
      · exact ih h

/-- A `[` is one more open bracket. -/
theorem opens_read_open (ps : List (Piece α)) (a : α) : opens (read ps '[' a) = ps :: opens ps := by
  simp [read, opens]

/-- A `]` takes the latest open bracket away. -/
theorem opens_read_close (ps : List (Piece α)) (a : α) : opens (read ps ']' a) = (opens ps).tail := by
  cases h : opens ps with
  | nil => simp [read, h, opens]
  | cons q qs => simp [read, h, opens_of_opens h]

/-- Other symbols leave the open brackets alone. -/
theorem opens_read_of_ne {c : Char} (ho : c ≠ '[') (hc : c ≠ ']') (ps : List (Piece α)) (a : α) :
    opens (read ps c a) = opens ps := by
  simp [read, opens, ho, hc]

/-! ### What is told changes nothing -/

theorem opens_map (f : α → β) (ps : List (Piece α)) :
    opens (ps.map (map f)) = (opens ps).map (List.map (map f)) := by
  induction ps with
  | nil => rfl
  | cons x ps ih =>
    cases x with
    | group => exact ih
    | symbol c a =>
      by_cases hc : c = '['
      · simp [map, opens, hc, ih]
      · simp [map, opens, hc, ih]

theorem read_map (f : α → β) (ps : List (Piece α)) (c : Char) (a : α) :
    read (ps.map (map f)) c (f a) = (read ps c a).map (map f) := by
  by_cases hc : c = ']'
  · cases h : opens ps <;> simp [read, hc, opens_map, h, map]
  · simp [read, hc, map]

/-- What is left does not depend on what is told. -/
theorem readAll_map (f : α → β) (ps : List (Piece α)) (text : List (Char × α)) :
    readAll (ps.map (map f)) (text.map fun x => (x.1, f x.2)) = (readAll ps text).map (map f) := by
  induction text generalizing ps with
  | nil => rfl
  | cons x text ih =>
    simp only [List.map_cons, readAll_cons]
    rw [read_map, ih]

theorem lastForward?_map (f : α → β) (ps : List (Piece α)) :
    lastForward? (ps.map (map f)) = (lastForward? ps).map f := by
  induction ps with
  | nil => rfl
  | cons x ps ih =>
    cases x with
    | group => exact ih
    | symbol c a =>
      by_cases hc : c = 'F'
      · simp [map, lastForward?, hc]
      · simpa [map, lastForward?, hc] using ih

/-! ### Pieces come from the text -/

/-- What is left before an open bracket is part of what is left. -/
theorem mem_of_mem_opens {x : Piece α} {q : List (Piece α)} :
    ∀ {ps : List (Piece α)}, q ∈ opens ps → x ∈ q → x ∈ ps
  | [], hq, _ => by simp [opens] at hq
  | group :: _, hq, hx => List.mem_cons_of_mem _ (mem_of_mem_opens (by simpa [opens] using hq) hx)
  | symbol c a :: ps, hq, hx => by
    by_cases hc : c = '['
    · rcases List.mem_cons.mp (by simpa [opens, hc] using hq : q ∈ ps :: opens ps) with rfl | hq
      · exact List.mem_cons_of_mem _ hx
      · exact List.mem_cons_of_mem _ (mem_of_mem_opens hq hx)
    · exact List.mem_cons_of_mem _ (mem_of_mem_opens (by simpa [opens, hc] using hq) hx)

theorem mem_read {ps : List (Piece α)} {c d : Char} {a b : α} (h : symbol d b ∈ read ps c a) :
    symbol d b ∈ ps ∨ (d, b) = (c, a) := by
  unfold read at h
  split at h
  · split at h
    · rename_i before hb
      have hq : before ∈ opens ps := List.mem_of_mem_head? hb
      exact Or.inl (mem_of_mem_opens hq (by simpa using h))
    · simpa [or_comm, Prod.ext_iff] using h
  · simpa [or_comm, Prod.ext_iff] using h

/-- A symbol that is left is a symbol of the text. -/
theorem mem_readAll {ps : List (Piece α)} {text : List (Char × α)} {d : Char} {b : α}
    (h : symbol d b ∈ readAll ps text) : symbol d b ∈ ps ∨ (d, b) ∈ text := by
  induction text generalizing ps with
  | nil => exact Or.inl h
  | cons x text ih =>
    rcases ih h with h | h
    · rcases mem_read h with h | h
      · exact Or.inl h
      · exact Or.inr (List.mem_cons.mpr (Or.inl h))
    · exact Or.inr (List.mem_cons_of_mem _ h)

theorem mem_of_lastForward? {a : α} : ∀ {ps : List (Piece α)}, lastForward? ps = some a → symbol 'F' a ∈ ps
  | [], h => by simp [lastForward?] at h
  | group :: _, h => List.mem_cons_of_mem _ (mem_of_lastForward? (by simpa [lastForward?] using h))
  | symbol c b :: ps, h => by
    by_cases hc : c = 'F'
    · subst hc
      have hb : b = a := by simpa [lastForward?] using h
      rw [hb]; exact List.mem_cons_self
    · exact List.mem_cons_of_mem _ (mem_of_lastForward? (by simpa [lastForward?, hc] using h))

end Piece

/-! ## Parents -/

/-- The position of the last `F` that is left of a word when its closed groups are taken out. -/
def Word.parent? (u : Word) : Option Nat := Piece.lastForward? (Piece.readAll [] u.zipIdx)

/-- The parent of what follows a word is an `F` of the word. -/
theorem Word.getElem?_of_parent? {u : Word} {j : Nat} (h : Word.parent? u = some j) : u[j]? = some 'F' := by
  rcases Piece.mem_readAll (Piece.mem_of_lastForward? h) with h | h
  · cases h
  · simpa using List.mem_zipIdx_iff_getElem?.mp h

example : Word.parent? "]F[+F[F]]]-[X".toList = some 1 := by decide

/-! ## Counts of what is left -/

/-- What is left of a word when a mark takes the place of every closed group, the last piece first. -/
def Word.left (u : Word) : List (Piece Unit) := Piece.readAll [] (u.map fun c => (c, ()))

/-- How often a symbol is left of a word when its closed groups are taken out. -/
def Word.countLeft (u : Word) (c : Char) : Nat := (Word.left u).count (.symbol c ())

/-- How many closed groups of a word lie in no other closed group. -/
def Word.groups (u : Word) : Nat := (Word.left u).count .group

example : Word.countLeft "][+[F]-[F]][".toList '[' = 1 ∧ Word.countLeft "][+[F]-[F]][".toList ']' = 1 ∧
    Word.groups "][+[F]-[F]][".toList = 1 := by decide

end TurtlePlant
