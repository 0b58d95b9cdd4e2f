import TurtlePlant.Word

/-!
# Lengths of generations

Rules are lasting when no production is empty (`Rules.Lasting`). Then a symbol is replaced by at least one symbol, so one
generation never shrinks a word (`Lasting.length_le_derive`), and it keeps its length when every symbol of the word is
replaced by exactly one (`Lasting.length_derive_eq_iff`). A symbol with an empty production is gone after one generation of
it alone (`length_derive_of_erased`), so generations never shrink under lasting rules only (`generations_grow_iff_lasting`).
-/

namespace TurtlePlant

namespace Rules

variable {rs : Rules} {c : Char}

/-! ## Productions -/

/-- A production that was given is found. -/
theorem mem_entries_iff {p : Word} : (c, p) ∈ rs.entries ↔ rs.find? c = some p := mem_iff_lookup rs.distinct

/-- Rules by which no symbol is erased. -/
def Lasting (rs : Rules) : Prop := ∀ e ∈ rs.entries, e.2 ≠ []

instance (rs : Rules) : Decidable rs.Lasting := inferInstanceAs (Decidable (∀ e ∈ rs.entries, _))

/-- Under lasting rules every symbol is replaced by something. -/
theorem Lasting.length_production_pos (h : rs.Lasting) (c : Char) : 0 < (rs.production c).length := by
  rcases rs.production_cases c with hc | hc
  · exact List.length_pos_iff.mpr (h _ hc)
  · simp [hc]

/-- A symbol is replaced by one symbol when it has no rule or a production of length one. -/
theorem length_production_eq_one_iff (rs : Rules) (c : Char) :
    (rs.production c).length = 1 ↔ rs.find? c = none ∨ ∃ p, rs.find? c = some p ∧ p.length = 1 := by
  unfold production
  cases rs.find? c <;> simp

/-! ## One generation -/

/-- **One generation never shrinks a word** under lasting rules. -/
theorem Lasting.length_le_derive (h : rs.Lasting) (w : Word) : w.length ≤ (rs.derive w).length := by
  induction w with
  | nil => simp
  | cons c w ih =>
    have hc := h.length_production_pos c
    rw [derive_cons, List.length_append, List.length_cons]
    omega

/-- **It keeps the length of a word** when it replaces every symbol by one symbol. -/
theorem Lasting.length_derive_eq_iff (h : rs.Lasting) (w : Word) :
    (rs.derive w).length = w.length ↔ ∀ c ∈ w, (rs.production c).length = 1 := by
  induction w with
  | nil => simp
  | cons c w ih =>
    -- neither the symbol nor the rest can make up for what the other one gains
    have hc := h.length_production_pos c
    have hw := h.length_le_derive w
    rw [derive_cons, List.length_append, List.length_cons, List.forall_mem_cons, ← ih]
    omega

/-- An erased symbol alone leaves nothing. -/
theorem length_derive_of_erased (h : (c, []) ∈ rs.entries) : (rs.derive [c]).length = 0 := by
  have hc : rs.production c = [] := by
    unfold production
    rw [mem_entries_iff.mp h]
    rfl
  simp [hc]

/-! ## All generations -/

/-- The next generation is derived from the one before. -/
theorem expand_succ_eq_derive (rs : Rules) (n : Nat) (w : Word) : rs.expand (n + 1) w = rs.derive (rs.expand n w) :=
  rs.expand_add n 1 w

/-- **Generations never shrink exactly when no rule erases**: they do not, whatever the start word is, if and only if no
production is empty. Then a generation is as long as the one before it if and only if every symbol of that one has no rule or
a production of length one. -/
theorem generations_grow_iff_lasting (rs : Rules) :
    ((∀ (w : Word) (n : Nat), (rs.expand n w).length ≤ (rs.expand (n + 1) w).length) ↔ rs.Lasting) ∧
    (rs.Lasting → ∀ (w : Word) (n : Nat), (rs.expand n w).length = (rs.expand (n + 1) w).length ↔
      ∀ c ∈ rs.expand n w, rs.find? c = none ∨ ∃ p, rs.find? c = some p ∧ p.length = 1) := by
  refine ⟨⟨?_, ?_⟩, ?_⟩
  · rintro hgrow ⟨c, p⟩ he rfl
    have hle : [c].length ≤ (rs.derive [c]).length := hgrow [c] 0
    rw [length_derive_of_erased he] at hle
    exact absurd hle (by simp)
  · intro hlasting w n
    rw [expand_succ_eq_derive]
    exact hlasting.length_le_derive _
  · intro hlasting w n
    rw [expand_succ_eq_derive, eq_comm, hlasting.length_derive_eq_iff]
    simp only [length_production_eq_one_iff]

/-- Rules that rename two symbols and let a third one grow: a word of the first two and of turns stays as long as it is, and
one with the third does not. -/
theorem generations_grow_iff_lasting_renaming :
    let rs := Rules.ofList [('X', "Y".toList), ('Y', "X".toList), ('F', "FX".toList)]
    rs.Lasting ∧ (∀ w n, (rs.expand n w).length ≤ (rs.expand (n + 1) w).length) ∧
      (rs.expand 2 "X+Y".toList).length = (rs.expand 3 "X+Y".toList).length ∧
      (rs.expand 2 "X+F".toList).length ≠ (rs.expand 3 "X+F".toList).length := by
  intro rs
  have hlasting : rs.Lasting := by decide
  obtain ⟨hgrow, hkeep⟩ := generations_grow_iff_lasting rs
  refine ⟨hlasting, hgrow.mpr hlasting, (hkeep hlasting _ 2).mpr ?_, ?_⟩
  · have hword : rs.expand 2 "X+Y".toList = ['X', '+', 'Y'] := by decide
    rw [hword]
    simp only [List.forall_mem_cons]
    exact ⟨Or.inr ⟨_, rfl, rfl⟩, Or.inl rfl, Or.inr ⟨_, rfl, rfl⟩, by simp⟩
  · intro h
    have hF : 'F' ∈ rs.expand 2 "X+F".toList := by decide
    have hone := (rs.length_production_eq_one_iff 'F').mpr ((hkeep hlasting _ 2).mp h 'F' hF)
    have htwo : (rs.production 'F').length = 2 := by decide
    omega

end Rules

end TurtlePlant
