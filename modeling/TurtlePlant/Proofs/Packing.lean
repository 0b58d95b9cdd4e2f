import Mathlib.Data.List.Forall2
import Mathlib.Data.Set.List
import TurtlePlant.Archive.Listing
import TurtlePlant.Proofs.Integers
import TurtlePlant.Proofs.Ledger

/-!
# Branches as tables

A table is typed when its columns are those of branches in their usual order and each cell has the shape of its field and
holds machine numbers (`Table.IsTyped`). Such a table is the table of some branches of machine numbers
(`IsTyped.exists_pack`), and those are in their stored forms (`Branch.settled?_of_ofMachine`), so packing and unpacking undo
each other.

Rows are written in an order of their own, in which each cell comes to stand under the name of its field (`cell?_pack`).
Unpacking looks cells up by name. So it does not depend on the order of the columns (`branch_congr`,
`unpack_of_sameColumns`), and it is refused when the names are not those of the fields (`holdsBranches_iff`). All of this
together is `packing_inverse`.
-/

namespace TurtlePlant

/-! ## Lists -/

/-- What stands under a name does not depend on the order of the names. -/
theorem lookup_eq_of_perm {β : Type} {l l' : List (String × β)} (h : l.Perm l') (hnodup : (l.map Prod.fst).Nodup)
    (name : String) : l.lookup name = l'.lookup name := by
  induction h with
  | nil => rfl
  | cons p h ih => rw [List.lookup_cons, List.lookup_cons, ih (List.nodup_cons.mp hnodup).2]
  | swap p q l =>
    have hne : q.1 ≠ p.1 := fun heq => (List.nodup_cons.mp hnodup).1 (heq ▸ List.mem_cons_self)
    rw [List.lookup_cons, List.lookup_cons, List.lookup_cons, List.lookup_cons]
    by_cases hq : name = q.1
    · rw [beq_false_of_ne (hq ▸ hne : name ≠ p.1)]
    · rw [beq_false_of_ne hq]
  | trans h _ ih ih' => exact (ih hnodup).trans (ih' ((h.map Prod.fst).nodup_iff.mp hnodup))

/-- Two lists are turned into the same when their elements are, one by one. -/
theorem mapM_congr {ε α β γ : Type} {f : α → Except ε γ} {g : β → Except ε γ} {l : List α} {l' : List β}
    (h : List.Forall₂ (fun a b => f a = g b) l l') : l.mapM f = l'.mapM g := by
  induction h with
  | nil => rfl
  | cons hab _ ih => rw [List.mapM_cons, List.mapM_cons, hab, ih]

/-! ## Cells -/

/-- The shapes that cells have. -/
inductive Shape where
  | number | triple | quadruple
  deriving DecidableEq

/-- The shape of the cells in the column of a field. -/
def Field.shape : Field → Shape
  | .start | .stop | .colour => .triple
  | .orientation => .quadruple
  | .length | .radiusStart | .radiusEnd | .depth => .number

namespace Cell

variable {R : Type} {c : Cell R}

/-- How many numbers a cell has. -/
def shape : Cell R → Shape
  | number _ => .number
  | triple .. => .triple
  | quadruple .. => .quadruple

theorem eq_number (h : c.shape = .number) : ∃ x, c = number x := by
  cases c with
  | number x => exact ⟨x, rfl⟩
  | triple x y z => cases h
  | quadruple x y z w => cases h

theorem eq_triple (h : c.shape = .triple) : ∃ x y z, c = triple x y z := by
  cases c with
  | number x => cases h
  | triple x y z => exact ⟨x, y, z, rfl⟩
  | quadruple x y z w => cases h

theorem eq_quadruple (h : c.shape = .quadruple) : ∃ x y z w, c = quadruple x y z w := by
  cases c with
  | number x => cases h
  | triple x y z => cases h
  | quadruple x y z w => exact ⟨x, y, z, w, rfl⟩

/-- A cell of machine numbers. -/
def OfMachine (c : Cell Quantity) : Prop := ∀ x ∈ c.numbers, x.isMachine = true

instance (c : Cell Quantity) : Decidable c.OfMachine := inferInstanceAs (Decidable (∀ x ∈ c.numbers, x.isMachine = true))

end Cell

/-! ## Branches of machine numbers -/

theorem Branch.shape_cell {R : Type} (b : Branch R) (f : Field) : (b.cell f).shape = f.shape := by cases f <;> rfl

/-- A branch of machine numbers. -/
def Branch.OfMachine (b : Branch Quantity) : Prop := ∀ f, (b.cell f).OfMachine

theorem Vec3.settled?_of_ofMachine {v : Vec3 Quantity} (h : (Cell.triple v.x v.y v.z).OfMachine) :
    v.settled? = .ok v := by
  have hx := Quantity.settled?_of_isMachine (h v.x (by simp [Cell.numbers]))
  have hy := Quantity.settled?_of_isMachine (h v.y (by simp [Cell.numbers]))
  have hz := Quantity.settled?_of_isMachine (h v.z (by simp [Cell.numbers]))
  unfold settled?
  rw [hx, hy, hz]
  rfl

theorem Quaternion.settled?_of_ofMachine {q : Quaternion Quantity} (h : (Cell.quadruple q.x q.y q.z q.w).OfMachine) :
    q.settled? = .ok q := by
  have hx := Quantity.settled?_of_isMachine (h q.x (by simp [Cell.numbers]))
  have hy := Quantity.settled?_of_isMachine (h q.y (by simp [Cell.numbers]))
  have hz := Quantity.settled?_of_isMachine (h q.z (by simp [Cell.numbers]))
  have hw := Quantity.settled?_of_isMachine (h q.w (by simp [Cell.numbers]))
  unfold settled?
  rw [hx, hy, hz, hw]
  rfl

/-- **A branch of machine numbers is in its stored form.** -/
theorem Branch.settled?_of_ofMachine {b : Branch Quantity} (h : b.OfMachine) : b.settled? = .ok b := by
  have hnumber : ∀ {x : Quantity}, (Cell.number x).OfMachine → TurtlePlant.settled? x = .ok x :=
    fun hx => Quantity.settled?_of_isMachine (hx _ List.mem_cons_self)
  have hcolour : b.colour.OfMachine :=
    ⟨h .colour _ (by simp [cell, Cell.numbers]), h .colour _ (by simp [cell, Cell.numbers]),
      h .colour _ (by simp [cell, Cell.numbers])⟩
  unfold settled?
  rw [Vec3.settled?_of_ofMachine (h .start), Vec3.settled?_of_ofMachine (h .stop),
    Quaternion.settled?_of_ofMachine (h .orientation), hnumber (h .length), hnumber (h .radiusStart),
    hnumber (h .radiusEnd), Rgb.settled?_of_ofMachine hcolour, hnumber (h .depth)]
  rfl

/-! ## Typed tables -/

namespace Table

/-- A table with the columns of branches in their usual order, with cells of the shapes of the fields and of machine
numbers. -/
structure IsTyped (t : Table Quantity) : Prop where
  header : t.header = Field.names
  shapes : ∀ row ∈ t.rows, row.map Cell.shape = Field.all.map Field.shape
  machine : ∀ row ∈ t.rows, ∀ c ∈ row, c.OfMachine

/-- Cells of the shapes of the fields are the row of a branch. -/
theorem exists_branch_of_shapes {R : Type} {row : List (Cell R)} (h : row.map Cell.shape = Field.all.map Field.shape) :
    ∃ b : Branch R, b.row = row := by
  obtain ⟨start, _, rfl, hstart, h⟩ := List.map_eq_cons_iff.mp h
  obtain ⟨stop, _, rfl, hstop, h⟩ := List.map_eq_cons_iff.mp h
  obtain ⟨orientation, _, rfl, horientation, h⟩ := List.map_eq_cons_iff.mp h
  obtain ⟨length, _, rfl, hlength, h⟩ := List.map_eq_cons_iff.mp h
  obtain ⟨radiusStart, _, rfl, hradiusStart, h⟩ := List.map_eq_cons_iff.mp h
  obtain ⟨radiusEnd, _, rfl, hradiusEnd, h⟩ := List.map_eq_cons_iff.mp h
  obtain ⟨colour, _, rfl, hcolour, h⟩ := List.map_eq_cons_iff.mp h
  obtain ⟨depth, _, rfl, hdepth, h⟩ := List.map_eq_cons_iff.mp h
  obtain rfl := List.map_eq_nil_iff.mp h
  obtain ⟨x₁, y₁, z₁, rfl⟩ := Cell.eq_triple hstart
  obtain ⟨x₂, y₂, z₂, rfl⟩ := Cell.eq_triple hstop
  obtain ⟨x, y, z, w, rfl⟩ := Cell.eq_quadruple horientation
  obtain ⟨length, rfl⟩ := Cell.eq_number hlength
  obtain ⟨radiusStart, rfl⟩ := Cell.eq_number hradiusStart
  obtain ⟨radiusEnd, rfl⟩ := Cell.eq_number hradiusEnd
  obtain ⟨red, green, blue, rfl⟩ := Cell.eq_triple hcolour
  obtain ⟨depth, rfl⟩ := Cell.eq_number hdepth
  exact ⟨⟨⟨x₁, y₁, z₁⟩, ⟨x₂, y₂, z₂⟩, ⟨x, y, z, w⟩, length, radiusStart, radiusEnd, ⟨red, green, blue⟩, depth⟩, rfl⟩

/-- **A typed table is the table of some branches of machine numbers.** -/
theorem IsTyped.exists_pack {t : Table Quantity} (h : t.IsTyped) :
    ∃ bs : List (Branch Quantity), t = pack bs ∧ ∀ b ∈ bs, b.OfMachine := by
  have hrows : t.rows ∈ Set.range (List.map (Branch.row : Branch Quantity → _)) := by
    rw [Set.range_list_map]
    exact fun row hrow => exists_branch_of_shapes (h.shapes row hrow)
  obtain ⟨bs, hbs⟩ := hrows
  refine ⟨bs, ?_, fun b hb f => ?_⟩
  · cases t with
    | mk header rows aligned =>
      obtain rfl : header = Field.names := h.header
      obtain rfl := hbs
      rfl
  · have hrow : b.row ∈ t.rows := hbs ▸ List.mem_map_of_mem hb
    have hcell : b.cell f ∈ b.row := b.row_eq ▸ List.mem_map_of_mem f.mem_all
    exact h.machine _ hrow _ hcell

theorem isTyped_pack {bs : List (Branch Quantity)} (h : ∀ b ∈ bs, b.OfMachine) : (pack bs).IsTyped where
  header := rfl
  shapes row hrow := by
    obtain ⟨b, -, rfl⟩ := List.mem_map.mp hrow
    rw [b.row_eq, List.map_map]
    exact List.map_congr_left fun f _ => b.shape_cell f
  machine row hrow c hc := by
    obtain ⟨b, hb, rfl⟩ := List.mem_map.mp hrow
    rw [b.row_eq] at hc
    obtain ⟨f, -, rfl⟩ := List.mem_map.mp hc
    exact h b hb f

theorem pack?_of_ofMachine {bs : List (Branch Quantity)} (h : ∀ b ∈ bs, b.OfMachine) : pack? bs = .ok (pack bs) := by
  unfold pack?
  rw [mapM_self fun b hb => Branch.settled?_of_ofMachine (h b hb)]
  rfl

/-! ## Columns in another order -/

section Columns

variable {R : Type} {t t' : Table R}

/-- Tables with the same columns, each in an order of its own: row by row, the same cells stand under the same names. -/
structure SameColumns (t t' : Table R) : Prop where
  header : t.header.Perm t'.header
  rows : List.Forall₂ (fun row row' => (t.header.zip row).Perm (t'.header.zip row')) t.rows t'.rows

/-- A branch is read by the names of the cells. -/
theorem branch_congr {row row' : List (Cell R)} (h : ∀ name, t.cell? row name = t'.cell? row' name) :
    t.branch row = t'.branch row' := by
  unfold branch triple quadruple number
  simp only [h]

theorem holdsBranches_iff : t.holdsBranches = true ↔ ∀ name, name ∈ t.header ↔ name ∈ Field.names := by
  simp only [holdsBranches, Bool.and_eq_true, List.all_eq_true, List.contains_iff_mem]
  constructor
  · rintro ⟨hfields, hheader⟩ name
    exact ⟨hheader name, hfields name⟩
  · intro h
    exact ⟨fun name => (h name).mpr, fun name => (h name).mp⟩

theorem unpack_of_perm (ht : t.header.Perm Field.names) : (Dataset.table t).unpack = t.rows.mapM t.branch :=
  if_pos (holdsBranches_iff.mpr fun _ => ht.mem_iff)

/-- **Unpacking does not depend on the order of the columns.** -/
theorem unpack_of_sameColumns (ht : t.header.Perm Field.names) (h : t.SameColumns t') :
    (Dataset.table t).unpack = (Dataset.table t').unpack := by
  have hnodup : t.header.Nodup := ht.nodup_iff.mpr (by decide)
  rw [unpack_of_perm ht, unpack_of_perm (h.header.symm.trans ht)]
  refine mapM_congr (((List.forall₂_and_left _ _).mpr ⟨t.aligned, h.rows⟩).imp ?_)
  rintro row row' ⟨hlength, hperm⟩
  refine branch_congr fun name => lookup_eq_of_perm hperm ?_ name
  rw [List.map_fst_zip hlength.ge]
  exact hnodup

end Columns

/-- Every field of a packed branch stands under its own name. -/
theorem cell?_pack {R : Type} (bs : List (Branch R)) (b : Branch R) (f : Field) :
    (pack bs).cell? b.row f.name = some (b.cell f) := by cases f <;> rfl

end Table

/-- **Packing and unpacking undo each other**, and the order of the columns does not matter. Branches of machine numbers make
a typed table with every field under its own name, which gives them back; a typed table gives branches of machine numbers,
which make it again. Every other order of the same columns gives the same branches. An array without columns, or with a name
too few or too many, gives none, however few rows it has. -/
theorem packing_inverse {R : Type} :
    (∀ bs : List (Branch Quantity), (∀ b ∈ bs, b.OfMachine) → ∃ t, Table.pack? bs = .ok t ∧ t.IsTyped ∧
      List.Forall₂ (fun b row => ∀ f : Field, t.cell? row f.name = some (b.cell f)) bs t.rows ∧
      (Dataset.table t).unpack = .ok bs) ∧
    (∀ t : Table Quantity, t.IsTyped → ∃ bs, (∀ b ∈ bs, b.OfMachine) ∧ (Dataset.table t).unpack = .ok bs ∧
      Table.pack? bs = .ok t) ∧
    (∀ t t' : Table R, t.header.Perm Field.names → t.SameColumns t' →
      (Dataset.table t).unpack = (Dataset.table t').unpack) ∧
    (Dataset.plain : Dataset R).unpack = .error (.wrongFields none) ∧
    ∀ (t : Table R) (name : String), ¬ (name ∈ t.header ↔ name ∈ Field.names) →
      (Dataset.table t).unpack = .error (.wrongFields (some t.header)) := by
  refine ⟨?_, ?_, fun _ _ => Table.unpack_of_sameColumns, rfl, ?_⟩
  · intro bs hbs
    refine ⟨.pack bs, Table.pack?_of_ofMachine hbs, Table.isTyped_pack hbs, ?_, Dataset.unpack_pack bs⟩
    exact List.forall₂_map_right_iff.mpr (List.forall₂_same.mpr fun b _ f => Table.cell?_pack bs b f)
  · intro t ht
    obtain ⟨bs, rfl, hbs⟩ := ht.exists_pack
    exact ⟨bs, hbs, Dataset.unpack_pack bs, Table.pack?_of_ofMachine hbs⟩
  · intro t name hname
    have hforeign : t.holdsBranches = false :=
      Bool.eq_false_iff.mpr fun h => hname (Table.holdsBranches_iff.mp h name)
    exact Dataset.unpack_of_foreign hforeign

/-- A branch with a value that is no number, a negative zero and an infinite length, its columns in the opposite order, and
no branches without the first column. -/
theorem packing_inverse_odd :
    let b : Branch Quantity := ⟨⟨.machine (0.0 / 0.0), .machine (-0.0), .machine 0.0⟩, .up, .identity,
      .machine (1.0 / 0.0), 0.25, 0.5, ⟨0.125, 0.25, 0.375⟩, 0.75⟩
    let reversed : Table Quantity := ⟨Field.names.reverse, [(Field.all.map b.cell).reverse], by simp [Field.names]⟩
    let headless : Table Quantity := ⟨Field.names.tail, [], by simp⟩
    b.OfMachine ∧ (∃ t, Table.pack? [b] = .ok t ∧ t.IsTyped ∧ t.SameColumns reversed ∧
        (Dataset.table t).unpack = .ok [b] ∧ (Dataset.table reversed).unpack = .ok [b]) ∧
      (Dataset.table headless).unpack = .error (.wrongFields (some Field.names.tail)) := by
  intro b reversed headless
  have hb : b.OfMachine := by
    intro f
    cases f <;> decide
  obtain ⟨hpack, -, horder, -, hforeign⟩ := packing_inverse (R := Quantity)
  have hbs : ∀ c ∈ [b], c.OfMachine := List.forall_mem_singleton.mpr hb
  obtain ⟨t, ht, htyped, -, hunpack⟩ := hpack [b] hbs
  obtain rfl : .pack [b] = t := Except.ok.inj ((Table.pack?_of_ofMachine hbs).symm.trans ht)
  have hsame : (Table.pack [b]).SameColumns reversed :=
    ⟨(List.reverse_perm _).symm, .cons (List.reverse_perm _).symm .nil⟩
  have hfirst : ¬ ("start" ∈ Field.names.tail ↔ "start" ∈ Field.names) := by decide
  exact ⟨hb, ⟨_, ht, htyped, hsame, hunpack, (horder _ _ (.refl _) hsame).symm.trans hunpack⟩, hforeign headless _ hfirst⟩

end TurtlePlant
