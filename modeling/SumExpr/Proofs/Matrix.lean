import Mathlib.Data.List.Infix
import Mathlib.Data.List.Nodup
import SumExpr.Matrix
import SumExpr.Proofs.Scan.Basic
import SumExpr.Proofs.Table.Basic

/-! # The matrix read as a scanner

Ordinals count the states and the symbols in the order in which they are listed, and the rows and
columns of the matrix stand in that order. So every cell is found under the ordinals of its state
and its symbol (`cell?_eq_some_iff`). Whoever takes each cell for the number of the next row
therefore stays within the matrix, and comes through the ordinals of the scanner's states
(`numbers?_ordinal`). It makes no difference that the scanner stops early and this walk does not. -/
namespace SumExpr

/-! ## Ordinals are places -/

/-- If every element has its place in a list, it stands nowhere else. -/
theorem getElem?_iff_of_places {α : Type} {l : List α} (hl : l.Nodup) {place : α → Nat}
    (hplace : ∀ a, l[place a]? = some a) {i : Nat} {a : α} : l[i]? = some a ↔ i = place a := by
  constructor
  · intro h
    have hlt : i < l.length := (List.getElem?_eq_some_iff.mp h).1
    exact (List.getElem?_inj hlt hl).mp (h.trans (hplace a).symm)
  · rintro rfl
    exact hplace a

theorem State.getElem?_all_iff {i : Nat} {s : State} : all[i]? = some s ↔ i = s.ordinal :=
  getElem?_iff_of_places (by decide) fun s => by cases s <;> rfl

theorem Symbol.getElem?_all_iff {j : Nat} {y : Symbol} : all[j]? = some y ↔ j = y.ordinal :=
  getElem?_iff_of_places (by decide) fun y => by cases y <;> rfl

namespace Matrix

/-! ## Cells -/

/-- What stands in a row and a column, if there are such a row and such a column. -/
def cell? (i j : Nat) : Option Nat := rows[i]?.bind (·[j]?)

theorem cell?_eq_some_iff {i j n : Nat} :
    cell? i j = some n ↔
      ∃ (s : State) (y : Symbol), i = s.ordinal ∧ j = y.ordinal ∧ n = (s.next y).ordinal := by
  simp only [cell?, rows, Option.bind_eq_some_iff, List.getElem?_map, Option.map_eq_some_iff,
    State.getElem?_all_iff]
  constructor
  · rintro ⟨_, ⟨s, hs, rfl⟩, hcell⟩
    simp only [List.getElem?_map, Option.map_eq_some_iff, Symbol.getElem?_all_iff] at hcell
    obtain ⟨y, hy, hn⟩ := hcell
    exact ⟨s, y, hs, hy, hn.symm⟩
  · rintro ⟨s, y, hs, hy, rfl⟩
    refine ⟨_, ⟨s, hs, rfl⟩, ?_⟩
    rw [List.getElem?_map, Symbol.getElem?_all_iff.mpr hy, Option.map_some]

theorem cell?_ordinal (s : State) (y : Symbol) :
    cell? s.ordinal y.ordinal = some (s.next y).ordinal :=
  cell?_eq_some_iff.mpr ⟨s, y, rfl, rfl, rfl⟩

/-- A cell is found just if both numbers are within the matrix. -/
theorem exists_getElem_of_cell? {i j n : Nat} (h : cell? i j = some n) :
    ∃ (hi : i < rows.length) (hj : j < rows[i].length), rows[i][j] = n := by
  obtain ⟨row, hrow, hcell⟩ := Option.bind_eq_some_iff.mp h
  obtain ⟨hi, rfl⟩ := List.getElem?_eq_some_iff.mp hrow
  obtain ⟨hj, hn⟩ := List.getElem?_eq_some_iff.mp hcell
  exact ⟨hi, hj, hn⟩

/-! ## Walks over the matrix -/

/-- The numbers that a walk from row `i` comes to, the first one included. Each is the row in which
the next character is looked up, under its symbol; outside of the matrix there is no walk. -/
def numbers? (i : Nat) : Text → Option (List Nat)
  | [] => some [i]
  | c :: rest => do
    let n ← cell? i (Symbol.classify [c]).ordinal
    return i :: (← numbers? n rest)

/-- From a state on, the walk comes to the ordinals of the states that the heads of the text lead
to. -/
theorem numbers?_ordinal (s : State) (text : Text) :
    numbers? s.ordinal text = some (text.inits.map fun p => (Scan.run s p).ordinal) := by
  induction text generalizing s with
  | nil => rfl
  | cons c rest ih =>
    have hstep : cell? s.ordinal (Symbol.classify [c]).ordinal =
        some (s.next (.ofChar c)).ordinal := cell?_ordinal s (.ofChar c)
    rw [numbers?, hstep, Option.bind_eq_bind, Option.bind_some, ih, List.inits_cons, List.map_cons,
      List.map_map]
    simp only [Function.comp_def, Scan.run_cons]
    rfl

end Matrix

/-- **The matrix does what the scanner does.** From the ordinal of the initial state on, with the
ordinal of each character's symbol as the column and each cell as the next row, all numbers are
within the matrix, and behind every head of the text stands the ordinal of the state that the
scanner rests in after it. The cells of the matrix are those of the scanner's table, under the
ordinals of their states and symbols, and there are no others. -/
theorem matrix_follows_scanner :
    (∀ text : Text, Matrix.numbers? State.initial.ordinal text =
      some (text.inits.map fun p => (finalState p).ordinal)) ∧
    (∀ (p : Text) (c : Char),
      ∃ (hi : (finalState p).ordinal < Matrix.rows.length)
        (hj : (Symbol.classify [c]).ordinal < Matrix.rows[(finalState p).ordinal].length),
        Matrix.rows[(finalState p).ordinal][(Symbol.classify [c]).ordinal] =
          (finalState (p ++ [c])).ordinal) ∧
    ∀ i j n : Nat, Matrix.cell? i j = some n ↔
      ∃ (s : State) (y : Symbol) (t : State), i = s.ordinal ∧ j = y.ordinal ∧ n = t.ordinal ∧
        FrozenTable.builtin.cell? (Atom.state s).key (Atom.symbol y).key =
          some (.atom (.state t)) := by
  refine ⟨?_, ?_, ?_⟩
  · intro text
    exact Matrix.numbers?_ordinal .initial text
  · intro p c
    refine Matrix.exists_getElem_of_cell? ?_
    rw [finalState_append_singleton]
    exact Matrix.cell?_ordinal (finalState p) (.ofChar c)
  · intro i j n
    rw [Matrix.cell?_eq_some_iff]
    simp [FrozenTable.cell?_builtin]

/-- The walk goes on where the scanner stops, and does not begin outside of the matrix. -/
example : Matrix.numbers? 0 "3++2".toList = some [0, 1, 2, 3, 3] ∧
    Matrix.numbers? 4 "3".toList = none := by
  decide

end SumExpr
