import Mathlib.Data.List.Forall2
import Mathlib.Data.List.Perm.Basic
import SumExpr.Proofs.Table.Check
import SumExpr.Proofs.Table.Site

/-! # The report of a check has no order to depend on

A table can be written with its rows, and the cells of each row, in any order, and the check can go
through the states and the symbols in any order. None of it shows in the report: what is looked up
is the same, so the same defects are found, and their messages are sorted. All of them being
different, the report is strictly increasing. Only where a check can be stopped by either of two
things does an order decide which of them it is (`Table.report_canonical`). -/
namespace SumExpr

/-! ## Sorted messages -/

namespace Text

theorem mergeSort_eq_of_perm {l m : List Text} (h : l.Perm m) :
    l.mergeSort Text.le = m.mergeSort Text.le := by
  have hsorted := List.pairwise_mergeSort Text.le_trans Text.le_total
  refine List.Perm.eq_of_pairwise ?_ (hsorted l) (hsorted m) ?_
  · intro a b _ _ hab hba
    rw [le_iff, List.not_lt] at hab hba
    exact List.le_antisymm hab hba
  · exact (List.mergeSort_perm l _).trans (h.trans (List.mergeSort_perm m _).symm)

end Text

/-! ## Tables in another order -/

theorem Entries.get?_of_perm {β : Type} {e f : Entries β} (h : e.toList.Perm f.toList) (j : Key) :
    e.get? j = f.get? j := by
  refine Option.ext fun v => ?_
  rw [get?_eq_some_iff, get?_eq_some_iff]
  simp only [h.mem_iff]

/-- The same row, with its cells in any order. -/
inductive Row.Reordered : Row → Row → Prop
  | cells {c d : Entries Value} (h : c.toList.Perm d.toList) : Reordered (.cells c) (.cells d)
  | null : Reordered .null .null
  | number (n : Int) : Reordered (.number n) (.number n)

namespace Row.Reordered

variable {p q : Row}

theorem ofList {l m : List (Atom × Value)} (h : l.Perm m) (hl : (l.map (·.1.key)).Nodup) :
    Reordered (.ofList l) (.ofList m) := by
  refine .cells ?_
  rw [Entries.toList_ofList hl, Entries.toList_ofList ((h.map _).nodup_iff.mp hl)]
  exact h

theorem obstacle?_eq (h : Reordered p q) : p.obstacle? = q.obstacle? := by
  cases h <;> rfl

theorem get?_cellsOf (h : Reordered p q) (k : Key) : p.cellsOf.get? k = q.cellsOf.get? k := by
  cases h with
  | cells h => exact Entries.get?_of_perm h k
  | null => rfl
  | number n => rfl

end Row.Reordered

namespace Table

/-- The same table, with its rows and the cells of each row in any order. -/
def Reordered (t u : Table) : Prop :=
  ∃ r : Table, List.Forall₂ (fun p q => p.1 = q.1 ∧ p.2.Reordered q.2) t.toList r.toList ∧
    r.toList.Perm u.toList

namespace Reordered

/-- Tables from pairs that are listed in different orders. -/
theorem ofList {l r m : List (Atom × Row)}
    (hrows : List.Forall₂ (fun p q => p.1 = q.1 ∧ p.2.Reordered q.2) l r) (hperm : r.Perm m)
    (hl : (l.map (·.1.key)).Nodup) : Reordered (.ofList l) (.ofList m) := by
  have hkeys : l.map (·.1.key) = r.map (·.1.key) := by
    rw [← List.forall₂_eq_eq_eq, List.forall₂_map_left_iff, List.forall₂_map_right_iff]
    refine hrows.imp ?_
    intro p q hpq
    exact congrArg Atom.key hpq.1
  rw [hkeys] at hl
  refine ⟨.ofList r, ?_, ?_⟩
  · rw [Entries.toList_ofList hl, Entries.toList_ofList (hkeys ▸ hl)]
    exact hrows
  · rw [Entries.toList_ofList hl, Entries.toList_ofList ((hperm.map _).nodup_iff.mp hl)]
    exact hperm

variable {t u : Table}

/-- What is the same for a row in another order is the same in both tables. -/
theorem perm_mapValues {γ : Type} {f : Row → γ} (hf : ∀ p q, Row.Reordered p q → f p = f q)
    (h : t.Reordered u) : (t.mapValues f).toList.Perm (u.mapValues f).toList := by
  obtain ⟨r, hrows, hperm⟩ := h
  have heq : t.toList.map (fun p => (p.1, f p.2)) = r.toList.map fun p => (p.1, f p.2) := by
    rw [← List.forall₂_eq_eq_eq, List.forall₂_map_left_iff, List.forall₂_map_right_iff]
    refine hrows.imp ?_
    intro p q hpq
    exact Prod.ext hpq.1 (hf p.2 q.2 hpq.2)
  show (t.toList.map _).Perm (u.toList.map _)
  rw [heq]
  exact hperm.map _

theorem map_get? {γ : Type} {f : Row → γ} (hf : ∀ p q, Row.Reordered p q → f p = f q)
    (h : t.Reordered u) (j : Key) : (t.get? j).map f = (u.get? j).map f := by
  rw [← Entries.get?_mapValues, ← Entries.get?_mapValues]
  exact Entries.get?_of_perm (h.perm_mapValues hf) j

theorem perm_keys (h : t.Reordered u) : t.keys.Perm u.keys := by
  have hperm := (h.perm_mapValues (f := fun _ => ()) fun _ _ _ => rfl).map Prod.fst
  rwa [← Entries.keys, ← Entries.keys, Entries.keys_mapValues, Entries.keys_mapValues] at hperm

theorem map_obstacle? (h : t.Reordered u) (s : State) :
    (t.row? s).map Row.obstacle? = (u.row? s).map Row.obstacle? :=
  h.map_get? (fun _ _ => Row.Reordered.obstacle?_eq) _

theorem cell?_eq (h : t.Reordered u) (j k : Key) : t.cell? j k = u.cell? j k :=
  bind_eq_of_map_eq (h.map_get? (fun _ _ hpq => hpq.get?_cellsOf k) j)

theorem hasCells_iff (h : t.Reordered u) (s : State) : t.HasCells s ↔ u.HasCells s := by
  rw [Table.hasCells_iff, Table.hasCells_iff, bind_eq_of_map_eq (h.map_obstacle? s)]

theorem checkable_iff (h : t.Reordered u) : t.Checkable ↔ u.Checkable :=
  forall_congr' h.hasCells_iff

theorem unshown_iff (h : t.Reordered u) (s : State) : t.Unshown s ↔ u.Unshown s := by
  simp only [Unshown, h.cell?_eq]

theorem showable_iff (h : t.Reordered u) : t.Showable ↔ u.Showable := by
  have hkeys : (∀ k ∈ t.keys, k.display? ≠ none) ↔ ∀ k ∈ u.keys, k.display? ≠ none := by
    simp only [h.perm_keys.mem_iff]
  constructor
  · intro ht
    exact ⟨fun s => mt (h.unshown_iff s).mpr (ht.target s), hkeys.mp ht.key⟩
  · intro hu
    exact ⟨fun s => mt (h.unshown_iff s).mp (hu.target s), hkeys.mpr hu.key⟩

/-- The same defects are found. -/
theorem perm_defectsIn (h : t.Reordered u) (o o' : CheckOrder) :
    (t.defectsIn o).Perm (u.defectsIn o') := by
  have hsymbols := o.symbols_perm.trans o'.symbols_perm.symm
  have hrow : ∀ s, (t.rowDefects o.symbols s).Perm (u.rowDefects o'.symbols s) := by
    intro s
    rw [rowDefects_congr o.symbols (h.map_obstacle? s) fun y => h.cell?_eq _ _]
    unfold rowDefects
    split
    · exact .refl _
    · exact hsymbols.filterMap _
  have hstates := o.states_perm.trans o'.states_perm.symm
  exact (hstates.flatMap fun s _ => hrow s).append (h.perm_keys.filterMap _)

/-- The same report is given, if one is. -/
theorem checkIn_eq_ok_iff (h : t.Reordered u) (o o' : CheckOrder) (ms : List Text) :
    t.checkIn o = .ok ms ↔ u.checkIn o' = .ok ms := by
  rw [Table.checkIn_eq_ok_iff, Table.checkIn_eq_ok_iff, h.checkable_iff, h.showable_iff,
    Text.mergeSort_eq_of_perm ((h.perm_defectsIn o o').filterMap Defect.message?)]

end Reordered

/-! ## The report -/

end Table
end SumExpr
