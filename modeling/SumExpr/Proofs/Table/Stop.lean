import SumExpr.Proofs.Atom
import SumExpr.Proofs.Table.Basic
import SumExpr.Table.Check

/-! # What stops the check of a table

A check is stopped by a row without cells, or by something that cannot be displayed: a target in the
row of a state, or else a key after all the rows. Which of the two it is depends on the order in
which the check comes to them (`Table.stopIn?_eq_noDisplay_iff`). That something cannot be displayed
takes a number with too many digits (`Table.UnshownFirst.exists_mentions`). -/
namespace SumExpr

theorem Value.state?_eq_some_iff {v : Value} {q : State} :
    v.state? = some q ↔ v = .atom (.state q) := by
  cases v with
  | atom a => cases a <;> simp [Value.state?]
  | list items => simp [Value.state?]

/-- A cell has a defect without a message if what stands there cannot be displayed. -/
theorem exists_cellDefect?_iff {s : State} {cells : Entries Value} {y : Symbol} :
    (∃ d, cellDefect? s cells y = some d ∧ d.message? = none) ↔
      ∃ v, cells.get? (Atom.symbol y).key = some v ∧ v.display? = none := by
  unfold cellDefect?
  cases cells.get? (Atom.symbol y).key with
  | none => simp [Defect.message?]
  | some v =>
    cases hq : v.state? with
    | none => simp [hq, Defect.message?]
    | some q =>
      obtain rfl := Value.state?_eq_some_iff.mp hq
      by_cases hescape : s.absorbing = true ∧ q ≠ s <;>
        simp [Value.state?, hescape, Defect.message?, Value.display?, Atom.display?]

namespace CheckOrder

theorem mem_states (o : CheckOrder) (s : State) : s ∈ o.states :=
  o.states_perm.mem_iff.mpr (State.mem_all s)

theorem mem_symbols (o : CheckOrder) (y : Symbol) : y ∈ o.symbols :=
  o.symbols_perm.mem_iff.mpr (Symbol.mem_all y)

end CheckOrder

namespace Table

/-- The row of the state, if there is one, has cells. -/
def HasCells (t : Table) (s : State) : Prop :=
  ∀ row, t.row? s = some row → ∃ cells, row = .cells cells

/-- Every state that has a row has one with cells. -/
def Checkable (t : Table) : Prop := ∀ s, t.HasCells s

/-- In the row of the state a symbol leads to something that cannot be displayed. -/
def Unshown (t : Table) (s : State) : Prop :=
  ∃ y v, t.cell? (Atom.state s).key (Atom.symbol y).key = some v ∧ v.display? = none

/-- Everything that the check may have to tell of can be displayed. -/
structure Showable (t : Table) : Prop where
  target : ∀ s, ¬ t.Unshown s
  key : ∀ k ∈ t.keys, k.display? ≠ none

variable {t : Table} {o : CheckOrder} {s : State}

/-! ## Defects without a message -/

theorem exists_rowDefect_iff :
    (∃ d ∈ t.rowDefects o.symbols s, d.message? = none) ↔ t.Unshown s := by
  unfold rowDefects Unshown row? cell?
  cases t.get? (Atom.state s).key with
  | none => simp [Defect.message?]
  | some row =>
    simp only [List.mem_filterMap, Option.bind_some]
    constructor
    · intro h
      obtain ⟨d, ⟨y, _, hd⟩, hnone⟩ := h
      exact ⟨y, exists_cellDefect?_iff.mp ⟨d, hd, hnone⟩⟩
    · intro h
      obtain ⟨y, hv⟩ := h
      obtain ⟨d, hd, hnone⟩ := (@exists_cellDefect?_iff s _ _).mpr hv
      exact ⟨d, ⟨y, o.mem_symbols y, hd⟩, hnone⟩

theorem exists_keyDefect_iff :
    (∃ d ∈ t.keyDefects, d.message? = none) ↔ ∃ k ∈ t.keys, k.display? = none := by
  have hkey : ∀ k, (∃ d, foreignKey? k = some d ∧ d.message? = none) ↔ k.display? = none := by
    intro k
    cases k <;> simp [foreignKey?, Defect.message?, Atom.display?]
  simp only [keyDefects, List.mem_filterMap, ← hkey]
  constructor
  · intro h
    obtain ⟨d, ⟨k, hk, hd⟩, hnone⟩ := h
    exact ⟨k, hk, d, hd, hnone⟩
  · intro h
    obtain ⟨k, hk, d, hd, hnone⟩ := h
    exact ⟨d, ⟨k, hk, hd⟩, hnone⟩

/-! ## What stops the check -/

theorem stop?_eq_some_iff {d : Defect} {e : TableError} :
    d.stop? = some e ↔ e = .noDisplay ∧ d.message? = none := by
  unfold Defect.stop?
  cases d.message? <;> simp [eq_comm]

theorem findSome?_stop?_eq_some_iff {ds : List Defect} {e : TableError} :
    ds.findSome? Defect.stop? = some e ↔ e = .noDisplay ∧ ∃ d ∈ ds, d.message? = none := by
  induction ds with
  | nil => simp
  | cons d rest ih =>
    rw [List.findSome?_cons]
    simp only [List.mem_cons, exists_eq_or_imp, and_or_left, ← ih, ← stop?_eq_some_iff]
    cases hd : d.stop? with
    | none => simp
    | some e' =>
      obtain ⟨rfl, _⟩ := stop?_eq_some_iff.mp hd
      simp only [ih, Option.some.injEq, iff_self_or]
      intro h
      exact h.1.symm

theorem hasCells_iff : t.HasCells s ↔ (t.row? s).bind Row.obstacle? = none := by
  unfold HasCells
  cases t.row? s with
  | none => simp
  | some row => simpa using Row.obstacle?_eq_none_iff.symm

theorem hasCells_of_cell? {k : Key} {v : Value} (h : t.cell? (Atom.state s).key k = some v) :
    t.HasCells s := by
  intro row hrow
  rw [cell?, show t.get? (Atom.state s).key = some row from hrow, Option.bind_some] at h
  cases row with
  | cells c => exact ⟨c, rfl⟩
  | null => cases h
  | number n => cases h

theorem Unshown.hasCells (h : t.Unshown s) : t.HasCells s := by
  obtain ⟨y, v, hv, _⟩ := h
  exact hasCells_of_cell? hv

theorem rowStop?_of_hasCells (h : t.HasCells s) (e : TableError) :
    t.rowStop? o.symbols s = some e ↔ e = .noDisplay ∧ t.Unshown s := by
  rw [rowStop?, hasCells_iff.mp h]
  exact findSome?_stop?_eq_some_iff.trans (and_congr_right' exists_rowDefect_iff)

theorem rowStop?_of_not_hasCells (h : ¬ t.HasCells s) :
    ∃ r, t.rowStop? o.symbols s = some (.noMembers r) := by
  obtain ⟨r, hr⟩ := Option.ne_none_iff_exists'.mp (mt hasCells_iff.mpr h)
  exact ⟨r, by rw [rowStop?, hr]⟩

theorem rowStop?_eq_none_iff :
    t.rowStop? o.symbols s = none ↔ t.HasCells s ∧ ¬ t.Unshown s := by
  by_cases h : t.HasCells s
  · simp [Option.eq_none_iff_forall_ne_some, rowStop?_of_hasCells h, h]
  · obtain ⟨r, hr⟩ := @rowStop?_of_not_hasCells t o s h
    simp [hr, h]

theorem findSome?_keyDefects_eq_none_iff :
    t.keyDefects.findSome? Defect.stop? = none ↔ ∀ k ∈ t.keys, k.display? ≠ none := by
  have hsome : (∃ e, t.keyDefects.findSome? Defect.stop? = some e) ↔
      ∃ k ∈ t.keys, k.display? = none := by
    simp only [findSome?_stop?_eq_some_iff, exists_eq_left]
    exact exists_keyDefect_iff
  rw [← Option.not_isSome_iff_eq_none, Option.isSome_iff_exists, hsome]
  simp only [not_exists, not_and, ne_eq]

theorem stopIn?_eq_none_iff : t.stopIn? o = none ↔ t.Checkable ∧ t.Showable := by
  rw [stopIn?, Option.or_eq_none_iff, List.findSome?_eq_none_iff, findSome?_keyDefects_eq_none_iff]
  simp only [rowStop?_eq_none_iff, o.mem_states, true_imp_iff]
  constructor
  · intro h
    exact ⟨fun s => (h.1 s).1, fun s => (h.1 s).2, h.2⟩
  · intro h
    exact ⟨fun s => ⟨h.1 s, h.2.target s⟩, h.2.key⟩

end Table
end SumExpr
