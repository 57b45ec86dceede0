import SumExpr.Log
import SumExpr.Proofs.Scan.Basic
import SumExpr.Proofs.Table.Check

/-! # Runs over a table

A run takes one cell after another: from a value and a symbol to the value in their cell. Over any
table at all it may meet what is no key, or a cell that is missing. A table that the check accepts
realizes a successor function on states (`Realizes`), from which all that a run does follows; in
particular it does not matter that the scanner stops at the first absorbing state. -/
namespace SumExpr

/-- A state as the content of a cell. -/
def Value.ofState (s : State) : Value := .atom (.state s)

/-- Whether a value counts as an absorbing state; a text that spells one does. -/
def Value.absorbing (v : Value) : Bool := (v.key?.bind State.ofKey?).any State.absorbing

namespace FrozenTable

/-! ## Runs over any table -/

/-- What stands in the cell of a value and a symbol, if the value is a key and there is one. -/
def step? (t : FrozenTable) (v : Value) (y : Symbol) : Option Value :=
  v.key?.bind fun k => t.cell? k (Atom.symbol y).key

/-- All values of a run, the first included. -/
def trace? (t : FrozenTable) (v : Value) : List Symbol → Option (List Value)
  | [] => some [v]
  | y :: ys => do
    let w ← t.step? v y
    return v :: (← trace? t w ys)

/-- The value at the end of a run that stops at the first absorbing value it comes to, and the
symbols that it has not looked at. -/
def runUntil? (t : FrozenTable) (v : Value) : List Symbol → Option (Value × List Symbol)
  | [] => some (v, [])
  | y :: ys => do
    let w ← t.step? v y
    if w.absorbing then some (w, ys) else runUntil? t w ys

/-! ## Runs over an accepted table -/

/-- The cells of states and symbols are the values of `next`, which never leaves the error state. -/
structure Realizes (t : FrozenTable) (next : State → Symbol → State) : Prop where
  cell : ∀ s y, t.cell? (Atom.state s).key (Atom.symbol y).key = some (.ofState (next s y))
  error : ∀ y, next .error y = .error

theorem realizes_builtin : builtin.Realizes State.next where
  cell := cell?_builtin
  error y := State.next_of_absorbing rfl y

/-- What the check accepts can be frozen, and the copy realizes some successors. -/
theorem exists_realizes {t : Table} (h : t.WellFormed) :
    ∃ f, t.freeze = .ok f ∧ ∃ next, f.Realizes next := by
  obtain ⟨f, hf, rfl⟩ := h.exists_freeze
  choose next hnext using h.total
  refine ⟨f, hf, next, ?_, ?_⟩
  · intro s y
    rw [← cell?_toTable, hnext]
    rfl
  · intro y
    have hstay := h.stays y
    rw [hnext] at hstay
    simpa using hstay

namespace Realizes

variable {t : FrozenTable} {next : State → Symbol → State}

theorem step?_eq (h : t.Realizes next) (s : State) (y : Symbol) :
    t.step? (.ofState s) y = some (.ofState (next s y)) :=
  h.cell s y

theorem absorbing_ofState (s : State) : (Value.ofState s).absorbing = s.absorbing := by
  rw [Value.absorbing, Value.ofState, Value.key?, Option.bind_some, State.ofKey?_key,
    Option.any_some]

/-- No lookup fails, and every value on the way is a state. -/
theorem trace?_eq (h : t.Realizes next) (s : State) (ys : List Symbol) :
    t.trace? (.ofState s) ys = some ((ys.scanl next s).map .ofState) := by
  induction ys generalizing s with
  | nil => rfl
  | cons y ys ih =>
    rw [trace?, h.step?_eq, Option.bind_eq_bind, Option.bind_some, ih, List.scanl_cons]
    rfl

theorem foldlM_eq (h : t.Realizes next) (s : State) (ys : List Symbol) :
    ys.foldlM t.step? (.ofState s) = some (.ofState (ys.foldl next s)) := by
  induction ys generalizing s with
  | nil => rfl
  | cons y ys ih =>
    rw [List.foldlM_cons, h.step?_eq, Option.bind_eq_bind, Option.bind_some, ih, List.foldl_cons]

theorem foldl_error (h : t.Realizes next) (ys : List Symbol) : ys.foldl next .error = .error := by
  induction ys with
  | nil => rfl
  | cons y ys ih => rw [List.foldl_cons, h.error, ih]

theorem eq_error_of_mem_scanl (h : t.Realizes next) {ys : List Symbol} {q : State}
    (hq : q ∈ ys.scanl next .error) : q = .error := by
  induction ys with
  | nil => simpa using hq
  | cons y ys ih =>
    rw [List.scanl_cons, h.error, List.mem_cons] at hq
    exact hq.elim id ih

/-- Behind the error state there is nothing but the error state. -/
theorem pairwise_scanl (h : t.Realizes next) (s : State) (ys : List Symbol) :
    (ys.scanl next s).Pairwise fun q r => q = .error → r = .error := by
  induction ys generalizing s with
  | nil => simp
  | cons y ys ih =>
    rw [List.scanl_cons, List.pairwise_cons]
    refine ⟨?_, ih _⟩
    intro r hr hs
    rw [hs, h.error] at hr
    exact h.eq_error_of_mem_scanl hr

/-- The run that stops ends where the run over all symbols ends. -/
theorem runUntil?_eq (h : t.Realizes next) (s : State) (ys : List Symbol) :
    ∃ rest, rest <:+ ys ∧
      t.runUntil? (.ofState s) ys = some (.ofState (ys.foldl next s), rest) := by
  induction ys generalizing s with
  | nil => exact ⟨[], List.suffix_refl [], rfl⟩
  | cons y ys ih =>
    rw [runUntil?, h.step?_eq, Option.bind_eq_bind, Option.bind_some, absorbing_ofState,
      List.foldl_cons]
    by_cases ha : (next s y).absorbing = true
    · rw [if_pos ha, State.absorbing_iff.mp ha, h.foldl_error]
      exact ⟨ys, List.suffix_cons y ys, rfl⟩
    · rw [if_neg ha]
      obtain ⟨rest, hrest, hrun⟩ := ih (next s y)
      exact ⟨rest, hrest.trans (List.suffix_cons y ys), hrun⟩

end Realizes

/-! ## The scanner -/

theorem check_builtin : builtin.toTable.check = .ok [] := by
  refine Table.check_eq_ok_nil_iff.mpr ⟨?_, ?_, ?_⟩
  · intro k hk
    obtain ⟨s, _, rfl⟩ := List.mem_map.mp (show k ∈ State.all.map Atom.state from hk)
    exact ⟨s, rfl⟩
  · intro s y
    exact ⟨s.next y, by rw [cell?_toTable, cell?_builtin]⟩
  · intro y
    rw [cell?_toTable, cell?_builtin, State.next_of_absorbing rfl]

/-- The scanner is the run over its table that stops. -/
theorem runUntil?_builtin (text : Text) :
    ∃ rest, rest <:+ text.map .ofChar ∧
      builtin.runUntil? (.ofState .initial) (text.map .ofChar) =
        some (.ofState (finalState text), rest) := by
  obtain ⟨rest, hrest, hrun⟩ := realizes_builtin.runUntil?_eq .initial (text.map .ofChar)
  rw [List.foldl_map, ← Scan.run_eq_foldl] at hrun
  exact ⟨rest, hrest, hrun⟩

end FrozenTable

theorem Scan.length_trace (s : State) (text : Text) : (trace s text).length = text.length := by
  induction text generalizing s with
  | nil => rfl
  | cons c rest ih => rw [trace, List.length_cons, List.length_cons, ih]

/-- The trace, which never stops, ends where the run ends. -/
theorem Scan.getLast?_trace (s : State) (text : Text) :
    (trace s text).getLast?.elim s Prod.snd = run s text := by
  rw [run_eq_foldl]
  induction text generalizing s with
  | nil => rfl
  | cons c rest ih =>
    rw [trace, List.getLast?_cons, List.foldl_cons, ← ih]
    cases (trace (s.next (.ofChar c)) rest).getLast? <;> rfl

/-- **That the scanner stops early cannot be observed.** Over a table that the check accepts no
lookup fails, whatever the first state and the symbols are; every value on the way is a state; the
error state is not left; and the run that stops ends where the run over all symbols ends. The
scanner is such a run: it gives the last state of the trace to the end of the text, and its record
has the length of the whole text, whatever is left unread. -/
theorem early_stop_unobservable :
    (∀ t : Table, t.check = .ok [] → ∃ f, t.freeze = .ok f ∧ ∀ (s : State) (ys : List Symbol),
      (∃ qs : List State, f.trace? (.ofState s) ys = some (qs.map .ofState) ∧
        qs.length = ys.length + 1 ∧ qs.Pairwise fun q r => q = .error → r = .error) ∧
      ∃ v rest, f.runUntil? (.ofState s) ys = some (v, rest) ∧ rest <:+ ys ∧
        ys.foldlM f.step? (.ofState s) = some v) ∧
    FrozenTable.builtin.toTable.check = .ok [] ∧
    (∀ s y, nextState (.state s) (.symbol y) = .ok (s.next y)) ∧
    ∀ text : Text,
      (∃ rest, rest <:+ text.map .ofChar ∧
        FrozenTable.builtin.runUntil? (.ofState .initial) (text.map .ofChar) =
          some (.ofState (finalState text), rest)) ∧
      finalState text = (Scan.trace .initial text).getLast?.elim .start Prod.snd ∧
      (Scan.trace .initial text).length = text.length ∧
      Log.ofScan text = .scanned text.length (scan text) ∧ (Log.ofScan text).level = .debug := by
  refine ⟨?_, FrozenTable.check_builtin, ?_, ?_⟩
  · intro t ht
    obtain ⟨f, hf, next, hnext⟩ :=
      FrozenTable.exists_realizes (Table.check_eq_ok_nil_iff.mp ht)
    refine ⟨f, hf, ?_⟩
    intro s ys
    obtain ⟨rest, hrest, hrun⟩ := hnext.runUntil?_eq s ys
    refine ⟨⟨ys.scanl next s, hnext.trace?_eq s ys, ?_, hnext.pairwise_scanl s ys⟩, ?_⟩
    · exact List.length_scanl
    · exact ⟨.ofState (ys.foldl next s), rest, hrun, hrest, hnext.foldlM_eq s ys⟩
  · intro s y
    unfold nextState
    rw [State.ofKey?_key, Symbol.ofKey?_key]
  · intro text
    exact ⟨FrozenTable.runUntil?_builtin text, (Scan.getLast?_trace .initial text).symm,
      Scan.length_trace .initial text, rfl, rfl⟩

/-- A table whose columns are spelled as texts, with a column more in every row. -/
def spelledTable : Table :=
  .ofList <| State.all.map fun s => (.state s, .ofList <|
    (.null, .list []) :: Symbol.all.map fun y => (.text y.name, .ofState (s.next y)))

theorem early_stop_unobservable_spelledTable :
    spelledTable.check = .ok [] ∧ ∃ f, spelledTable.freeze = .ok f ∧
      ∃ v rest, f.runUntil? (.ofState .start) [.plus, .digit] = some (v, rest) ∧
        rest <:+ [.plus, .digit] ∧ [.plus, .digit].foldlM f.step? (.ofState .start) = some v := by
  have hdefects : spelledTable.defectsIn .declared = [] := rfl
  have hcheck := Table.check_eq_ok_nil_iff.mpr (Table.defectsIn_eq_nil_iff.mp hdefects)
  obtain ⟨f, hf, hrun⟩ := early_stop_unobservable.1 spelledTable hcheck
  exact ⟨hcheck, f, hf, (hrun .start [.plus, .digit]).2⟩

end SumExpr
