import Mathlib.Data.List.Forall2
import SumExpr.Proofs.Table.Change

/-! # Walks over mixed values

A walk looks up one value after another, whatever is among them. It is about keys only: a value that
has the key of a state or of a symbol is taken for it. So a lookup from a state fails just where the
value is no symbol, and such a value might as well not be there (`walk_filter`); from anything else
every lookup fails. What the others answer is the run over the symbols among the values
(`answers_walk`). -/
namespace SumExpr
open Workbench (entryAt nextState_eq_entries)

theorem State.ofKey?_eq_some_iff {k : Key} {s : State} :
    State.ofKey? k = some s ↔ k = (Atom.state s).key := by
  constructor
  · intro h
    simpa [eq_comm] using List.find?_some h
  · rintro rfl
    exact s.ofKey?_key

theorem Symbol.ofKey?_eq_some_iff {k : Key} {y : Symbol} :
    Symbol.ofKey? k = some y ↔ k = (Atom.symbol y).key := by
  constructor
  · intro h
    simpa [eq_comm] using List.find?_some h
  · rintro rfl
    exact y.ofKey?_key

namespace Atom

/-- The atom has the key of a state and is taken for it. -/
def NamesState (a : Atom) : Prop := ∃ s : State, a.key = (Atom.state s).key

/-- The atom has the key of a symbol and is taken for it. -/
def NamesSymbol (a : Atom) : Prop := ∃ y : Symbol, a.key = (Atom.symbol y).key

theorem ofKey?_eq_none_iff {a : Atom} : Symbol.ofKey? a.key = none ↔ ¬ a.NamesSymbol := by
  rw [Option.eq_none_iff_forall_ne_some, NamesSymbol, not_exists]
  exact forall_congr' fun _ => Symbol.ofKey?_eq_some_iff.not

instance (a : Atom) : Decidable a.NamesSymbol :=
  decidable_of_iff (Symbol.ofKey? a.key ≠ none) (not_iff_comm.mp ofKey?_eq_none_iff.symm)

end Atom

/-! ## One lookup -/

section Lookup

variable {s y : Atom}

theorem nextState_of_foreign (hs : ¬ s.NamesState) (y : Atom) :
    nextState s y = .error (.missingKey s) := by
  unfold nextState
  cases hq : State.ofKey? s.key with
  | none => rfl
  | some q => exact absurd ⟨q, State.ofKey?_eq_some_iff.mp hq⟩ hs

theorem nextState_of_missing (hs : s.NamesState) (hy : ¬ y.NamesSymbol) :
    nextState s y = .error (.missingKey y) := by
  obtain ⟨q, hq⟩ := hs
  unfold nextState
  rw [State.ofKey?_eq_some_iff.mpr hq, Atom.ofKey?_eq_none_iff.mpr hy]

theorem nextState_of_keys {q : State} {z : Symbol} (hs : s.key = (Atom.state q).key)
    (hy : y.key = (Atom.symbol z).key) : nextState s y = .ok (q.next z) := by
  unfold nextState
  rw [State.ofKey?_eq_some_iff.mpr hs, Symbol.ofKey?_eq_some_iff.mpr hy]

/-- From a state a lookup fails only for what is no symbol. -/
theorem nextState_eq_error_iff (hs : s.NamesState) {e : TableError} :
    nextState s y = .error e ↔ ¬ y.NamesSymbol ∧ e = .missingKey y := by
  by_cases hy : y.NamesSymbol
  · obtain ⟨q, hq⟩ := hs
    obtain ⟨z, hz⟩ := hy
    rw [nextState_of_keys hq hz]
    exact iff_of_false (by simp) fun h => h.1 ⟨z, hz⟩
  · rw [nextState_of_missing hs hy, and_iff_right hy, Except.error.injEq, eq_comm]

/-- Values of the same keys have the same successors, if they have any. -/
theorem toOption_nextState_congr {t z : Atom} (hs : s.key = t.key) (hy : y.key = z.key) :
    (nextState s y).toOption = (nextState t z).toOption := by
  unfold nextState
  rw [hs, hy]
  cases State.ofKey? t.key with
  | none => rfl
  | some q => cases Symbol.ofKey? z.key <;> rfl

end Lookup

/-! ## What is left behind -/

/-- The state that a lookup leaves behind: the successor, or the one before it if there is none. -/
def stateAfter (s y : Atom) : Atom :=
  match nextState s y with
  | .ok t => .state t
  | .error _ => s

/-- The state at the end of a walk. -/
def walkEnd (s : Atom) (ys : List Atom) : Atom := ys.foldl stateAfter s

/-- The symbols that the values are taken for. -/
def symbolsAmong (ys : List Atom) : List Symbol := ys.filterMap fun y => Symbol.ofKey? y.key

theorem symbolsAmong_cons_of_symbol {y : Atom} {z : Symbol} (hy : y.key = (Atom.symbol z).key)
    (rest : List Atom) : symbolsAmong (y :: rest) = z :: symbolsAmong rest :=
  List.filterMap_cons_some (Symbol.ofKey?_eq_some_iff.mpr hy)

theorem symbolsAmong_cons_of_missing {y : Atom} (hy : ¬ y.NamesSymbol) (rest : List Atom) :
    symbolsAmong (y :: rest) = symbolsAmong rest :=
  List.filterMap_cons_none (Atom.ofKey?_eq_none_iff.mpr hy)

theorem walk_cons (s y : Atom) (rest : List Atom) :
    walk s (y :: rest) = nextState s y :: walk (stateAfter s y) rest := by
  rw [walk, stateAfter]
  cases nextState s y <;> rfl

/-- Every answer is a lookup from the state that the values before it have left. -/
theorem getElem?_walk (s : Atom) (ys : List Atom) (i : Nat) :
    (walk s ys)[i]? = ys[i]?.map (nextState (walkEnd s (ys.take i))) := by
  induction ys generalizing s i with
  | nil => rfl
  | cons y rest ih =>
    rw [walk_cons]
    cases i with
    | zero => rfl
    | succ i => exact ih (stateAfter s y) i

section After

variable {s y : Atom}

theorem stateAfter_of_error {e : TableError} (h : nextState s y = .error e) :
    stateAfter s y = s := by
  rw [stateAfter, h]

theorem stateAfter_of_keys {q : State} {z : Symbol} (hs : s.key = (Atom.state q).key)
    (hy : y.key = (Atom.symbol z).key) : stateAfter s y = .state (q.next z) := by
  rw [stateAfter, nextState_of_keys hs hy]

/-- A lookup leaves a state behind where there was one. -/
theorem namesState_stateAfter (hs : s.NamesState) (y : Atom) : (stateAfter s y).NamesState := by
  unfold stateAfter
  split
  · next t _ => exact ⟨t, rfl⟩
  · exact hs

theorem namesState_walkEnd (hs : s.NamesState) (ys : List Atom) : (walkEnd s ys).NamesState := by
  induction ys generalizing s with
  | nil => exact hs
  | cons y rest ih => exact ih (namesState_stateAfter hs y)

theorem key_stateAfter_congr {t z : Atom} (hs : s.key = t.key) (hy : y.key = z.key) :
    (stateAfter s y).key = (stateAfter t z).key := by
  have hnext := toOption_nextState_congr hs hy
  unfold stateAfter
  cases h : nextState s y <;> cases h' : nextState t z <;> rw [h, h'] at hnext
  · exact hs
  · cases hnext
  · cases hnext
  · cases hnext
    rfl

end After

/-! ## Whole walks -/

section Walk

variable {s : Atom}

theorem walk_of_foreign (hs : ¬ s.NamesState) (ys : List Atom) :
    walk s ys = ys.map (fun _ => .error (.missingKey s)) ∧ walkEnd s ys = s := by
  induction ys with
  | nil => exact ⟨rfl, rfl⟩
  | cons y rest ih =>
    have hnext := nextState_of_foreign hs y
    have hafter := stateAfter_of_error hnext
    rw [walk_cons, hnext, hafter, ih.1]
    refine ⟨rfl, ?_⟩
    rw [walkEnd, List.foldl_cons, hafter]
    exact ih.2

/-- From a state the answers that fail are those to values that are no symbols. -/
theorem walk_eq_error_iff (hs : s.NamesState) (ys : List Atom) (i : Nat) (e : TableError) :
    (walk s ys)[i]? = some (.error e) ↔
      ∃ y, ys[i]? = some y ∧ ¬ y.NamesSymbol ∧ e = .missingKey y := by
  rw [getElem?_walk, Option.map_eq_some_iff]
  exact exists_congr fun y => and_congr_right fun _ =>
    nextState_eq_error_iff (namesState_walkEnd hs _)

/-- Without the values that fail the rest is answered as with them. -/
theorem walk_filter (hs : s.NamesState) (ys : List Atom) :
    walk s (ys.filter fun y => y.NamesSymbol) = (walk s ys).filter Except.isOk ∧
      walkEnd s (ys.filter fun y => y.NamesSymbol) = walkEnd s ys := by
  induction ys generalizing s with
  | nil => exact ⟨rfl, rfl⟩
  | cons y rest ih =>
    by_cases hy : y.NamesSymbol
    · have hafter := namesState_stateAfter hs y
      obtain ⟨q, hq⟩ := hs
      obtain ⟨z, hz⟩ := hy
      rw [List.filter_cons_of_pos (by simpa using ⟨z, hz⟩), walk_cons, walk_cons,
        nextState_of_keys hq hz, List.filter_cons_of_pos rfl, (ih hafter).1]
      exact ⟨rfl, (ih hafter).2⟩
    · have hnext := nextState_of_missing hs hy
      rw [List.filter_cons_of_neg (by simpa using hy), walk_cons, hnext,
        List.filter_cons_of_neg (by simp [Except.isOk, Except.toBool]), stateAfter_of_error hnext,
        walkEnd, walkEnd, List.foldl_cons, stateAfter_of_error hnext]
      exact ih hs

/-- The answers that do not fail are the states of the run over the symbols among the values. -/
theorem answers_walk {q : State} (hs : s.key = (Atom.state q).key) (ys : List Atom) :
    q :: (walk s ys).filterMap Except.toOption = (symbolsAmong ys).scanl State.next q := by
  induction ys generalizing s q with
  | nil => rfl
  | cons y rest ih =>
    rw [walk_cons]
    by_cases hy : y.NamesSymbol
    · obtain ⟨z, hz⟩ := hy
      have hanswer : (nextState s y).toOption = some (q.next z) := by
        rw [nextState_of_keys hs hz]
        rfl
      rw [symbolsAmong_cons_of_symbol hz, List.filterMap_cons_some hanswer,
        stateAfter_of_keys hs hz, List.scanl_cons, ih rfl]
    · have hnext := nextState_of_missing ⟨q, hs⟩ hy
      have hanswer : (nextState s y).toOption = none := by
        rw [hnext]
        rfl
      rw [symbolsAmong_cons_of_missing hy, List.filterMap_cons_none hanswer,
        stateAfter_of_error hnext, ih hs]

/-- Values of the same keys are answered alike, place by place. -/
theorem walk_congr {t : Atom} (hs : s.key = t.key) {ys zs : List Atom}
    (h : List.Forall₂ (fun y z => y.key = z.key) ys zs) :
    (walk s ys).map Except.toOption = (walk t zs).map Except.toOption := by
  induction h generalizing s t with
  | nil => rfl
  | cons hy _ ih =>
    rw [walk_cons, walk_cons, List.map_cons, List.map_cons, toOption_nextState_congr hs hy,
      ih (key_stateAfter_congr hs hy)]

end Walk

/-- **A lookup that fails is passed over.** Every answer of a walk is a lookup in the scanner's
table, the row before the column, from the state that the values before it have left. If the walk
starts from what is no state, every lookup fails, with the start as the missing key. From a state a
lookup fails just where the value is no symbol, with that value as the missing key; the others
answer as if the values that fail were not there, with the states of the run over the symbols among
the values. Nothing but the keys matters for this: a text that spells a state or a symbol does as
well as the state or the symbol. -/
theorem failed_lookups_passed_over :
    (∀ s y, (nextState s y).map (fun q => Value.atom (.state q)) =
      (entryAt FrozenTable.builtin.rows s).bind fun row => entryAt row y) ∧
    (∀ (s : Atom) (ys : List Atom) (i : Nat),
      (walk s ys)[i]? = ys[i]?.map (nextState (walkEnd s (ys.take i)))) ∧
    (∀ k, (TableError.missingKey k).message = k.display) ∧
    (∀ s : Atom, ¬ s.NamesState → ∀ ys : List Atom,
      walk s ys = ys.map (fun _ => .error (.missingKey s)) ∧ walkEnd s ys = s) ∧
    (∀ (s : Atom) (q : State), s.key = (Atom.state q).key → ∀ ys : List Atom,
      (∀ (i : Nat) (e : TableError), (walk s ys)[i]? = some (.error e) ↔
        ∃ y, ys[i]? = some y ∧ ¬ y.NamesSymbol ∧ e = .missingKey y) ∧
      walk s (ys.filter fun y => y.NamesSymbol) = (walk s ys).filter Except.isOk ∧
      walkEnd s (ys.filter fun y => y.NamesSymbol) = walkEnd s ys ∧
      q :: (walk s ys).filterMap Except.toOption = (symbolsAmong ys).scanl State.next q) ∧
    ∀ (s t : Atom) (ys zs : List Atom), s.key = t.key →
      List.Forall₂ (fun y z => y.key = z.key) ys zs →
      (walk s ys).map Except.toOption = (walk t zs).map Except.toOption := by
  refine ⟨nextState_eq_entries, getElem?_walk, fun _ => rfl, ?_, ?_, ?_⟩
  · intro s hs ys
    exact walk_of_foreign hs ys
  · intro s q hs ys
    have hstate : s.NamesState := ⟨q, hs⟩
    obtain ⟨hwalk, hend⟩ := walk_filter hstate ys
    exact ⟨walk_eq_error_iff hstate ys, hwalk, hend, answers_walk hs ys⟩
  · intro s t ys zs hs h
    exact walk_congr hs h

/-- Between a text that spells a symbol and the symbol itself stand values that are none; a start
that is no state fails at every value. -/
theorem failed_lookups_passed_over_mixed :
    ¬ (Atom.symbol .digit).NamesState ∧
    walk (.symbol .digit) [.symbol .plus, .null] =
      [.error (.missingKey (.symbol .digit)), .error (.missingKey (.symbol .digit))] ∧
    (Atom.text "START".toList).key = (Atom.state .start).key ∧
    walk (.text "START".toList) [.text "DIGIT".toList, .symbol .plus] =
      (walk (.text "START".toList)
        [.text "DIGIT".toList, .int 1, .state .start, .symbol .plus]).filter Except.isOk ∧
    (walk (.text "START".toList) [.bool true, .text "DIGIT".toList]).map Except.toOption =
      (walk (.state .start) [.int 1, .symbol .digit]).map Except.toOption := by
  have hforeign : ¬ (Atom.symbol .digit).NamesState := by
    rintro ⟨q, hq⟩
    cases q <;> exact absurd hq (by decide)
  have hstart : (Atom.text "START".toList).key = (Atom.state .start).key := rfl
  obtain ⟨-, -, -, hnone, hsome, hcongr⟩ := failed_lookups_passed_over
  refine ⟨hforeign, (hnone _ hforeign [.symbol .plus, .null]).1, hstart, ?_, ?_⟩
  · exact (hsome _ .start hstart [.text "DIGIT".toList, .int 1, .state .start, .symbol .plus]).2.1
  · exact hcongr _ _ [.bool true, .text "DIGIT".toList] [.int 1, .symbol .digit] hstart
      (.cons rfl (.cons rfl .nil))

end SumExpr
