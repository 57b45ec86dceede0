import SumExpr.Proofs.Table.Desk

/-! # The workbench in place

A step on a desk comes to the same as the step of the workbench that is seen of it, also where it
fails half-way (`Desk.Sound.perform_agrees`), and so do steps one after another. -/
namespace SumExpr.Workbench.Desk

/-! ## Freezing -/

/-- What copying comes to: a failure for the first thing without cells, or copies with the content
of the rows, all of them in new places. -/
inductive Copied (d : Desk) (l : List (Atom × Slot)) :
    Desk × Except TableError (List (Atom × Nat)) → Prop
  | error {after : Desk} {r : Obstacle} (hext : d.Extends after)
      (hfirst : l.findSome? (·.2.obstacle?) = some r) : Copied d l (after, .error (.noElements r))
  | ok {after : Desk} {copies : List (Atom × Nat)} (hext : d.Extends after)
      (hnone : l.findSome? (·.2.obstacle?) = none)
      (hread : copies.map (fun e => (e.1, after.store e.2)) =
        l.map fun e => (e.1, (e.2.row d.store).cellsOf))
      (hnew : ∀ e ∈ copies, d.free ≤ e.2 ∧ e.2 < after.free) :
      Copied d l (after, .ok copies)

theorem copied_copyRows {d : Desk} {l : List (Atom × Slot)}
    (hl : ∀ e ∈ l, ∀ p, e.2 = .cells p → p < d.free) : Copied d l (d.copyRows l) := by
  induction l generalizing d with
  | nil => exact .ok (.refl d) rfl rfl (by simp)
  | cons e rest ih =>
    obtain ⟨k, slot⟩ := e
    cases slot with
    | null => exact .error (.refl d) rfl
    | number n => exact .error (.refl d) rfl
    | cells p =>
      have hext := d.extends_alloc (d.store p)
      have hrest : ∀ e ∈ rest, ∀ q, e.2 = .cells q → q < d.free :=
        fun e he => hl e (List.mem_cons_of_mem _ he)
      -- the rows that are still to be copied stay as they are
      have hstay : ∀ e ∈ rest, (e.1, (e.2.row (d.alloc (d.store p)).store).cellsOf) =
          (e.1, (e.2.row d.store).cellsOf) := by
        rintro ⟨j, slot⟩ he
        cases slot with
        | cells q => exact congrArg (Prod.mk j) (hext.store q (hrest _ he q rfl))
        | null => rfl
        | number n => rfl
      have hcopied := ih fun e he q hq => Nat.lt_of_lt_of_le (hrest e he q hq) hext.free
      show Copied d _ (((d.alloc (d.store p)).copyRows rest).1,
        ((d.alloc (d.store p)).copyRows rest).2.map fun copies => (k, d.free) :: copies)
      generalize (d.alloc (d.store p)).copyRows rest = result at hcopied
      cases hcopied with
      | error hext' hfirst => exact .error (hext.trans hext') hfirst
      | @ok after copies hext' hnone hread hnew =>
        have hcopy : after.store d.free = d.store p :=
          (hext'.store d.free d.free.lt_succ_self).trans (Function.update_self _ _ _)
        refine .ok (hext.trans hext') hnone ?_ ?_
        · rw [List.map_cons, List.map_cons, hread, hcopy, List.map_congr_left hstay]
          rfl
        · intro e he
          obtain rfl | he := List.mem_cons.mp he
          · exact ⟨Nat.le_refl _, hext'.free⟩
          · exact ⟨Nat.le_trans hext.free (hnew e he).1, (hnew e he).2⟩

/-- What a step in place comes to, beside the same step of the workbench that is seen. -/
inductive Agrees (d : Desk) :
    Desk × Except TableError Answer → Except TableError (Workbench × Answer) → Prop
  | ok {after : Desk} {answer : Answer} {next : Workbench} (hsound : after.Sound)
      (hview : after.view = next) : Agrees d (after, .ok answer) (.ok (next, answer))
  | error {after : Desk} {e : TableError} (hsound : after.Sound) (hview : after.view = d.view) :
      Agrees d (after, .error e) (.error e)

theorem Agrees.of_error {d : Desk} {result : Desk × Except TableError Answer}
    {value : Except TableError (Workbench × Answer)} {e : TableError} (h : Agrees d result value)
    (he : result.2 = .error e) : result.1.view = d.view ∧ value = .error e := by
  cases h with
  | ok hsound hview => cases he
  | error hsound hview => exact ⟨hview, congrArg Except.error (Except.error.inj he)⟩

theorem Agrees.error_of {d : Desk} {result : Desk × Except TableError Answer}
    {value : Except TableError (Workbench × Answer)} {e : TableError} (h : Agrees d result value)
    (he : value = .error e) : result.2 = .error e := by
  subst he
  cases h
  rfl

namespace Sound

variable {d : Desk}

theorem freeze (h : d.Sound) : Agrees d (d.perform .freeze) (d.view.step .freeze) := by
  have hcopied : Copied d d.raw.toList (d.copyRows d.raw.toList) := by
    refine copied_copyRows ?_
    rintro ⟨k, slot⟩ he p rfl
    exact h.raw_lt (Entries.get?_eq_some_iff.mpr ⟨k, rfl, he⟩)
  have hobstacle : d.view.raw.toList.findSome? (·.2.obstacle?) =
      d.raw.toList.findSome? (·.2.obstacle?) := by
    rw [view, Entries.mapValues, List.findSome?_map]
    simp only [Function.comp_def, Slot.obstacle?_row]
  rw [perform, step, Table.freeze, hobstacle]
  generalize d.copyRows d.raw.toList = result at hcopied ⊢
  cases hcopied with
  | error hext hfirst =>
    rw [hfirst]
    exact .error (h.of_extends hext) (h.view_extends hext)
  | @ok after copies hext hnone hread hnew =>
    rw [hnone]
    have hkeys : (copies.map (·.1.key)).Nodup := by
      have hfst := congrArg (List.map fun e => e.1.key) hread
      rw [List.map_map, List.map_map] at hfst
      exact hfst ▸ d.raw.distinct
    have hlist : (Entries.ofList copies).toList = copies := Entries.toList_ofList hkeys
    have hplaces : ∀ {j p}, (Entries.ofList copies).get? j = some p →
        d.free ≤ p ∧ p < after.free := by
      intro j p hp
      obtain ⟨k, _, hmem⟩ := Entries.get?_eq_some_iff.mp hp
      exact hnew (k, p) (hlist ▸ hmem)
    have hafter := h.of_extends hext
    refine .ok ?_ ?_
    · refine ⟨hafter.scanner, hafter.unshared, ?_, hafter.raw_lt, ?_⟩
      · intro i p hi
        rintro ⟨j, hj | hj⟩
        · rw [hext.raw] at hi
          exact Nat.lt_irrefl _ (Nat.lt_of_lt_of_le (h.raw_lt hi) (hplaces hj).1)
        · exact hafter.apart hi ⟨j, .inr hj⟩
      · rintro p ⟨j, hj | hj⟩
        · exact (hplaces hj).2
        · exact hafter.held_lt ⟨j, .inr hj⟩
    · have hraw : after.view.raw = d.view.raw := congrArg Workbench.raw (h.view_extends hext)
      have hrows : (Entries.ofList copies).mapValues after.store =
          d.view.raw.mapValues Row.cellsOf := by
        rw [view, Entries.mapValues_mapValues]
        exact Entries.ext ((congrArg _ hlist).trans hread)
      show Workbench.mk after.view.raw ⟨(Entries.ofList copies).mapValues after.store⟩ = _
      rw [hraw, hrows]

/-! ## Lookups -/

theorem entryAt_mapValues {β γ : Type} (f : β → γ) (e : Entries β) (k : Atom) :
    entryAt (e.mapValues f) k = (entryAt e k).map f := by
  unfold entryAt
  rw [Entries.get?_mapValues]
  cases e.get? k.key <;> rfl

theorem cellsUnder_view (d : Desk) (refusal : Obstacle → TableError) (k : Atom) :
    cellsUnder refusal d.view.raw k = (d.placeUnder refusal k).map d.store := by
  rw [cellsUnder, placeUnder, view, entryAt_mapValues]
  cases entryAt d.raw k with
  | error e => rfl
  | ok s => exact Slot.cellsAt_row refusal d.store s

theorem get?_of_placeUnder {refusal : Obstacle → TableError} {k : Atom} {p : Nat}
    (h : d.placeUnder refusal k = .ok p) : d.raw.get? k.key = some (.cells p) := by
  unfold placeUnder at h
  cases hs : entryAt d.raw k with
  | error e => rw [hs] at h; cases h
  | ok s =>
    rw [hs] at h
    rw [← Slot.placeFor_eq_ok_iff.mp h]
    exact entryAt_eq_ok_iff.mp hs

/-- What the scanner's own table holds is what it was built with. -/
theorem answer_next (h : d.Sound) (s y : Atom) :
    (d.scannerTarget s y).map answerOf = (nextState s y).map .state := by
  have hlookup : d.scannerTarget s y = (nextState s y).map fun q => .atom (.state q) := by
    rw [nextState_eq_entries, ← h.scanner, scannerTarget, entryAt_mapValues]
    cases entryAt d.scanner s <;> rfl
  rw [hlookup]
  cases nextState s y <;> rfl

/-! ## Every step -/

/-- **A step in place comes to the same as the step of the workbench that is seen**: the same answer
or the same failure, and the same to be seen afterwards, also where a step failed half-way. -/
theorem perform_agrees (h : d.Sound) (s : Step) : Agrees d (d.perform s) (d.view.step s) := by
  have htable : d.view.table .frozen = (d.frozen.mapValues d.store).mapValues .cells := rfl
  cases s with
  | setCell on k col v =>
    cases on with
    | raw =>
      rw [perform, step, setCell_eq, cellsUnder_view]
      cases hp : d.placeUnder .noAssignment k with
      | error e => exact .error h rfl
      | ok p =>
        have hplace := get?_of_placeUnder hp
        exact .ok (h.write hplace _) (h.view_write hplace _)
    | frozen =>
      rw [perform, step_setCell_frozen, htable, entryAt_mapValues, entryAt_mapValues]
      cases entryAt d.frozen k <;> exact .error h rfl
  | setRow on k content =>
    cases on with
    | raw => exact .ok (h.setRow k content).1 (h.setRow k content).2
    | frozen => exact .error h rfl
  | dropCell on k col =>
    cases on with
    | raw =>
      rw [perform, step, dropCell_eq, cellsUnder_view]
      cases hp : d.placeUnder .noDeletion k with
      | error e => exact .error h rfl
      | ok p =>
        have hplace := get?_of_placeUnder hp
        simp only [Except.map, Except.bind]
        cases entryAt (d.store p) col with
        | error e => exact .error h rfl
        | ok v => exact .ok (h.write hplace _) (h.view_write hplace _)
    | frozen =>
      rw [perform, step_dropCell_frozen, htable, entryAt_mapValues, entryAt_mapValues]
      cases entryAt d.frozen k <;> exact .error h rfl
  | dropRow on k =>
    cases on with
    | raw =>
      have hrow : entryAt d.view.raw k = (entryAt d.raw k).map (Slot.row d.store) :=
        entryAt_mapValues _ d.raw k
      rw [perform, step, dropRow_eq, hrow]
      cases entryAt d.raw k with
      | error e => exact .error h rfl
      | ok s =>
        refine .ok (h.erase k.key) ?_
        rw [view, Entries.mapValues_erase]
        rfl
    | frozen => exact .error h rfl
  | get on k col =>
    rw [perform, step]
    cases d.view.get on k col with
    | error e => exact .error h rfl
    | ok v => exact .ok h rfl
  | dump on => exact .ok h rfl
  | check on =>
    rw [perform, step]
    cases (d.view.table on).check with
    | error e => exact .error h rfl
    | ok ms => exact .ok h rfl
  | next s y =>
    rw [perform, step, h.answer_next]
    cases nextState s y with
    | error e => exact .error h rfl
    | ok q => exact .ok h rfl
  | freeze => exact h.freeze

/-- Steps one after another come to the same as those of the workbench. -/
theorem run_eq (h : d.Sound) (steps : List Step) :
    (d.run steps).1.Sound ∧ (d.run steps).1.view = (d.view.run steps).1 ∧
      (d.run steps).2 = (d.view.run steps).2 := by
  induction steps generalizing d with
  | nil => exact ⟨h, rfl, rfl⟩
  | cons s rest ih =>
    have hagrees := h.perform_agrees s
    rw [Desk.run, Workbench.run]
    generalize d.perform s = result at hagrees
    generalize d.view.step s = value at hagrees
    cases hagrees with
    | ok hsound hview =>
      obtain ⟨hafter, hseen, hanswers⟩ := ih hsound
      subst hview
      exact ⟨hafter, hseen, congrArg (List.cons _) hanswers⟩
    | error hsound hview =>
      obtain ⟨hafter, hseen, hanswers⟩ := ih hsound
      rw [hview] at hseen hanswers
      exact ⟨hafter, hseen, congrArg (List.cons _) hanswers⟩

end Sound

/-! ## The desk at first -/

/-- A desk with nothing but the scanner's own table, which is the frozen one too. -/
def blank : Desk where
  store p := State.all[p]?.elim .empty FrozenTable.builtinRow
  free := State.all.length
  raw := .empty
  frozen := scannerPlaces
  scanner := scannerPlaces
where
  scannerPlaces : Entries Nat := .ofList (State.all.map fun s => (.state s, s.ordinal))

theorem toList_scannerPlaces :
    blank.scannerPlaces.toList = State.all.map fun s => (.state s, s.ordinal) :=
  Entries.toList_ofList (by decide)

theorem toList_rows_builtin : FrozenTable.builtin.rows.toList =
    State.all.map fun s => (.state s, FrozenTable.builtinRow s) :=
  Entries.toList_ofList (by decide)

theorem sound_blank : blank.Sound where
  scanner := by
    refine Entries.ext ?_
    show blank.scannerPlaces.toList.map (fun e => (e.1, blank.store e.2)) = _
    rw [toList_scannerPlaces, toList_rows_builtin]
    rfl
  unshared hi := nomatch hi
  apart hi := nomatch hi
  raw_lt hi := nomatch hi
  held_lt := by
    have hlt : ∀ {j p}, blank.scannerPlaces.get? j = some p → p < blank.free := by
      intro j p hp
      obtain ⟨k, _, hmem⟩ := Entries.get?_eq_some_iff.mp hp
      rw [toList_scannerPlaces] at hmem
      obtain ⟨s, _, hs⟩ := List.mem_map.mp hmem
      cases hs
      cases s <;> decide
    rintro p ⟨j, hj | hj⟩
    · exact hlt hj
    · exact hlt hj

theorem view_blank : blank.view = Workbench.start .empty := by
  show Workbench.mk .empty ⟨blank.scanner.mapValues blank.store⟩ = _
  rw [sound_blank.scanner]
  rfl

/-- The desk at first, the table entered row by row. -/
def start (t : Table) : Desk := (blank.run (t.toList.map fun e => .setRow .raw e.1 e.2)).1

theorem run_setRows (w : Workbench) (l : List (Atom × Row)) :
    (w.run (l.map fun e => .setRow .raw e.1 e.2)).1 =
      { w with raw := l.foldl (fun t e => t.put e.1 e.2) w.raw } := by
  induction l generalizing w with
  | nil => rfl
  | cons e rest ih => exact ih { w with raw := w.raw.put e.1 e.2 }

theorem start_eq (t : Table) : (start t).Sound ∧ (start t).view = Workbench.start t := by
  obtain ⟨hsound, hview, _⟩ := sound_blank.run_eq (t.toList.map fun e => .setRow .raw e.1 e.2)
  refine ⟨hsound, ?_⟩
  rw [start, hview, view_blank, run_setRows]
  exact congrArg Workbench.start t.ofList_toList

end SumExpr.Workbench.Desk
