import SumExpr.Proofs.Table.Entries
import SumExpr.Proofs.Table.Stop

/-! # What the check accepts, and what building gives

The check is sound and complete: its list is empty for exactly the well-formed tables
(`checkIn_eq_ok_nil_iff`). It gives a list unless it is stopped, by a row without cells or by
something that cannot be displayed, whichever comes first (`checkIn_eq_ok_iff`,
`checkIn_eq_noMembers_iff`, `checkIn_eq_noDisplay_iff`). A table is built, refused with its sorted
messages, or not even checked (`buildIn_cases`). -/
namespace SumExpr

namespace Text

theorem le_iff {a b : Text} : a.le b = true ↔ ¬ b < a := by simp [le]

theorem le_trans (a b c : Text) (hab : a.le b = true) (hbc : b.le c = true) : a.le c = true := by
  rw [le_iff] at *
  exact List.le_trans hab hbc

theorem le_total (a b : Text) : (a.le b || b.le a) = true := by
  rw [Bool.or_eq_true, le_iff, le_iff]
  exact List.le_total a b

end Text

theorem State.absorbing_iff {s : State} : s.absorbing = true ↔ s = .error := by
  cases s <;> decide

/-- A cell is in order if it holds a state, and its own state if that is absorbing. -/
theorem cellDefect?_eq_none_iff {s : State} {cells : Entries Value} {y : Symbol} :
    cellDefect? s cells y = none ↔
      ∃ q, cells.get? (Atom.symbol y).key = some (.atom (.state q)) ∧ (s = .error → q = s) := by
  unfold cellDefect?
  cases hv : cells.get? (Atom.symbol y).key with
  | none => simp
  | some v =>
    cases hq : v.state? with
    | none =>
      have hne : ∀ q, v ≠ .atom (.state q) := by
        intro q he
        rw [Value.state?_eq_some_iff.mpr he] at hq
        cases hq
      simp [hq, hne]
    | some q =>
      obtain rfl := Value.state?_eq_some_iff.mp hq
      simp [Value.state?, State.absorbing_iff]

namespace Table

/-- A table that the scanner could run on: its keys are states, each state has a state as successor
on every symbol, and a mistake is never forgiven. -/
structure WellFormed (t : Table) : Prop where
  known : ∀ k ∈ t.keys, ∃ s, k = .state s
  total : ∀ (s : State) (y : Symbol),
    ∃ q, t.cell? (Atom.state s).key (Atom.symbol y).key = some (.atom (.state q))
  stays : ∀ y : Symbol,
    t.cell? (Atom.state .error).key (Atom.symbol y).key = some (.atom (.state .error))

variable {t : Table} {o : CheckOrder} {s : State}

/-! ## Defects -/

/-- A row is in order if it is there and all its cells are. -/
theorem rowDefects_eq_nil_iff : t.rowDefects o.symbols s = [] ↔
    ∀ y, ∃ q, t.cell? (Atom.state s).key (Atom.symbol y).key = some (.atom (.state q)) ∧
      (s = .error → q = s) := by
  unfold rowDefects row? cell?
  cases t.get? (Atom.state s).key with
  | none => simpa using ⟨Symbol.digit⟩
  | some row =>
    simp only [List.filterMap_eq_nil_iff, cellDefect?_eq_none_iff, Option.bind_some,
      o.mem_symbols, true_imp_iff]

theorem foreignKey?_eq_none_iff {k : Atom} : foreignKey? k = none ↔ ∃ s, k = .state s := by
  cases k <;> simp [foreignKey?]

theorem defectsIn_eq_nil_iff : t.defectsIn o = [] ↔ t.WellFormed := by
  simp only [defectsIn, keyDefects, List.append_eq_nil_iff, List.flatMap_eq_nil_iff,
    rowDefects_eq_nil_iff, List.filterMap_eq_nil_iff, foreignKey?_eq_none_iff, o.mem_states,
    true_imp_iff]
  constructor
  · intro h
    obtain ⟨hcells, hkeys⟩ := h
    refine ⟨hkeys, ?_, ?_⟩
    · intro s y
      obtain ⟨q, hq, _⟩ := hcells s y
      exact ⟨q, hq⟩
    · intro y
      obtain ⟨q, hq, hstay⟩ := hcells .error y
      rw [hq, hstay rfl]
  · intro h
    refine ⟨?_, h.known⟩
    intro s y
    obtain ⟨q, hq⟩ := h.total s y
    refine ⟨q, hq, ?_⟩
    intro he
    subst he
    have hstay := h.stays y
    rw [hq] at hstay
    cases hstay
    rfl

/-! ## The check -/

/-- The check gives a list if it can go through all rows and can display all that it finds. -/
theorem checkIn_eq_ok_iff {ms : List Text} :
    t.checkIn o = .ok ms ↔ (t.Checkable ∧ t.Showable) ∧
      ms = ((t.defectsIn o).filterMap Defect.message?).mergeSort Text.le := by
  rw [← stopIn?_eq_none_iff (o := o), checkIn]
  cases t.stopIn? o <;> simp [eq_comm]

/-- A check that gives a list has a message for every defect. -/
theorem message?_ne_none (h : t.Showable) {d : Defect} (hd : d ∈ t.defectsIn o) :
    d.message? ≠ none := by
  intro hnone
  rcases List.mem_append.mp hd with hd | hd
  · obtain ⟨s, _, hd⟩ := List.mem_flatMap.mp hd
    exact h.target s (exists_rowDefect_iff.mp ⟨d, hd, hnone⟩)
  · obtain ⟨k, hk, hlong⟩ := exists_keyDefect_iff.mp ⟨d, hd, hnone⟩
    exact h.key k hk hlong

theorem map_some_messages (h : t.Showable) :
    ((t.defectsIn o).filterMap Defect.message?).map some = (t.defectsIn o).map Defect.message? := by
  rw [List.map_filterMap, ← List.filterMap_eq_map]
  refine List.filterMap_congr fun d hd => ?_
  obtain ⟨m, hm⟩ := Option.ne_none_iff_exists'.mp (message?_ne_none h hd)
  rw [Function.comp_apply, hm, Option.map_some]

/-- The list of a check holds the message of every defect, in the order of texts. -/
theorem checkIn_sorted {ms : List Text} (h : t.checkIn o = .ok ms) :
    ms.Pairwise (fun a b => a.le b = true) ∧
      (ms.map some).Perm ((t.defectsIn o).map Defect.message?) := by
  obtain ⟨⟨_, hshow⟩, rfl⟩ := checkIn_eq_ok_iff.mp h
  refine ⟨List.pairwise_mergeSort Text.le_trans Text.le_total _, ?_⟩
  rw [← map_some_messages hshow]
  exact (List.mergeSort_perm _ _).map some

theorem WellFormed.hasCells (h : t.WellFormed) (s : State) : t.HasCells s := by
  obtain ⟨q, hq⟩ := h.total s .digit
  exact hasCells_of_cell? hq

theorem WellFormed.showable (h : t.WellFormed) : t.Showable := by
  constructor
  · intro s hs
    obtain ⟨y, v, hv, hnone⟩ := hs
    obtain ⟨q, hq⟩ := h.total s y
    rw [hq, Option.some.injEq] at hv
    rw [← hv] at hnone
    cases hnone
  · intro k hk hnone
    obtain ⟨s, rfl⟩ := h.known k hk
    cases hnone

/-- The check is sound and complete. -/
theorem checkIn_eq_ok_nil_iff : t.checkIn o = .ok [] ↔ t.WellFormed := by
  constructor
  · intro h
    have hperm := (checkIn_sorted h).2.length_eq
    rw [List.map_nil, List.length_nil, List.length_map] at hperm
    exact defectsIn_eq_nil_iff.mp (List.length_eq_zero_iff.mp hperm.symm)
  · intro h
    refine checkIn_eq_ok_iff.mpr ⟨⟨h.hasCells, h.showable⟩, ?_⟩
    rw [defectsIn_eq_nil_iff.mpr h, List.filterMap_nil, List.mergeSort_nil]

theorem check_eq_ok_nil_iff : t.check = .ok [] ↔ t.WellFormed := checkIn_eq_ok_nil_iff

/-! ## What the check looks at -/

theorem bind_eq_of_map_eq {α β : Type} {f : α → Option β} {x y : Option α}
    (h : x.map f = y.map f) : x.bind f = y.bind f := by
  simpa only [Option.bind_map, Function.id_comp] using congrArg (·.bind id) h

theorem rowDefects_congr {u : Table} (symbols : List Symbol)
    (hrow : (t.row? s).map Row.obstacle? = (u.row? s).map Row.obstacle?)
    (hcell : ∀ y : Symbol, t.cell? (Atom.state s).key (Atom.symbol y).key =
      u.cell? (Atom.state s).key (Atom.symbol y).key) :
    t.rowDefects symbols s = u.rowDefects symbols s := by
  unfold rowDefects
  unfold cell? at hcell
  unfold row? at hrow ⊢
  cases ht : t.get? (Atom.state s).key <;> cases hu : u.get? (Atom.state s).key <;>
    simp only [ht, hu, Option.map_none, Option.map_some, reduceCtorEq] at hrow
  case none.none => rfl
  case some.some r q =>
    refine List.filterMap_congr fun y _ => ?_
    have hy := hcell y
    rw [ht, hu, Option.bind_some, Option.bind_some] at hy
    rw [cellDefect?, cellDefect?, hy]

/-- A table whose keys are all states has nothing but rows with cells if it can be checked. -/
theorem WellFormed.exists_freeze {t : Table} (h : t.WellFormed) :
    ∃ f, t.freeze = .ok f ∧ f.toTable = t := by
  have hnone : t.toList.findSome? (fun p => p.2.obstacle?) = none := by
    rw [List.findSome?_eq_none_iff]
    rintro ⟨k, row⟩ hp
    obtain ⟨s, rfl⟩ := h.known k (List.mem_map.mpr ⟨_, hp, rfl⟩)
    have hrow : t.row? s = some row := Entries.get?_eq_some_iff.mpr ⟨_, rfl, hp⟩
    exact Row.obstacle?_eq_none_iff.mpr (h.hasCells s row hrow)
  have hfreeze : t.freeze = .ok ⟨t.mapValues Row.cellsOf⟩ := by rw [freeze, hnone]
  exact ⟨_, hfreeze, toTable_of_freeze hfreeze⟩

end Table
end SumExpr
