import SumExpr.Proofs.Table.Basic

/-! # Entries, their keys and their order

What a map looks like is known from its keys in their order and from what a lookup finds
(`Entries.eq_of_get?`), and each operation has an equation for both. -/
namespace SumExpr

theorem putEntry_of_notMem {β : Type} {k : Atom} {v : β} {l : List (Atom × β)}
    (h : k.key ∉ l.map (·.1.key)) : putEntry k v l = l ++ [(k, v)] := by
  induction l with
  | nil => rfl
  | cons e rest ih =>
    obtain ⟨hne, hrest⟩ : k.key ≠ e.1.key ∧ k.key ∉ rest.map (·.1.key) := by simpa using h
    rw [putEntry, if_neg hne.symm, ih hrest, List.cons_append]

/-- The keys after `k` got a value. -/
def keysWith (k : Atom) (ks : List Atom) : List Atom :=
  if k.key ∈ ks.map Atom.key then ks else ks ++ [k]

/-- The keys after `k` was deleted. -/
def keysWithout (k : Atom) (ks : List Atom) : List Atom := ks.filter fun j => j.key ≠ k.key

namespace Entries

variable {β γ : Type}

/-! ## Keys -/

theorem map_key_keys (e : Entries β) : e.keys.map Atom.key = e.toList.map (·.1.key) := by
  rw [keys, List.map_map]
  rfl

theorem keys_put (e : Entries β) (k : Atom) (v : β) : (e.put k v).keys = keysWith k e.keys := by
  unfold keysWith
  rw [map_key_keys]
  split
  · next h => exact map_fst_putEntry h
  · next h =>
    have hput : (e.put k v).toList = e.toList ++ [(k, v)] := putEntry_of_notMem h
    rw [keys, hput, List.map_append]
    rfl

theorem keys_erase (e : Entries β) (k : Atom) : (e.erase k.key).keys = keysWithout k e.keys := by
  rw [keys, keysWithout, keys, List.filter_map]
  rfl

/-! ## Equality -/

theorem toList_eq_filterMap (e : Entries β) :
    e.toList = e.keys.filterMap fun k => (e.get? k.key).map fun v => (k, v) := by
  have hfound : ∀ p ∈ e.toList, ((e.get? p.1.key).map fun v => (p.1, v)) = some p := by
    intro p hp
    rw [get?_eq_some_iff.mpr ⟨p.1, rfl, hp⟩]
    rfl
  rw [keys, List.filterMap_map]
  exact ((List.filterMap_congr hfound).trans List.filterMap_some).symm

/-- Maps with the same keys in the same order, in which lookups find the same, are equal. -/
theorem eq_of_get? {e f : Entries β} (hkeys : e.keys = f.keys) (hget : ∀ j, e.get? j = f.get? j) :
    e = f := by
  ext1
  rw [toList_eq_filterMap, toList_eq_filterMap f, hkeys]
  simp only [hget]

theorem mapValues_congr {f g : β → γ} {e : Entries β}
    (h : ∀ j v, e.get? j = some v → f v = g v) : e.mapValues f = e.mapValues g := by
  refine eq_of_get? ?_ ?_
  · rw [keys_mapValues, keys_mapValues]
  · intro j
    rw [get?_mapValues, get?_mapValues]
    cases hj : e.get? j with
    | none => rfl
    | some v => rw [Option.map_some, Option.map_some, h j v hj]

theorem mapValues_put (f : β → γ) (e : Entries β) (k : Atom) (v : β) :
    (e.put k v).mapValues f = (e.mapValues f).put k (f v) := by
  refine eq_of_get? ?_ ?_
  · rw [keys_mapValues, keys_put, keys_put, keys_mapValues]
  · intro j
    rw [get?_mapValues, get?_put, get?_put, get?_mapValues, apply_ite (Option.map f),
      Option.map_some]

theorem mapValues_erase (f : β → γ) (e : Entries β) (k : Atom) :
    (e.erase k.key).mapValues f = (e.mapValues f).erase k.key := by
  refine eq_of_get? ?_ ?_
  · rw [keys_mapValues, keys_erase, keys_erase, keys_mapValues]
  · intro j
    rw [get?_mapValues, get?_erase, get?_erase, get?_mapValues, apply_ite (Option.map f),
      Option.map_none]

/-! ## Entries one after another -/

theorem toList_foldl_put {l : List (Atom × β)} {e : Entries β}
    (h : ((e.toList ++ l).map (·.1.key)).Nodup) :
    (l.foldl (fun e p => e.put p.1 p.2) e).toList = e.toList ++ l := by
  induction l generalizing e with
  | nil => rw [List.foldl_nil, List.append_nil]
  | cons p rest ih =>
    have hnew : p.1.key ∉ e.toList.map (·.1.key) := by
      rw [List.map_append, List.map_cons] at h
      intro hmem
      exact List.disjoint_of_nodup_append h hmem List.mem_cons_self
    have hput : (e.put p.1 p.2).toList = e.toList ++ [p] := putEntry_of_notMem hnew
    rw [List.append_cons, ← hput] at h
    rw [List.foldl_cons, ih h, hput, ← List.append_cons]

theorem toList_ofList {l : List (Atom × β)} (h : (l.map (·.1.key)).Nodup) :
    (ofList l).toList = l :=
  toList_foldl_put h

theorem ofList_toList (e : Entries β) : ofList e.toList = e :=
  Entries.ext (toList_ofList e.distinct)

end Entries
end SumExpr
