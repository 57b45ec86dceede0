import SumExpr.Atom

/-! A finite map from keys to values that remembers the order in which its keys came. Atoms with the
same key share one entry: it keeps the place and the spelling of the first and the value of the
last. No two entries have the same key, and every operation keeps it so. `get?_put`, `get?_erase`
and `get?_mapValues` say what the operations do to a lookup. -/

namespace SumExpr

/-- Gives `k` the value `v`, in place if there is an entry for it and at the end otherwise. -/
def putEntry {β : Type} (k : Atom) (v : β) : List (Atom × β) → List (Atom × β)
  | [] => [(k, v)]
  | (j, w) :: rest => if j.key = k.key then (j, v) :: rest else (j, w) :: putEntry k v rest

theorem keys_putEntry {β : Type} (k : Atom) (v : β) (l : List (Atom × β)) :
    (putEntry k v l).map (·.1.key) =
      if k.key ∈ l.map (·.1.key) then l.map (·.1.key) else l.map (·.1.key) ++ [k.key] := by
  induction l with
  | nil => rfl
  | cons e rest ih =>
    obtain ⟨j, w⟩ := e
    by_cases h : j.key = k.key
    · simp [putEntry, h]
    · rw [putEntry, if_neg h, List.map_cons, ih]
      simp only [List.map_cons, List.mem_cons, Ne.symm h, false_or]
      split <;> rfl

theorem find?_putEntry {β : Type} (k : Atom) (v : β) (l : List (Atom × β)) (j : Key) :
    ((putEntry k v l).find? fun p => p.1.key = j).map (·.2) =
      if k.key = j then some v else (l.find? fun p => p.1.key = j).map (·.2) := by
  induction l with
  | nil => by_cases h : k.key = j <;> simp [putEntry, h]
  | cons e rest ih =>
    obtain ⟨i, w⟩ := e
    by_cases hk : i.key = k.key
    · rw [putEntry, if_pos hk, List.find?_cons, List.find?_cons]
      by_cases hj : k.key = j <;> simp [hk, hj]
    · rw [putEntry, if_neg hk, List.find?_cons, List.find?_cons]
      by_cases hi : i.key = j
      · have hj : k.key ≠ j := fun h => hk (hi.trans h.symm)
        simp [hi, hj]
      · simpa [hi] using ih

@[ext] structure Entries (β : Type) where
  toList : List (Atom × β)
  distinct : (toList.map (·.1.key)).Nodup

namespace Entries

variable {β γ : Type}

def empty : Entries β := ⟨[], List.nodup_nil⟩

def keys (e : Entries β) : List Atom := e.toList.map (·.1)

def get? (e : Entries β) (k : Key) : Option β :=
  (e.toList.find? fun p => p.1.key = k).map (·.2)

def put (e : Entries β) (k : Atom) (v : β) : Entries β where
  toList := putEntry k v e.toList
  distinct := by
    rw [keys_putEntry]
    split
    · exact e.distinct
    · next h => exact List.nodup_append.mpr ⟨e.distinct, by simp, by simp; grind⟩

/-- The entries without that of `k`. -/
def erase (e : Entries β) (k : Key) : Entries β where
  toList := e.toList.filter fun p => p.1.key ≠ k
  distinct := e.distinct.sublist (List.filter_sublist.map _)

/-- The entries that result from putting the pairs one after another. -/
def ofList (pairs : List (Atom × β)) : Entries β :=
  pairs.foldl (fun e p => e.put p.1 p.2) empty

/-- The same keys in the same order, with `f` applied to the values. -/
def mapValues (f : β → γ) (e : Entries β) : Entries γ where
  toList := e.toList.map fun p => (p.1, f p.2)
  distinct := by simpa [Function.comp_def] using e.distinct

theorem get?_put (e : Entries β) (k : Atom) (v : β) (j : Key) :
    (e.put k v).get? j = if k.key = j then some v else e.get? j :=
  find?_putEntry k v e.toList j

theorem get?_erase (e : Entries β) (k j : Key) :
    (e.erase k).get? j = if k = j then none else e.get? j := by
  by_cases hkj : k = j
  · simp [get?, erase, List.find?_filter, hkj]
  · have h : ∀ p : Atom × β, (p.1.key ≠ k ∧ p.1.key = j) ↔ p.1.key = j := fun p =>
      ⟨And.right, fun hj => ⟨fun hk => hkj (hk.symm.trans hj), hj⟩⟩
    simp [get?, erase, List.find?_filter, h, hkj]

theorem get?_mapValues (f : β → γ) (e : Entries β) (j : Key) :
    (e.mapValues f).get? j = (e.get? j).map f := by
  simp [get?, mapValues, List.find?_map, Function.comp_def]

theorem mapValues_mapValues {δ : Type} (f : β → γ) (g : γ → δ) (e : Entries β) :
    (e.mapValues f).mapValues g = e.mapValues (g ∘ f) := by
  ext1
  simp [mapValues, Function.comp_def]

theorem keys_mapValues (f : β → γ) (e : Entries β) : (e.mapValues f).keys = e.keys := by
  simp [keys, mapValues, Function.comp_def]

end Entries
end SumExpr
