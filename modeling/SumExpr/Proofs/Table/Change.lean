import SumExpr.Proofs.Table.Entries
import SumExpr.Table.Workbench

/-! # What a step changes

A step that succeeds makes one change, or none at all (`Change`). What it does to the keys of the
table and of its rows is the same in both places: a key that is there already keeps its place and
its spelling, a new one comes last, and one that is deleted is gone (`keysAt_of_change`). -/
namespace SumExpr

/-! ## Changes -/

namespace Workbench

/-- Steps that only look. -/
inductive Step.Looks : Step → Prop
  | get (on : Side) (k col : Atom) : Looks (.get on k col)
  | dump (on : Side) : Looks (.dump on)
  | check (on : Side) : Looks (.check on)
  | next (s y : Atom) : Looks (.next s y)

/-- Steps that try to change what is frozen. -/
inductive Step.WritesFrozen : Step → Prop
  | setCell (k col : Atom) (v : Value) : Step.WritesFrozen (.setCell .frozen k col v)
  | setRow (k : Atom) (content : Row) : Step.WritesFrozen (.setRow .frozen k content)
  | dropCell (k col : Atom) : Step.WritesFrozen (.dropCell .frozen k col)
  | dropRow (k : Atom) : Step.WritesFrozen (.dropRow .frozen k)

/-- What a step makes of a workbench if it succeeds. -/
inductive Change (w : Workbench) : Step → Workbench → Prop
  | setRow (k : Atom) (content : Row) :
      Change w (.setRow .raw k content) { w with raw := w.raw.put k content }
  | dropRow {k : Atom} {row : Row} (hrow : w.raw.get? k.key = some row) :
      Change w (.dropRow .raw k) { w with raw := w.raw.erase k.key }
  | setCell {k : Atom} {cells : Entries Value} (hrow : w.raw.get? k.key = some (.cells cells))
      (col : Atom) (v : Value) :
      Change w (.setCell .raw k col v) { w with raw := w.raw.put k (.cells (cells.put col v)) }
  | dropCell {k col : Atom} {cells : Entries Value} {v : Value}
      (hrow : w.raw.get? k.key = some (.cells cells)) (hcell : cells.get? col.key = some v) :
      Change w (.dropCell .raw k col) { w with raw := w.raw.put k (.cells (cells.erase col.key)) }
  | freeze {f : FrozenTable} (hfreeze : w.raw.freeze = .ok f) :
      Change w .freeze { w with frozen := f }
  | look {s : Step} (h : s.Looks) : Change w s w

/-! ## Steps by what they look up -/

/-- The entry of a key. -/
def entryAt {β : Type} (e : Entries β) (k : Atom) : Except TableError β :=
  match e.get? k.key with
  | some v => .ok v
  | none => .error (.missingKey k)

theorem entryAt_eq_ok_iff {β : Type} {e : Entries β} {k : Atom} {v : β} :
    entryAt e k = .ok v ↔ e.get? k.key = some v := by
  unfold entryAt
  cases e.get? k.key <;> simp

/-- The successor is looked up in the table of the scanner, the row before the column. -/
theorem nextState_eq_entries (s y : Atom) :
    (nextState s y).map (fun q => Value.atom (.state q)) =
      (entryAt FrozenTable.builtin.rows s).bind fun row => entryAt row y := by
  unfold nextState entryAt
  rw [FrozenTable.get?_rows_builtin]
  cases State.ofKey? s.key with
  | none => rfl
  | some q =>
    simp only [Option.map_some, Except.bind, FrozenTable.get?_builtinRow]
    cases Symbol.ofKey? y.key <;> rfl

/-- The cells of the row under a key, or the refusal that its lack of cells calls for. -/
def cellsUnder (refusal : Obstacle → TableError) (t : Table) (k : Atom) :
    Except TableError (Entries Value) :=
  (entryAt t k).bind (cellsAt refusal)

theorem cellsUnder_eq_ok_iff {refusal : Obstacle → TableError} {t : Table} {k : Atom}
    {cells : Entries Value} :
    cellsUnder refusal t k = .ok cells ↔ t.get? k.key = some (.cells cells) := by
  unfold cellsUnder entryAt
  cases t.get? k.key with
  | none => simp [Except.bind]
  | some row => cases row <;> simp [Except.bind, cellsAt]

section Equations

variable (w : Workbench) (k col : Atom)

theorem setCell_eq (v : Value) :
    w.setCell k col v = (cellsUnder .noAssignment w.raw k).map fun cells =>
      { w with raw := w.raw.put k (.cells (cells.put col v)) } := by
  unfold setCell rowAt cellsUnder entryAt
  cases w.raw.get? k.key with
  | none => rfl
  | some row => cases row <;> rfl

theorem dropCell_eq :
    w.dropCell k col = (cellsUnder .noDeletion w.raw k).bind fun cells =>
      (entryAt cells col).map fun _ =>
        { w with raw := w.raw.put k (.cells (cells.erase col.key)) } := by
  unfold dropCell rowAt cellsUnder entryAt
  cases w.raw.get? k.key with
  | none => rfl
  | some row =>
    cases row with
    | cells cells =>
      simp only [bind, Except.bind, cellsAt]
      cases cells.get? col.key <;> rfl
    | null => rfl
    | number n => rfl

theorem dropRow_eq :
    w.dropRow k = (entryAt w.raw k).map fun _ => { w with raw := w.raw.erase k.key } := by
  unfold dropRow rowAt entryAt
  cases w.raw.get? k.key <;> rfl

theorem step_setCell_frozen (v : Value) :
    w.step (.setCell .frozen k col v) =
      (entryAt (w.table .frozen) k).bind fun _ => .error (assignmentRefusal col) := by
  rw [step]
  unfold rowAt entryAt
  cases (w.table .frozen).get? k.key <;> rfl

theorem step_dropCell_frozen :
    w.step (.dropCell .frozen k col) =
      (entryAt (w.table .frozen) k).bind fun _ => .error (deletionRefusal col) := by
  rw [step]
  unfold rowAt entryAt
  cases (w.table .frozen).get? k.key <;> rfl

end Equations

/-- What is frozen is never changed, whatever stands under the keys. -/
theorem step_of_writesFrozen (w : Workbench) {s : Step} (h : s.WritesFrozen) :
    ∃ e, w.step s = .error e := by
  cases h with
  | setCell k col v =>
    rw [step_setCell_frozen]
    cases entryAt (w.table .frozen) k <;> exact ⟨_, rfl⟩
  | setRow k content => exact ⟨_, rfl⟩
  | dropCell k col =>
    rw [step_dropCell_frozen]
    cases entryAt (w.table .frozen) k <;> exact ⟨_, rfl⟩
  | dropRow k => exact ⟨_, rfl⟩

/-- A step that succeeds makes its change. -/
theorem change_of_step {w next : Workbench} {s : Step} {answer : Answer}
    (h : w.step s = .ok (next, answer)) : Change w s next := by
  have hwrites : ¬ s.WritesFrozen := by
    intro hs
    obtain ⟨e, he⟩ := step_of_writesFrozen w hs
    rw [he] at h
    cases h
  cases s with
  | setCell on k col v =>
    cases on with
    | raw =>
      rw [step, setCell_eq] at h
      cases hcells : cellsUnder .noAssignment w.raw k with
      | error e => rw [hcells] at h; cases h
      | ok cells =>
        rw [hcells] at h
        cases h
        exact .setCell (cellsUnder_eq_ok_iff.mp hcells) col v
    | frozen => exact absurd (.setCell k col v) hwrites
  | setRow on k content =>
    cases on with
    | raw => cases h; exact .setRow k content
    | frozen => exact absurd (.setRow k content) hwrites
  | dropCell on k col =>
    cases on with
    | raw =>
      rw [step, dropCell_eq] at h
      cases hcells : cellsUnder .noDeletion w.raw k with
      | error e => rw [hcells] at h; cases h
      | ok cells =>
        rw [hcells, Except.bind] at h
        cases hcell : entryAt cells col with
        | error e => rw [hcell] at h; cases h
        | ok v =>
          rw [hcell] at h
          cases h
          exact .dropCell (cellsUnder_eq_ok_iff.mp hcells) (entryAt_eq_ok_iff.mp hcell)
    | frozen => exact absurd (.dropCell k col) hwrites
  | dropRow on k =>
    cases on with
    | raw =>
      rw [step, dropRow_eq] at h
      cases hrow : entryAt w.raw k with
      | error e => rw [hrow] at h; cases h
      | ok row =>
        rw [hrow] at h
        cases h
        exact .dropRow (entryAt_eq_ok_iff.mp hrow)
    | frozen => exact absurd (.dropRow k) hwrites
  | get on k col =>
    rw [step] at h
    cases hvalue : w.get on k col <;> rw [hvalue] at h <;> cases h
    exact .look (.get on k col)
  | dump on => cases h; exact .look (.dump on)
  | check on =>
    rw [step] at h
    cases hcheck : (w.table on).check <;> rw [hcheck] at h <;> cases h
    exact .look (.check on)
  | next s y =>
    rw [step] at h
    cases hnext : nextState s y <;> rw [hnext] at h <;> cases h
    exact .look (.next s y)
  | freeze =>
    rw [step] at h
    cases hfreeze : w.raw.freeze with
    | error e => rw [hfreeze] at h; cases h
    | ok f =>
      rw [hfreeze] at h
      cases h
      exact .freeze hfreeze

/-! ## Keys in a place -/

/-- Where keys stand: in the table that may be changed, or in one of its rows. -/
inductive Place
  | table
  | row (k : Key)

def keysAt (w : Workbench) : Place → List Atom
  | .table => w.raw.keys
  | .row k => (w.raw.get? k).elim [] fun r => r.cellsOf.keys

theorem nodup_keysAt (w : Workbench) (p : Place) : ((w.keysAt p).map Atom.key).Nodup := by
  cases p with
  | table =>
    rw [keysAt, Entries.map_key_keys]
    exact w.raw.distinct
  | row k =>
    rw [keysAt]
    cases w.raw.get? k with
    | none => exact List.nodup_nil
    | some r =>
      rw [Option.elim_some, Entries.map_key_keys]
      exact r.cellsOf.distinct

/-- What a step is going to do with the keys in a place. Another row in the place of one is another
place. -/
inductive Aim
  | nothing
  | set (k : Atom)
  | drop (k : Atom)
  | replace
  deriving DecidableEq

def Step.aim : Step → Place → Aim
  | .setRow .raw k _, .table => .set k
  | .setRow .raw k _, .row j => if k.key = j then .replace else .nothing
  | .dropRow .raw k, .table => .drop k
  | .dropRow .raw k, .row j => if k.key = j then .replace else .nothing
  | .setCell .raw k col _, .row j => if k.key = j then .set col else .nothing
  | .dropCell .raw k col, .row j => if k.key = j then .drop col else .nothing
  | _, _ => .nothing

/-- The keys in a place after a step that left the place there. -/
def Aim.keys : Aim → List Atom → List Atom
  | .set k, ks => keysWith k ks
  | .drop k, ks => keysWithout k ks
  | _, ks => ks

/-- A step that succeeds does with the keys what it aims to do. -/
theorem keysAt_of_change {w next : Workbench} {s : Step} {p : Place} (h : Change w s next)
    (hp : s.aim p ≠ .replace) : next.keysAt p = (s.aim p).keys (w.keysAt p) := by
  cases h with
  | setRow k content =>
    cases p with
    | table => exact Entries.keys_put w.raw k content
    | row j =>
      by_cases hj : k.key = j
      · exact absurd (if_pos hj) hp
      · rw [Step.aim, if_neg hj, keysAt, Entries.get?_put, if_neg hj]
        rfl
  | @dropRow k row hrow =>
    cases p with
    | table => exact Entries.keys_erase w.raw k
    | row j =>
      by_cases hj : k.key = j
      · exact absurd (if_pos hj) hp
      · rw [Step.aim, if_neg hj, keysAt, Entries.get?_erase, if_neg hj]
        rfl
  | @setCell k cells hrow col v =>
    cases p with
    | table => exact Entries.keys_put_of_get? hrow
    | row j =>
      by_cases hj : k.key = j
      · subst hj
        rw [Step.aim, if_pos rfl, keysAt, keysAt, Entries.get?_put, if_pos rfl, hrow]
        exact Entries.keys_put cells col v
      · rw [Step.aim, if_neg hj, keysAt, Entries.get?_put, if_neg hj]
        rfl
  | @dropCell k col cells v hrow hcell =>
    cases p with
    | table => exact Entries.keys_put_of_get? hrow
    | row j =>
      by_cases hj : k.key = j
      · subst hj
        rw [Step.aim, if_pos rfl, keysAt, keysAt, Entries.get?_put, if_pos rfl, hrow]
        exact Entries.keys_erase cells col
      · rw [Step.aim, if_neg hj, keysAt, Entries.get?_put, if_neg hj]
        rfl
  | freeze hfreeze => rfl
  | look hlooks => cases hlooks <;> rfl

end Workbench
end SumExpr
