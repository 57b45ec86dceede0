import Mathlib.Logic.Function.Basic
import SumExpr.Proofs.Table.Change

/-! # A desk

On a desk every row is in a place of a store. A row is changed where it is; freezing copies the rows
one by one into places of their own, and stops at the first thing that is no row, with the copies it
has made left behind. The frozen table holds places too, at first those of the scanner's own table.

What is seen of a desk is a workbench (`Desk.view`). No place may be shared (`Desk.Sound`): then a
write, a new row and a deletion are seen where they are made and nowhere else. -/
namespace SumExpr.Workbench

/-- What stands under a key of a table on a desk. -/
inductive Slot
  | cells (place : Nat)
  | null
  | number (n : Int)

namespace Slot

def row (store : Nat → Entries Value) : Slot → Row
  | .cells p => .cells (store p)
  | .null => .null
  | .number n => .number n

def obstacle? : Slot → Option Obstacle
  | .cells _ => none
  | .null => some .null
  | .number _ => some .number

/-- The place of a row, or the refusal that its lack of cells calls for. -/
def placeFor (refusal : Obstacle → TableError) : Slot → Except TableError Nat
  | .cells p => .ok p
  | .null => .error (refusal .null)
  | .number _ => .error (refusal .number)

theorem cellsAt_row (refusal : Obstacle → TableError) (store : Nat → Entries Value) (s : Slot) :
    cellsAt refusal (s.row store) = (s.placeFor refusal).map store := by
  cases s <;> rfl

theorem obstacle?_row (store : Nat → Entries Value) (s : Slot) :
    (s.row store).obstacle? = s.obstacle? := by
  cases s <;> rfl

theorem placeFor_eq_ok_iff {refusal : Obstacle → TableError} {s : Slot} {p : Nat} :
    s.placeFor refusal = .ok p ↔ s = .cells p := by
  cases s <;> simp [placeFor]

end Slot

structure Desk where
  store : Nat → Entries Value
  /-- This place and all behind it are free. -/
  free : Nat
  raw : Entries Slot
  frozen : Entries Nat
  /-- The scanner's own table. -/
  scanner : Entries Nat

namespace Desk

/-- What is seen of a desk. -/
def view (d : Desk) : Workbench :=
  ⟨d.raw.mapValues (Slot.row d.store), ⟨d.frozen.mapValues d.store⟩⟩

/-! ## Steps in place -/

def write (d : Desk) (p : Nat) (cells : Entries Value) : Desk :=
  { d with store := Function.update d.store p cells }

/-- Takes a free place. -/
def alloc (d : Desk) (cells : Entries Value) : Desk :=
  { d with store := Function.update d.store d.free cells, free := d.free + 1 }

def setRow (d : Desk) (k : Atom) : Row → Desk
  | .cells cells => { d.alloc cells with raw := d.raw.put k (.cells d.free) }
  | .null => { d with raw := d.raw.put k .null }
  | .number n => { d with raw := d.raw.put k (.number n) }

def placeUnder (d : Desk) (refusal : Obstacle → TableError) (k : Atom) : Except TableError Nat :=
  (entryAt d.raw k).bind (Slot.placeFor refusal)

/-- Copies the rows one after another. What has no cells stops it, and the copies made so far stay
where they are. -/
def copyRows (d : Desk) : List (Atom × Slot) → Desk × Except TableError (List (Atom × Nat))
  | [] => (d, .ok [])
  | (k, slot) :: rest =>
    match slot.placeFor .noElements with
    | .error e => (d, .error e)
    | .ok p =>
      let after := (d.alloc (d.store p)).copyRows rest
      (after.1, after.2.map fun copies => (k, d.free) :: copies)

/-- The content of a cell of the scanner's own table, the row looked up before the column. -/
def scannerTarget (d : Desk) (s y : Atom) : Except TableError Value :=
  (entryAt d.scanner s).bind fun p => entryAt (d.store p) y

/-- A state as an answer. -/
def answerOf (v : Value) : Answer := v.state?.elim (.value v) .state

/-- A step, and what is left behind whether it fails or not. -/
def perform (d : Desk) : Step → Desk × Except TableError Answer
  | .setCell .raw k col v =>
    match d.placeUnder .noAssignment k with
    | .error e => (d, .error e)
    | .ok p => (d.write p ((d.store p).put col v), .ok .done)
  | .setCell .frozen k col _ =>
    (d, (entryAt d.frozen k).bind fun _ => .error (assignmentRefusal col))
  | .setRow .raw k content => (d.setRow k content, .ok .done)
  | .setRow .frozen k _ => (d, .error (assignmentRefusal k))
  | .dropCell .raw k col =>
    match d.placeUnder .noDeletion k with
    | .error e => (d, .error e)
    | .ok p =>
      match entryAt (d.store p) col with
      | .error e => (d, .error e)
      | .ok _ => (d.write p ((d.store p).erase col.key), .ok .done)
  | .dropCell .frozen k col =>
    (d, (entryAt d.frozen k).bind fun _ => .error (deletionRefusal col))
  | .dropRow .raw k =>
    match entryAt d.raw k with
    | .error e => (d, .error e)
    | .ok _ => ({ d with raw := d.raw.erase k.key }, .ok .done)
  | .dropRow .frozen k => (d, .error (deletionRefusal k))
  | .get on k col => (d, (d.view.get on k col).map .value)
  | .dump on => (d, .ok (.table (d.view.table on)))
  | .check on => (d, (d.view.table on).check.map .messages)
  | .next s y => (d, (d.scannerTarget s y).map answerOf)
  | .freeze =>
    match d.copyRows d.raw.toList with
    | (after, .ok copies) => ({ after with frozen := .ofList copies }, .ok .done)
    | (after, .error e) => (after, .error e)

/-- The desk after the steps, and the answer to each. -/
def run (d : Desk) : List Step → Desk × List (Except TableError Answer)
  | [] => (d, [])
  | s :: rest =>
    let now := d.perform s
    let after := now.1.run rest
    (after.1, now.2 :: after.2)

/-! ## No place is shared -/

/-- A place that must not change: one of the frozen table or of the scanner's. -/
def Held (d : Desk) (p : Nat) : Prop :=
  ∃ j, d.frozen.get? j = some p ∨ d.scanner.get? j = some p

structure Sound (d : Desk) : Prop where
  scanner : d.scanner.mapValues d.store = FrozenTable.builtin.rows
  unshared : ∀ {i j p}, d.raw.get? i = some (.cells p) → d.raw.get? j = some (.cells p) → i = j
  apart : ∀ {i p}, d.raw.get? i = some (.cells p) → ¬ d.Held p
  raw_lt : ∀ {i p}, d.raw.get? i = some (.cells p) → p < d.free
  held_lt : ∀ {p}, d.Held p → p < d.free

/-! ## Nothing but new places -/

/-- The same tables in a store with at most some more places taken. -/
structure Extends (d after : Desk) : Prop where
  raw : after.raw = d.raw
  frozen : after.frozen = d.frozen
  scanner : after.scanner = d.scanner
  free : d.free ≤ after.free
  store : ∀ p < d.free, after.store p = d.store p

theorem Extends.refl (d : Desk) : d.Extends d := ⟨rfl, rfl, rfl, Nat.le_refl _, fun _ _ => rfl⟩

theorem Extends.trans {d e f : Desk} (h : d.Extends e) (h' : e.Extends f) : d.Extends f where
  raw := h'.raw.trans h.raw
  frozen := h'.frozen.trans h.frozen
  scanner := h'.scanner.trans h.scanner
  free := Nat.le_trans h.free h'.free
  store p hp := (h'.store p (Nat.lt_of_lt_of_le hp h.free)).trans (h.store p hp)

theorem extends_alloc (d : Desk) (cells : Entries Value) : d.Extends (d.alloc cells) where
  raw := rfl
  frozen := rfl
  scanner := rfl
  free := d.free.le_succ
  store _ hp := Function.update_of_ne (Nat.ne_of_lt hp) _ _

theorem Extends.held_iff {d after : Desk} (h : d.Extends after) {p : Nat} :
    after.Held p ↔ d.Held p := by
  rw [Held, Held, h.frozen, h.scanner]

theorem row_congr {f g : Nat → Entries Value} {e : Entries Slot}
    (h : ∀ {j p}, e.get? j = some (.cells p) → f p = g p) :
    e.mapValues (Slot.row f) = e.mapValues (Slot.row g) := by
  refine Entries.mapValues_congr ?_
  intro j s hs
  cases s with
  | cells p => exact congrArg Row.cells (h hs)
  | null => rfl
  | number n => rfl

theorem held_congr {d : Desk} {f g : Nat → Entries Value} (h : ∀ p, d.Held p → f p = g p) :
    d.frozen.mapValues f = d.frozen.mapValues g ∧ d.scanner.mapValues f = d.scanner.mapValues g :=
  ⟨Entries.mapValues_congr fun j p hp => h p ⟨j, .inl hp⟩,
    Entries.mapValues_congr fun j p hp => h p ⟨j, .inr hp⟩⟩

namespace Sound

variable {d after : Desk}

theorem view_extends (h : d.Sound) (hext : d.Extends after) : after.view = d.view := by
  have hheld := held_congr fun p hp => hext.store p (h.held_lt hp)
  rw [view, view, hext.raw, hext.frozen, row_congr fun hp => hext.store _ (h.raw_lt hp), hheld.1]

theorem of_extends (h : d.Sound) (hext : d.Extends after) : after.Sound where
  scanner := by
    rw [hext.scanner, (held_congr fun p hp => hext.store p (h.held_lt hp)).2, h.scanner]
  unshared := by rw [hext.raw]; exact h.unshared
  apart hp hheld := by
    rw [hext.raw] at hp
    exact h.apart hp (hext.held_iff.mp hheld)
  raw_lt hp := by
    rw [hext.raw] at hp
    exact Nat.lt_of_lt_of_le (h.raw_lt hp) hext.free
  held_lt hp := Nat.lt_of_lt_of_le (h.held_lt (hext.held_iff.mp hp)) hext.free

/-! ## Rows changed in place -/

section Write

variable {k : Atom} {p : Nat} (hp : d.raw.get? k.key = some (.cells p)) (cells : Entries Value)

include hp

theorem store_of_held (h : d.Sound) {q : Nat} (hq : d.Held q) :
    Function.update d.store p cells q = d.store q := by
  refine Function.update_of_ne ?_ _ _
  rintro rfl
  exact h.apart hp hq

theorem view_write (h : d.Sound) :
    (d.write p cells).view = { d.view with raw := d.view.raw.put k (.cells cells) } := by
  have hraw : d.raw.mapValues (Slot.row (Function.update d.store p cells)) =
      (d.raw.mapValues (Slot.row d.store)).put k (.cells cells) := by
    have hrow : (d.raw.mapValues (Slot.row d.store)).get? k.key = some (.cells (d.store p)) := by
      rw [Entries.get?_mapValues, hp]
      rfl
    refine Entries.eq_of_get? ?_ ?_
    · rw [Entries.keys_put_of_get? hrow, Entries.keys_mapValues, Entries.keys_mapValues]
    · intro j
      rw [Entries.get?_mapValues, Entries.get?_put, Entries.get?_mapValues]
      by_cases hj : k.key = j
      · rw [if_pos hj, ← hj, hp, Option.map_some, Slot.row, Function.update_self]
      · rw [if_neg hj]
        cases hs : d.raw.get? j with
        | none => rfl
        | some s =>
          cases s with
          | cells q =>
            have hq : q ≠ p := by
              rintro rfl
              exact hj (h.unshared hp hs)
            simp only [Option.map_some, Slot.row, Function.update_of_ne hq]
          | null => rfl
          | number n => rfl
  rw [view, write, hraw, (held_congr fun q hq => h.store_of_held hp cells hq).1]
  rfl

theorem write (h : d.Sound) : (d.write p cells).Sound where
  scanner := (held_congr fun _ hq => h.store_of_held hp cells hq).2.trans h.scanner
  unshared := h.unshared
  apart := h.apart
  raw_lt := h.raw_lt
  held_lt := h.held_lt

end Write

/-! ## Rows that come and go -/

theorem put (h : d.Sound) {k : Atom} {s : Slot}
    (hnew : ∀ p, s = .cells p →
      p < d.free ∧ ¬ d.Held p ∧ ∀ j, d.raw.get? j ≠ some (.cells p)) :
    Sound { d with raw := d.raw.put k s } := by
  have hcases : ∀ {j p}, (d.raw.put k s).get? j = some (.cells p) →
      (k.key = j ∧ s = .cells p) ∨ d.raw.get? j = some (.cells p) := by
    intro j p hj
    rw [Entries.get?_put] at hj
    split at hj
    · next hk => exact .inl ⟨hk, Option.some.inj hj⟩
    · exact .inr hj
  refine ⟨h.scanner, ?_, ?_, ?_, h.held_lt⟩
  · intro i j p hi hj
    obtain ⟨hk, hs⟩ | hi := hcases hi
    · obtain ⟨hk', _⟩ | hj := hcases hj
      · exact hk.symm.trans hk'
      · exact absurd hj ((hnew p hs).2.2 j)
    · obtain ⟨_, hs⟩ | hj := hcases hj
      · exact absurd hi ((hnew p hs).2.2 i)
      · exact h.unshared hi hj
  · intro i p hi
    obtain ⟨_, hs⟩ | hi := hcases hi
    · exact (hnew p hs).2.1
    · exact h.apart hi
  · intro i p hi
    obtain ⟨_, hs⟩ | hi := hcases hi
    · exact (hnew p hs).1
    · exact h.raw_lt hi

theorem erase (h : d.Sound) (k : Key) : Sound { d with raw := d.raw.erase k } := by
  have hkept : ∀ {j s}, (d.raw.erase k).get? j = some s → d.raw.get? j = some s := by
    intro j s hj
    rw [Entries.get?_erase] at hj
    split at hj
    · cases hj
    · exact hj
  exact ⟨h.scanner, fun hi hj => h.unshared (hkept hi) (hkept hj), fun hi => h.apart (hkept hi),
    fun hi => h.raw_lt (hkept hi), h.held_lt⟩

theorem setRow (h : d.Sound) (k : Atom) (content : Row) :
    (d.setRow k content).Sound ∧
      (d.setRow k content).view = { d.view with raw := d.view.raw.put k content } := by
  cases content with
  | cells cells =>
    have hext := d.extends_alloc cells
    have hview := h.view_extends hext
    refine ⟨(h.of_extends hext).put ?_, ?_⟩
    · rintro p hp
      cases hp
      exact ⟨d.free.lt_succ_self, fun hheld => Nat.lt_irrefl _ (h.held_lt hheld),
        fun j hj => Nat.lt_irrefl _ (h.raw_lt hj)⟩
    · have hrow : Slot.row (d.alloc cells).store (.cells d.free) = .cells cells :=
        congrArg Row.cells (Function.update_self _ _ _)
      rw [← hview, view, view, Desk.setRow, Entries.mapValues_put, hrow]
      rfl
  | null =>
    refine ⟨h.put nofun, ?_⟩
    rw [view, Desk.setRow, Entries.mapValues_put]
    rfl
  | number n =>
    refine ⟨h.put nofun, ?_⟩
    rw [view, Desk.setRow, Entries.mapValues_put]
    rfl

end Sound
end Desk
end SumExpr.Workbench
