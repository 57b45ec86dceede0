import Mathlib.Data.List.Induction
import SumExpr.Proofs.Table.InPlace

/-! # What a workbench remembers

After any steps the frozen table is the raw one of the last successful freeze, and the keys of the
raw table and of its rows stand in the order in which they came, whatever else was changed since.
Both follow from what one step does (`afterStep`), by induction on the steps. -/
namespace SumExpr.Workbench

/-- The workbench after a step, whether it succeeds or not. -/
def afterStep (w : Workbench) (s : Step) : Workbench :=
  match w.step s with
  | .ok (next, _) => next
  | .error _ => w

/-- The workbench after steps that began with a raw table and the scanner's own. -/
def after (raw : Table) (steps : List Step) : Workbench := ((start raw).run steps).1

theorem run_fst (w : Workbench) (steps : List Step) :
    (w.run steps).1 = steps.foldl afterStep w := by
  induction steps generalizing w with
  | nil => rfl
  | cons s rest ih =>
    rw [run, List.foldl_cons, afterStep]
    cases w.step s with
    | ok r => exact ih r.1
    | error e => exact ih w

theorem after_append (raw : Table) (steps more : List Step) :
    after raw (steps ++ more) = more.foldl afterStep (after raw steps) := by
  rw [after, after, run_fst, run_fst, List.foldl_append]

theorem after_concat (raw : Table) (steps : List Step) (s : Step) :
    after raw (steps ++ [s]) = (after raw steps).afterStep s :=
  after_append raw steps [s]

theorem afterStep_of_error {w : Workbench} {s : Step} {e : TableError} (h : w.step s = .error e) :
    w.afterStep s = w := by
  rw [afterStep, h]

def Succeeds (w : Workbench) (s : Step) : Prop := ∃ r, w.step s = .ok r

theorem change_of_succeeds {w : Workbench} {s : Step} (h : w.Succeeds s) :
    Change w s (w.afterStep s) := by
  obtain ⟨r, hr⟩ := h
  rw [afterStep, hr]
  exact change_of_step hr

theorem afterStep_cases (w : Workbench) (s : Step) :
    Change w s (w.afterStep s) ∨ w.afterStep s = w := by
  cases h : w.step s with
  | ok r => exact .inl (change_of_succeeds ⟨r, h⟩)
  | error e => exact .inr (afterStep_of_error h)

/-! ## The last freeze -/

/-- Behind the steps `before` there is a freeze that succeeds. -/
def Froze (raw : Table) (steps before : List Step) : Prop :=
  before ++ [.freeze] <+: steps ∧ ∃ f, (after raw before).raw.freeze = .ok f

theorem froze_concat_iff {raw : Table} {steps before : List Step} {s : Step} :
    Froze raw (steps ++ [s]) before ↔ Froze raw steps before ∨
      before = steps ∧ s = .freeze ∧ ∃ f, (after raw steps).raw.freeze = .ok f := by
  rw [Froze, Froze, List.prefix_concat_iff, or_and_right, or_comm]
  refine or_congr_right ?_
  constructor
  · rintro ⟨heq, hf⟩
    obtain ⟨rfl, hs⟩ := List.append_inj' heq rfl
    exact ⟨rfl, (List.singleton_inj.mp hs).symm, hf⟩
  · rintro ⟨rfl, rfl, hf⟩
    exact ⟨rfl, hf⟩

theorem Froze.length_lt {raw : Table} {steps before : List Step} (h : Froze raw steps before) :
    before.length < steps.length := by
  have hle := h.1.length_le
  rw [List.length_append] at hle
  exact hle

/-- Only a freeze that succeeds changes what is frozen. -/
theorem frozen_afterStep (w : Workbench) (s : Step) :
    (∃ f, s = .freeze ∧ w.raw.freeze = .ok f ∧ (w.afterStep s).frozen = f) ∨
      (¬ ∃ f, s = .freeze ∧ w.raw.freeze = .ok f) ∧ (w.afterStep s).frozen = w.frozen := by
  by_cases hs : ∃ f, s = .freeze ∧ w.raw.freeze = .ok f
  · obtain ⟨f, rfl, hf⟩ := hs
    refine .inl ⟨f, rfl, hf, ?_⟩
    rw [afterStep, step, hf]
    rfl
  · refine .inr ⟨hs, ?_⟩
    obtain hchange | hsame := w.afterStep_cases s
    · generalize w.afterStep s = next at hchange ⊢
      cases hchange with
      | freeze hfreeze => exact absurd ⟨_, rfl, hfreeze⟩ hs
      | _ => rfl
    · rw [hsame]

/-- The frozen table after some steps: the scanner's own, or the raw one of the last freeze. -/
inductive FrozenSince (raw : Table) (steps : List Step) (f : FrozenTable) : Prop
  | never (hnever : ∀ before, ¬ Froze raw steps before) (hf : f = .builtin)
  | last {before : List Step} (hfroze : Froze raw steps before)
      (hlast : ∀ other, Froze raw steps other → other.length ≤ before.length)
      (hf : f.toTable = (after raw before).raw)

theorem frozenSince (raw : Table) (steps : List Step) :
    FrozenSince raw steps (after raw steps).frozen := by
  induction steps using List.reverseRecOn with
  | nil => exact .never (fun before h => Nat.not_lt_zero _ h.length_lt) rfl
  | append_singleton steps s ih =>
    rw [after_concat]
    obtain ⟨f, rfl, hf, hfrozen⟩ | ⟨hs, hfrozen⟩ := (after raw steps).frozen_afterStep s
    · refine .last (froze_concat_iff.mpr (.inr ⟨rfl, rfl, f, hf⟩)) ?_ ?_
      · intro other hother
        obtain hother | ⟨rfl, _⟩ := froze_concat_iff.mp hother
        · exact Nat.le_of_lt hother.length_lt
        · exact Nat.le_refl _
      · rw [hfrozen, Table.toTable_of_freeze hf]
    · have hfroze : ∀ before, Froze raw (steps ++ [s]) before ↔ Froze raw steps before := by
        intro before
        rw [froze_concat_iff]
        refine or_iff_left ?_
        rintro ⟨_, rfl, f, hf⟩
        exact hs ⟨f, rfl, hf⟩
      rw [hfrozen]
      cases ih with
      | never hnever hf => exact .never (fun before h => hnever before ((hfroze before).mp h)) hf
      | last hlast hmax hf =>
        exact .last ((hfroze _).mpr hlast) (fun other h => hmax other ((hfroze other).mp h)) hf

/-! ## The order of keys -/

/-- A step that leaves a place there and deletes no key in question from it. -/
def Step.Keeps (kept : Key → Bool) (p : Place) (s : Step) : Prop :=
  s.aim p ≠ .replace ∧ ∀ k, s.aim p = .drop k → kept k.key = false

/-- A step that leaves a place there and does not bring the key to it. -/
def Step.Avoids (k : Key) (p : Place) (s : Step) : Prop :=
  s.aim p ≠ .replace ∧ ∀ j, s.aim p = .set j → j.key ≠ k

theorem keysAt_afterStep (w : Workbench) {s : Step} {p : Place} (hp : s.aim p ≠ .replace) :
    (w.afterStep s).keysAt p = (s.aim p).keys (w.keysAt p) ∨
      (w.afterStep s).keysAt p = w.keysAt p := by
  obtain hchange | hsame := w.afterStep_cases s
  · exact .inl (keysAt_of_change hchange hp)
  · exact .inr (congrArg (keysAt · p) hsame)

/-- Keys that are not deleted stay before all that come later. -/
theorem filter_keys_prefix (kept : Key → Bool) {a : Aim}
    (h : ∀ k, a = .drop k → kept k.key = false) (ks : List Atom) :
    ks.filter (fun j => kept j.key) <+: (a.keys ks).filter fun j => kept j.key := by
  cases a with
  | set k =>
    show _ <+: (keysWith k ks).filter _
    unfold keysWith
    split
    · exact List.prefix_rfl
    · rw [List.filter_append]
      exact List.prefix_append _ _
  | drop k =>
    have hdrop : (keysWithout k ks).filter (fun j => kept j.key) =
        ks.filter fun j => kept j.key := by
      rw [keysWithout, List.filter_filter]
      refine List.filter_congr ?_
      intro j _
      by_cases hj : j.key = k.key
      · rw [hj, h k rfl, Bool.false_and]
      · simp [hj]
    exact hdrop.symm ▸ List.prefix_rfl
  | nothing => exact List.prefix_rfl
  | replace => exact List.prefix_rfl

theorem keysAt_run_prefix (kept : Key → Bool) {p : Place} {steps : List Step}
    (h : ∀ s ∈ steps, s.Keeps kept p) (w : Workbench) :
    (w.keysAt p).filter (fun j => kept j.key) <+:
      ((steps.foldl afterStep w).keysAt p).filter fun j => kept j.key := by
  induction steps generalizing w with
  | nil => exact List.prefix_rfl
  | cons s rest ih =>
    obtain ⟨hs, hrest⟩ := List.forall_mem_cons.mp h
    refine List.IsPrefix.trans ?_ (ih hrest (w.afterStep s))
    obtain hkeys | hkeys := w.keysAt_afterStep hs.1
    · rw [hkeys]
      exact filter_keys_prefix kept hs.2 _
    · exact hkeys.symm ▸ List.prefix_rfl

/-- A key that is not there comes only with a value. -/
theorem notMem_keys {a : Aim} {k : Key} {ks : List Atom} (h : ∀ j, a = .set j → j.key ≠ k)
    (hk : k ∉ ks.map Atom.key) : k ∉ (a.keys ks).map Atom.key := by
  cases a with
  | set j =>
    show k ∉ (keysWith j ks).map _
    unfold keysWith
    split
    · exact hk
    · rw [List.map_append, List.mem_append]
      rintro (hmem | hmem)
      · exact hk hmem
      · exact h j rfl (List.mem_singleton.mp hmem).symm
  | drop j => exact fun hmem => hk ((List.filter_sublist.map _).subset hmem)
  | nothing => exact hk
  | replace => exact hk

theorem notMem_keysAt_run {k : Key} {p : Place} {steps : List Step}
    (h : ∀ s ∈ steps, s.Avoids k p) {w : Workbench} (hk : k ∉ (w.keysAt p).map Atom.key) :
    k ∉ ((steps.foldl afterStep w).keysAt p).map Atom.key := by
  induction steps generalizing w with
  | nil => exact hk
  | cons s rest ih =>
    obtain ⟨hs, hrest⟩ := List.forall_mem_cons.mp h
    refine ih hrest ?_
    obtain hkeys | hkeys := w.keysAt_afterStep hs.1
    · rw [hkeys]
      exact notMem_keys hs.2 hk
    · rwa [hkeys]

/-- An old key keeps its place and its spelling under a new value. -/
theorem keysAt_set_of_mem {w : Workbench} {s : Step} {p : Place} {k : Atom}
    (hset : s.aim p = .set k) (hk : k.key ∈ (w.keysAt p).map Atom.key) :
    (w.afterStep s).keysAt p = w.keysAt p := by
  obtain hkeys | hkeys := w.keysAt_afterStep (p := p) (s := s) (by rw [hset]; nofun)
  · rw [hkeys, hset]
    exact if_pos hk
  · exact hkeys

theorem keysAt_set_of_notMem {w : Workbench} {s : Step} {p : Place} {k : Atom}
    (hset : s.aim p = .set k) (hk : k.key ∉ (w.keysAt p).map Atom.key) (hs : w.Succeeds s) :
    (w.afterStep s).keysAt p = w.keysAt p ++ [k] := by
  rw [keysAt_of_change (change_of_succeeds hs) (by rw [hset]; nofun), hset]
  exact if_neg hk

theorem notMem_keysAt_drop {w : Workbench} {s : Step} {p : Place} {k : Atom}
    (hdrop : s.aim p = .drop k) (hs : w.Succeeds s) :
    k.key ∉ ((w.afterStep s).keysAt p).map Atom.key := by
  rw [keysAt_of_change (change_of_succeeds hs) (by rw [hdrop]; nofun), hdrop]
  intro hmem
  obtain ⟨j, hj, hkey⟩ := List.mem_map.mp hmem
  exact of_decide_eq_true (List.mem_filter.mp hj).2 hkey

/-- What is kept by a workbench that began with the raw table and has taken the steps. -/
structure Keeps (raw : Table) (steps : List Step) : Prop where
  /-- In place it takes the same steps: what is seen is the same, and so is every answer. -/
  seen : ((Desk.start raw).run steps).1.view = after raw steps
  answers : ((Desk.start raw).run steps).2 = ((start raw).run steps).2
  frozen : FrozenSince raw steps (after raw steps).frozen
  failed : ∀ s e, (((Desk.start raw).run steps).1.perform s).2 = .error e →
    (((Desk.start raw).run steps).1.perform s).1.view = after raw steps ∧
      after raw (steps ++ [s]) = after raw steps
  distinct : ∀ p, (((after raw steps).keysAt p).map Atom.key).Nodup
  /-- Keys that are not deleted stay in order and before all that come later. -/
  order : ∀ before later p kept, steps = before ++ later → (∀ s ∈ later, s.Keeps kept p) →
    ((after raw before).keysAt p).filter (fun j => kept j.key) <+:
      ((after raw steps).keysAt p).filter fun j => kept j.key
  overwritten : ∀ s p k, s.aim p = .set k → k.key ∈ ((after raw steps).keysAt p).map Atom.key →
    (after raw (steps ++ [s])).keysAt p = (after raw steps).keysAt p
  /-- A key that was deleted and comes again is last. -/
  again_last : ∀ before dropping between setting p k again, steps = before ++ dropping :: between →
    dropping.aim p = .drop k → (after raw before).Succeeds dropping →
    (∀ s ∈ between, s.Avoids k.key p) →
    setting.aim p = .set again → again.key = k.key → (after raw steps).Succeeds setting →
    (after raw (steps ++ [setting])).keysAt p = (after raw steps).keysAt p ++ [again]
  refused : ∀ s, s.WritesFrozen → ∃ e, (((Desk.start raw).run steps).1.perform s).2 = .error e
  successors : ∀ s y, (((Desk.start raw).run steps).1.perform (.next s y)).2 =
    ((Desk.start raw).perform (.next s y)).2

/-- **What a workbench keeps through any steps.** What is frozen is the raw table of the last
freeze, or the scanner's own. A step that fails leaves the workbench as it was. The keys of the raw
table and of each of its rows are distinct; those that are not deleted stay in order, an old key
keeps its place and its spelling under a new value, and one that was deleted and comes again is
last. Nothing frozen can be changed, and successors are what they were at first. -/
theorem workbench_keeps (raw : Table) (steps : List Step) : Keeps raw steps := by
  obtain ⟨hstart, hview⟩ := Desk.start_eq raw
  obtain ⟨hsound, hseen, hanswers⟩ := hstart.run_eq steps
  rw [hview] at hseen hanswers
  change _ = after raw steps at hseen
  have hagrees := fun s => hsound.perform_agrees s
  constructor
  case seen => exact hseen
  case answers => exact hanswers
  case frozen => exact frozenSince raw steps
  case failed =>
    intro s e he
    obtain ⟨hsame, hstep⟩ := (hagrees s).of_error he
    rw [hseen] at hsame hstep
    exact ⟨hsame, (after_concat raw steps s).trans (afterStep_of_error hstep)⟩
  case distinct => exact nodup_keysAt _
  case order =>
    rintro before later p kept rfl hkeeps
    rw [after_append]
    exact keysAt_run_prefix kept hkeeps _
  case overwritten =>
    intro s p k hset hk
    rw [after_concat]
    exact keysAt_set_of_mem hset hk
  case again_last =>
    rintro before dropping between setting p k again rfl hdrop hdropped havoids hset hkey hsucceeds
    rw [after_concat]
    refine keysAt_set_of_notMem hset ?_ hsucceeds
    rw [hkey, after_append]
    exact notMem_keysAt_run havoids (notMem_keysAt_drop hdrop hdropped)
  case refused =>
    intro s hwrites
    obtain ⟨e, he⟩ := step_of_writesFrozen (after raw steps) hwrites
    rw [← hseen] at he
    exact ⟨e, (hagrees s).error_of he⟩
  case successors =>
    intro s y
    exact (hsound.answer_next s y).trans (hstart.answer_next s y).symm

/-- One row, and under another key something that cannot be frozen. -/
def halfTable : Table :=
  .ofList [(.state .start, .ofList [(.symbol .digit, .list []), (.symbol .plus, .list [])]),
    (.text ['x'], .null)]

/-- A freeze that stops half-way, and a column that is deleted and comes again as a text. -/
theorem workbench_keeps_halfTable :
    (((Desk.start halfTable).run []).1.perform .freeze).1.view = after halfTable [] ∧
    (after halfTable [.freeze, .dropCell .raw (.state .start) (.symbol .digit), .freeze,
        .setCell .raw (.state .start) (.text "DIGIT".toList) (.list [])]).keysAt
      (.row (Atom.state .start).key) = [.symbol .plus, .text "DIGIT".toList] := by
  have hkeeps := workbench_keeps halfTable
    [.freeze, .dropCell .raw (.state .start) (.symbol .digit), .freeze]
  refine ⟨((workbench_keeps halfTable []).failed .freeze (.noElements .null) rfl).1, ?_⟩
  have havoids : ∀ s ∈ [Step.freeze], s.Avoids (Atom.symbol .digit).key
      (.row (Atom.state .start).key) := by
    intro s hs
    rw [List.mem_singleton.mp hs]
    exact ⟨nofun, nofun⟩
  have hend :=
    hkeeps.again_last [.freeze] (.dropCell .raw (.state .start) (.symbol .digit)) [.freeze]
    (.setCell .raw (.state .start) (.text "DIGIT".toList) (.list []))
    (.row (Atom.state .start).key) (.symbol .digit) (.text "DIGIT".toList) rfl rfl ⟨_, rfl⟩ havoids
    rfl rfl ⟨_, rfl⟩
  exact hend.trans rfl

end SumExpr.Workbench
