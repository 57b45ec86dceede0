import Mathlib.Computability.MyhillNerode
import SumExpr.Proofs.Scan.Basic

/-! # The states as what may follow

A state stands for the texts that may follow: two texts lead to the same state just if the same
texts make an expression of both (`leftQuotient_eq_iff`). For any two states three texts suffice to
tell them apart, of which one is empty; an operator, for which a digit must stand before it, is what
tells the state behind a digit from the state behind an operator. So every automaton for the same
texts needs a state for each of the scanner's. -/
namespace SumExpr
universe u

/-- The scanner as an automaton. -/
def Scan.automaton : DFA Char State where
  step s c := s.next (.ofChar c)
  start := .initial
  accept := {s | s.accepting = true}

open Scan (automaton)

/-- The scanner, which stops early, ends where the automaton does, which never stops. -/
theorem eval_automaton (text : Text) : automaton.eval text = finalState text :=
  (Scan.run_eq_foldl .initial text).symm

theorem mem_accepts_automaton {text : Text} : text ∈ automaton.accepts ↔ isValid text = true := by
  rw [DFA.mem_accepts, eval_automaton]
  rfl

/-! ## Texts that tell states apart -/

/-- States with the same continuations are the same. -/
theorem State.eq_of_run {s t : State}
    (h : ∀ text, (Scan.run s text).accepting = (Scan.run t text).accepting) : s = t := by
  have hnothing := h []
  have hoperand := h ['0']
  have hoperator := h ['+']
  revert hnothing hoperand hoperator
  cases s <;> cases t <;> decide

theorem eq_iff_same_continuations (u v : Text) :
    finalState u = finalState v ↔ ∀ w, isValid (u ++ w) = isValid (v ++ w) := by
  simp only [isValid_eq_accepting, finalState_append]
  constructor
  · intro h w
    rw [h]
  · exact State.eq_of_run

/-- What may follow a text is known from its state, and its state from what may follow. -/
theorem leftQuotient_eq_iff (u v : Text) :
    automaton.accepts.leftQuotient u = automaton.accepts.leftQuotient v ↔
      finalState u = finalState v := by
  constructor
  · intro h
    rw [eq_iff_same_continuations]
    intro w
    rw [Bool.eq_iff_iff, ← mem_accepts_automaton, ← mem_accepts_automaton,
      ← Language.mem_leftQuotient, h, Language.mem_leftQuotient]
  · intro h
    rw [Language.leftQuotient_accepts_apply, Language.leftQuotient_accepts_apply, eval_automaton,
      eval_automaton, h]

/-! ## Other automata -/

/-- A text that leads to a state. -/
def State.sample : State → Text
  | .start => []
  | .digit => "1".toList
  | .operator => "1+".toList
  | .error => "+".toList

theorem finalState_sample (s : State) : finalState s.sample = s := by cases s <;> decide

variable {σ : Type u} {M : DFA Char σ}

/-- An automaton for the same texts tells apart whatever the scanner does. -/
theorem finalState_of_eval (h : M.accepts = automaton.accepts) {u v : Text}
    (he : M.eval u = M.eval v) : finalState u = finalState v := by
  rw [← leftQuotient_eq_iff, ← h, Language.leftQuotient_accepts_apply,
    Language.leftQuotient_accepts_apply, he]

theorem eval_sample_injective (h : M.accepts = automaton.accepts) :
    Function.Injective fun s : State => M.eval s.sample := by
  intro s t hst
  rw [← finalState_sample s, ← finalState_sample t]
  exact finalState_of_eval h hst

/-- **The states are the classes of texts that may be continued alike.** Two texts rest in the same
state just if every continuation makes an expression of both or of none, and every state is that of
some text. So no automaton for the expressions does with fewer states: where the scanner's states
differ, its states differ. -/
theorem states_are_residuals :
    (∀ u v : Text, finalState u = finalState v ↔ ∀ w, isValid (u ++ w) = isValid (v ++ w)) ∧
    (∀ s : State, ∃ text, finalState text = s) ∧
    (∀ text, automaton.eval text = finalState text ∧
      (text ∈ automaton.accepts ↔ isValid text = true)) ∧
    ∀ {σ : Type u} (M : DFA Char σ), M.accepts = automaton.accepts →
      (∀ u v, M.eval u = M.eval v → finalState u = finalState v) ∧ Nonempty (State ↪ σ) := by
  refine ⟨eq_iff_same_continuations, ?_, ?_, ?_⟩
  · intro s
    exact ⟨s.sample, finalState_sample s⟩
  · intro text
    exact ⟨eval_automaton text, mem_accepts_automaton⟩
  · intro σ M h
    refine ⟨?_, ⟨⟨_, eval_sample_injective h⟩⟩⟩
    intro u v he
    exact finalState_of_eval h he

/-- The automaton that the language itself gives, with its residuals as states. -/
theorem states_are_residuals_toDFA :
    automaton.accepts.toDFA.accepts = automaton.accepts ∧
      Nonempty (State ↪ Set.range automaton.accepts.leftQuotient) :=
  ⟨Language.accepts_toDFA _,
    (states_are_residuals.2.2.2 automaton.accepts.toDFA (Language.accepts_toDFA _)).2⟩

end SumExpr
