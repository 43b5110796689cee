import Determinization.State.Text
import Determinization.Symbol

/-!
# Transitions

A transition leads from a source to a target and carries a symbol.  Machines have states at the
ends; the textual encoding has numbers there, which is why the ends of an `Edge` are of any type.
Edges are compared by source, then by label, then by target.
-/

namespace Determinization

/-- A labelled edge from one end to another. -/
structure Edge (σ : Type) where
  source : σ
  label : Symbol
  target : σ
  deriving DecidableEq

namespace Edge

variable {σ τ : Type}

/-- The edge between the images of its ends, with the same label. -/
def map (f : σ → τ) (e : Edge σ) : Edge τ := ⟨f e.source, e.label, f e.target⟩

/-- What edges are compared by. -/
def key (e : Edge σ) : σ × Symbol × σ := (e.source, e.label, e.target)

theorem key_injective : ∀ {e f : Edge σ}, e.key = f.key → e = f
  | ⟨_, _, _⟩, ⟨_, _, _⟩, h => by
      simp only [key, Prod.mk.injEq] at h
      simp [h.1, h.2.1, h.2.2]

instance [Ordered σ] : Ordered (Edge σ) := Ordered.lift key key_injective

end Edge

/-- A move of an automaton from one state to another. -/
abbrev Transition := Edge State

namespace Transition

/-- The transition as messages and notation show it. -/
def text (t : Transition) : List Char :=
  ['('] ++ Text.join [',', ' '] [t.source.text, t.label.text, t.target.text] ++ [')']

end Transition

end Determinization
