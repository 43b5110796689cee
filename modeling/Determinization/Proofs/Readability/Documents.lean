import Determinization.Proofs.Automaton.Indistinguishable
import Determinization.Proofs.Readability.Json

/-!
# What the JSON document says of an automaton

Two automata have the same document exactly if they are the same automaton, and as the layout of a
document determines the document, the same holds of the texts (`pretty_document_eq_iff`).  Here the
character `ε` does no harm: the empty word is a bare name in a document and a character stands in an
object, whichever character it is.

In a document the components stand under their names and every list is a list of documents, so it
is enough that the documents of states, symbols and transitions determine what they are of.  For
states this is an induction over their forms.
-/

namespace Determinization

namespace State

namespace Form

mutual

theorem document_inj : ∀ x y : Form, document x = document y → x = y
  | .id n, .id k, h => by
      simp only [document, Json.object.injEq, List.cons.injEq, Prod.mk.injEq, Json.number.injEq,
        true_and, and_true] at h
      exact congrArg Form.id (UInt32.toNat_inj.1 h)
  | .id n, .set ms, h => by simp [document] at h
  | .set ms, .id n, h => by simp [document] at h
  | .set ms, .set ms', h => by
      simp only [document, Json.object.injEq, List.cons.injEq, Prod.mk.injEq, Json.array.injEq,
        true_and, and_true] at h
      exact congrArg Form.set (documents_inj ms ms' h)

theorem documents_inj : ∀ ms ms' : List Form, documents ms = documents ms' → ms = ms'
  | [], [], _ => rfl
  | [], _ :: _, h => by simp [documents] at h
  | _ :: _, [], h => by simp [documents] at h
  | x :: ms, x' :: ms', h => by
      simp only [documents, List.cons.injEq] at h
      rw [document_inj x x' h.1, documents_inj ms ms' h.2]

end

end Form

theorem document_injective : Function.Injective document := fun _ _ h =>
  form_injective (Form.document_inj _ _ h)

end State

theorem Symbol.document_injective : Function.Injective Symbol.document := by
  intro x y h
  cases x <;> cases y <;> simp_all [Symbol.document]

theorem Alphabet.document_injective : Function.Injective Alphabet.document := by
  intro A B h
  have hlist : (A.toList.map fun c => Json.string [c]) = B.toList.map fun c => Json.string [c] :=
    Json.array.inj h
  refine SortedSet.toList_injective (List.map_injective_iff.2 ?_ hlist)
  intro c d hcd
  simpa using hcd

theorem Transition.document_injective : Function.Injective Transition.document := by
  rintro ⟨s, x, t⟩ ⟨s', x', t'⟩ h
  simp only [Transition.document, Json.object.injEq, List.cons.injEq, Prod.mk.injEq, true_and,
    and_true] at h
  obtain ⟨hsource, hlabel, htarget⟩ := h
  rw [State.document_injective hsource, Symbol.document_injective hlabel,
    State.document_injective htarget]

/-- A set can be read off the list of its members' documents. -/
theorem SortedSet.eq_of_map_eq {α β : Type} [Ordered α] {f : α → β} (hf : Function.Injective f)
    {s t : SortedSet α} (h : s.toList.map f = t.toList.map f) : s = t :=
  toList_injective (List.map_injective_iff.2 hf h)

namespace Automaton

variable {a b : Automaton}

/-- **Automata with the same document are the same.** -/
theorem same_of_document_eq (h : a.document = b.document) : a.same b = true := by
  simp only [document, Json.object.injEq, List.cons.injEq, Prod.mk.injEq, Json.array.injEq,
    true_and, and_true] at h
  obtain ⟨hstates, halphabet, htransitions, hinitial, haccepting⟩ := h
  have hsorted : a.transitions.sorted = b.transitions.sorted :=
    SortedSet.eq_of_map_eq Transition.document_injective htransitions
  exact same_iff.2 ⟨SortedSet.eq_of_map_eq State.document_injective hstates,
    Alphabet.document_injective halphabet, SortedSet.ofList_eq_ofList.1 hsorted,
    State.document_injective hinitial, SortedSet.eq_of_map_eq State.document_injective haccepting⟩

/-- **The JSON texts of two automata are equal exactly if the automata are the same,** in whatever
order their transitions were given. -/
theorem pretty_document_eq_iff (a b : Automaton) :
    a.document.pretty = b.document.pretty ↔ a.same b = true :=
  ⟨fun h => same_of_document_eq (Json.pretty_inj h), fun h =>
    congrArg Json.pretty (document_eq_of_same h)⟩

end Automaton
end Determinization
