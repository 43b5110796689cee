import Determinization.State.Basic
import Determinization.Text.Listing
import Determinization.Json

/-!
# How states are shown

A numbered state is shown by its number, a composite one by its members between braces, and the
empty composite state by the sign `∅`.  A set of states that is not itself a state is shown between
braces too, but without members it is an empty pair of braces (`State.listText`).

As a JSON document a state is an object with one field, which says of which kind the state is.
-/

namespace Determinization
namespace State

namespace Form

mutual

/-- The text of a form. -/
def text : Form → List Char
  | .id n => Text.decimal n.toNat
  | .set [] => ['∅']
  | .set (m :: ms) => Text.braced (texts (m :: ms))

/-- The texts of some forms. -/
def texts : List Form → List (List Char)
  | [] => []
  | m :: ms => text m :: texts ms

end

mutual

/-- The document of a form. -/
def document : Form → Json
  | .id n => .object [("Simple".toList, .number n.toNat)]
  | .set ms => .object [("Composite".toList, .array (documents ms))]

/-- The documents of some forms. -/
def documents : List Form → List Json
  | [] => []
  | m :: ms => document m :: documents ms

end

theorem texts_eq_map : ∀ ms : List Form, texts ms = ms.map text
  | [] => rfl
  | m :: ms => by rw [texts, texts_eq_map ms, List.map_cons]

theorem documents_eq_map : ∀ ms : List Form, documents ms = ms.map document
  | [] => rfl
  | m :: ms => by rw [documents, documents_eq_map ms, List.map_cons]

end Form

/-- The state as messages, notation and drawings show it. -/
def text (s : State) : List Char := s.form.text

/-- A set of states, in the order given. -/
def listText (states : List State) : List Char := Text.braced (states.map text)

/-- The state as a JSON document. -/
def document (s : State) : Json := s.form.document

theorem text_simple (n : UInt32) : (simple n).text = Text.decimal n.toNat := by
  simp [text, simple, Form.text]

@[simp] theorem text_dead : dead.text = ['∅'] := by
  simp [text, dead, composite, Form.text]

theorem text_composite {S : SortedSet State} (h : S.toList ≠ []) :
    (composite S).text = listText S.toList := by
  cases hS : S.toList with
  | nil => exact absurd hS h
  | cons s l =>
      simp only [text, listText, composite, hS, List.map_cons, Form.text, Form.texts,
        Form.texts_eq_map, List.map_map]
      rfl

theorem document_simple (n : UInt32) :
    (simple n).document = .object [("Simple".toList, .number n.toNat)] := by
  simp [document, simple, Form.document]

theorem document_composite (S : SortedSet State) :
    (composite S).document =
      .object [("Composite".toList, .array (S.toList.map document))] := by
  simp only [document, composite, Form.document, Form.documents_eq_map, List.map_map]
  rfl

end State
end Determinization
