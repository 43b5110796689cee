import Determinization.Proofs.Readability.Basic
import Determinization.Transition
import Mathlib.Data.List.Forall2

/-!
# States and transitions can be read off their texts

A composite state is written with its members between braces, at every depth, and the members of
members look no different from members.  Still no two states look the same: where a brace opens, the
next brace that is not the member's own closes it, because members begin with a digit, with the sign
of the empty state or with an opening brace.  The proof is by induction on the form of one of the
two states; the empty composite state has a sign of its own, so that no case is left in which braces
have nothing between them.

A transition is written with its symbol between two commas.  The symbol is a single character,
whichever it is, and so takes its place even if it is a comma or a bracket itself.  But the empty
word is written `ε`, like the character `ε`.  What is shown of a transition is therefore two states
with a character between them (`Transition.shown`); that can be read off the text, and it is the
same for two transitions exactly if they look alike (`Transition.LooksLike`).
-/

namespace Determinization

open Encoding (EndsNumber endsNumber_cons)

variable {u v : List Char}

namespace State

namespace Form

/-- No form begins like a closing brace. -/
theorem text_append_ne (x : Form) (s r : List Char) : text x ++ s ≠ '\x7d' :: r := by
  cases x with
  | id n =>
      obtain ⟨c, t, hn, hdigit⟩ := Text.exists_decimal_eq_cons n.toNat
      rw [text, hn, List.cons_append, Ne, List.cons.injEq]
      rintro ⟨rfl, -⟩
      exact absurd hdigit (by decide)
  | set ms => cases ms <;> simp [text, Text.braced]

/-- The text of a number is not the text of a set. -/
theorem text_id_append_ne (n : UInt32) (ms : List Form) (s r : List Char) :
    text (.id n) ++ s ≠ text (.set ms) ++ r := by
  obtain ⟨c, t, hn, hdigit⟩ := Text.exists_decimal_eq_cons n.toNat
  rw [text, hn]
  cases ms <;>
  · simp only [text, Text.braced, List.cons_append, List.nil_append, Ne, List.cons.injEq]
    rintro ⟨rfl, -⟩
    exact absurd hdigit (by decide)

mutual

theorem readable_text : ∀ x : Form, Text.Readable text x
  | .id n => by
      intro y u v hu hv h
      cases y with
      | id k =>
          simp only [text] at h
          obtain ⟨hnk, huv⟩ := Text.readable_decimal n.toNat k.toNat u v hu hv h
          exact ⟨congrArg Form.id (UInt32.toNat_inj.1 hnk), huv⟩
      | set ms => exact absurd h (text_id_append_ne n ms u v)
  | .set [] => by
      intro y u v _ _ h
      cases y with
      | id k => exact absurd h.symm (text_id_append_ne k [] v u)
      | set ms =>
          cases ms with
          | nil => exact ⟨rfl, List.append_cancel_left h⟩
          | cons m ms => simp [text, Text.braced] at h
  | .set (m :: ms) => by
      intro y u v _ _ h
      cases y with
      | id k => exact absurd h.symm (text_id_append_ne k _ v u)
      | set ms' =>
          cases ms' with
          | nil => simp [text, Text.braced] at h
          | cons m' ms' =>
              simp only [text, texts_eq_map] at h
              obtain ⟨hms, huv⟩ := Text.braced_inj (readable_texts (m :: ms)) text_append_ne h
              exact ⟨congrArg Form.set hms, huv⟩

theorem readable_texts : ∀ ms : List Form, ∀ m ∈ ms, Text.Readable text m
  | [] => fun _ h => absurd h List.not_mem_nil
  | x :: ms => by
      intro m hm
      rcases List.mem_cons.1 hm with heq | hm
      · exact heq ▸ readable_text x
      · exact readable_texts ms m hm

end

end Form

/-- **No state looks like another one,** nor like the beginning of one. -/
theorem readable_text (s : State) : Text.Readable text s := by
  intro t u v hu hv h
  obtain ⟨hform, huv⟩ := Form.readable_text s.form t.form u v hu hv h
  exact ⟨form_injective hform, huv⟩

/-- **No set of states looks like another one.** -/
theorem listText_inj {l m : List State} (h : listText l ++ u = listText m ++ v) :
    l = m ∧ u = v :=
  Text.braced_inj (fun s _ => readable_text s) (fun s => s.form.text_append_ne) h

end State

/-! ## Transitions -/

/-- The symbols look alike: they are equal, or they are the empty word and the character `ε`. -/
def Symbol.LooksLike (x y : Symbol) : Prop :=
  x = y ∨ x = .epsilon ∧ y = .char 'ε' ∨ x = .char 'ε' ∧ y = .epsilon

/-- The character by which a symbol is shown. -/
def Symbol.sign : Symbol → Char
  | epsilon => 'ε'
  | char c => c

theorem Symbol.text_eq_sign (x : Symbol) : x.text = [x.sign] := by cases x <;> rfl

theorem Symbol.sign_eq_sign_iff {x y : Symbol} : x.sign = y.sign ↔ x.LooksLike y := by
  cases x <;> cases y <;> simp [sign, LooksLike, eq_comm]

/-- The transitions have the same ends, and symbols that look alike. -/
structure Transition.LooksLike (t t' : Transition) : Prop where
  source_eq : t.source = t'.source
  label_like : t.label.LooksLike t'.label
  target_eq : t.target = t'.target

namespace Transition

variable {t t' : Transition} {l m : List Transition}

/-- What is shown of a transition. -/
def shown (t : Transition) : State × Char × State := (t.source, t.label.sign, t.target)

/-- Two ends with a character between them, as the ends of a transition and its symbol are shown. -/
def shownText : State × Char × State → List Char
  | (s, c, t) => '(' :: (s.text ++ ([',', ' ', c, ',', ' '] ++ (t.text ++ [')'])))

theorem text_eq_shownText (t : Transition) : t.text = shownText t.shown := by
  simp [text, shown, shownText, Symbol.text_eq_sign, Text.join_cons]

theorem shown_eq_shown_iff : t.shown = t'.shown ↔ LooksLike t t' := by
  simp only [shown, Prod.mk.injEq, Symbol.sign_eq_sign_iff]
  exact ⟨fun ⟨hsource, hlabel, htarget⟩ => ⟨hsource, hlabel, htarget⟩,
    fun h => ⟨h.source_eq, h.label_like, h.target_eq⟩⟩

/-- **What is shown of a transition can be read off its text.** -/
theorem readable_shownText (p : State × Char × State) : Text.Readable shownText p := by
  obtain ⟨s, c, t⟩ := p
  rintro ⟨s', c', t'⟩ u v _ _ h
  simp only [shownText, List.cons_append, List.append_assoc, List.cons.injEq, true_and] at h
  obtain ⟨rfl, hlabel⟩ := s.readable_text s' _ _ (endsNumber_cons (by decide))
    (endsNumber_cons (by decide)) h
  simp only [List.cons.injEq, true_and, List.nil_append] at hlabel
  obtain ⟨rfl, htarget⟩ := hlabel
  obtain ⟨rfl, hclosing⟩ := t.readable_text t' _ _ (endsNumber_cons (by decide))
    (endsNumber_cons (by decide)) htarget
  exact ⟨rfl, (List.cons.inj hclosing).2⟩

/-- The transitions as set notation and messages list them. -/
theorem braced_text_inj
    (h : Text.braced (l.map text) ++ u = Text.braced (m.map text) ++ v) :
    List.Forall₂ LooksLike l m ∧ u = v := by
  have hshown : ∀ k : List Transition, k.map text = (k.map shown).map shownText := by
    intro k
    rw [List.map_map]
    exact List.map_congr_left fun t _ => text_eq_shownText t
  rw [hshown, hshown] at h
  obtain ⟨hlist, huv⟩ := Text.braced_inj (fun p _ => readable_shownText p) (by simp [shownText]) h
  refine ⟨?_, huv⟩
  rw [← List.forall₂_eq_eq_eq, List.forall₂_map_left_iff, List.forall₂_map_right_iff] at hlist
  exact hlist.imp fun _ _ => shown_eq_shown_iff.1

theorem map_text_eq (h : List.Forall₂ LooksLike l m) : l.map text = m.map text := by
  rw [← List.forall₂_eq_eq_eq, List.forall₂_map_left_iff, List.forall₂_map_right_iff]
  refine h.imp fun t t' hlike => ?_
  rw [text_eq_shownText, text_eq_shownText, shown_eq_shown_iff.2 hlike]

end Transition

end Determinization
