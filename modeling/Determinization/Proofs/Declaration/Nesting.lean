import Determinization.Proofs.Declaration.Takes
import Mathlib.Tactic.SplitIfs

/-!
# Angle brackets

A type can be told apart from what follows it by counting brackets.  Round, square and curly ones
always belong together, and what stands between them is not looked at.  Outside of them `<` and `>`
are brackets as well, apart from the `>` of an arrow `->`, which closes nothing.

`Nesting.next` goes one token farther, and fails where something is closed that is not open.  It
also fails at a comma outside of all brackets, unless commas are expected there.  Tokens after which
as much is open as before are `Closed`; they can be put one after the other (`Closed.append`) and
between angle brackets (`closed_angles`).  **A closed list ends where the next token is the first to
fail**, so that there is one place only at which it can end (`Closed.append_cons_inj`).
-/

namespace Determinization
namespace Declaration

variable {commas : Bool} {tokens tokens' rest rest' : List Token} {t t' : Token}

/-- What is open after some tokens. -/
structure Nesting where
  /-- The number of round, square and curly brackets. -/
  groups : Nat
  /-- The number of angle brackets. -/
  angles : Nat
  /-- Was the last token the minus sign of an arrow? -/
  arrow : Bool
  deriving DecidableEq

namespace Nesting

/-- Nothing is open. -/
def outside : Nesting := ⟨0, 0, false⟩

/-- What is open after one more token.  Where nothing is open, a comma may stand or not. -/
def next (commas : Bool) (n : Nesting) : Token → Option Nesting
  | .opening _ => some ⟨n.groups + 1, n.angles, false⟩
  | .closing _ => if n.groups = 0 then none else some ⟨n.groups - 1, n.angles, false⟩
  | .mark c joint =>
      if n.groups ≠ 0 then some ⟨n.groups, n.angles, false⟩
      else if c = '<' then some ⟨0, n.angles + 1, false⟩
      else if c = '>' then
        if n.arrow then some ⟨0, n.angles, false⟩
        else if n.angles = 0 then none
        else some ⟨0, n.angles - 1, false⟩
      else if c = ',' ∧ n.angles = 0 ∧ commas = false then none
      else some ⟨0, n.angles, c = '-' ∧ joint⟩
  | .word _ => some ⟨n.groups, n.angles, false⟩
  | .literal _ => some ⟨n.groups, n.angles, false⟩

/-- What is open after all tokens. -/
def after (commas : Bool) (n : Nesting) (tokens : List Token) : Option Nesting :=
  tokens.foldlM (next commas) n

variable {n n' : Nesting}

@[simp] theorem after_nil : n.after commas [] = some n := rfl

theorem after_cons : n.after commas (t :: tokens) =
    (n.next commas t).bind fun n' => n'.after commas tokens := rfl

theorem after_append : n.after commas (tokens ++ tokens') =
    (n.after commas tokens).bind fun n' => n'.after commas tokens' :=
  List.foldlM_append

/-- Where commas may stand, nothing else fails. -/
theorem next_commas (h : n.next commas t = some n') : n.next true t = some n' := by
  cases t with
  | mark c joint =>
      simp only [next] at h ⊢
      split_ifs at h with hgroups hless hgreater harrow hangles hcomma
      · rwa [if_pos hgroups]
      · rwa [if_neg hgroups, if_pos hless]
      · rwa [if_neg hgroups, if_neg hless, if_pos hgreater, if_pos harrow]
      · rwa [if_neg hgroups, if_neg hless, if_pos hgreater, if_neg harrow, if_neg hangles]
      · rwa [if_neg hgroups, if_neg hless, if_neg hgreater, if_neg fun h => nomatch h.2.2]
  | _ => exact h

/-- One angle bracket farther inside, tokens mean the same, and commas may stand in any case. -/
theorem next_inside (h : n.next true t = some n') :
    next commas { n with angles := n.angles + 1 } t =
      some { n' with angles := n'.angles + 1 } := by
  cases t with
  | mark c joint =>
      simp only [next] at h ⊢
      split_ifs at h with hgroups hless hgreater harrow hangles hcomma <;> cases h
      · rw [if_pos hgroups]
      · rw [if_neg hgroups, if_pos hless]
      · rw [if_neg hgroups, if_neg hless, if_pos hgreater, if_pos harrow]
      · rw [if_neg hgroups, if_neg hless, if_pos hgreater, if_neg harrow,
          if_neg (Nat.succ_ne_zero _), Nat.add_sub_cancel, Nat.sub_add_cancel (by omega)]
      · rw [if_neg hgroups, if_neg hless, if_neg hgreater,
          if_neg fun h => Nat.succ_ne_zero _ h.2.1]
  | closing b =>
      simp only [next] at h ⊢
      split_ifs at h ⊢
      cases h
      rfl
  | _ =>
      cases h
      rfl

theorem after_commas (h : n.after commas tokens = some n') : n.after true tokens = some n' := by
  induction tokens generalizing n with
  | nil => exact h
  | cons t tokens ih =>
      obtain ⟨m, hnext, hafter⟩ := Option.bind_eq_some_iff.1 h
      rw [after_cons, next_commas hnext, Option.bind_some]
      exact ih hafter

theorem after_inside (h : n.after true tokens = some n') :
    after commas { n with angles := n.angles + 1 } tokens =
      some { n' with angles := n'.angles + 1 } := by
  induction tokens generalizing n with
  | nil =>
      cases h
      rfl
  | cons t tokens ih =>
      obtain ⟨m, hnext, hafter⟩ := Option.bind_eq_some_iff.1 h
      rw [after_cons, next_inside hnext, Option.bind_some]
      exact ih hafter

/-- In a group only its brackets count. -/
theorem after_of_openAfter {depth depth' : Nat} (h : openAfter depth tokens = some depth')
    (angles : Nat) :
    after commas ⟨depth + 1, angles, false⟩ tokens = some ⟨depth' + 1, angles, false⟩ := by
  induction tokens generalizing depth with
  | nil =>
      cases h
      rfl
  | cons t tokens ih =>
      cases t with
      | closing b =>
          cases depth with
          | zero => cases h
          | succ depth => exact ih h
      | mark c joint =>
          have hnext : next commas ⟨depth + 1, angles, false⟩ (.mark c joint) =
              some ⟨depth + 1, angles, false⟩ := by simp [next]
          rw [after_cons, hnext, Option.bind_some]
          exact ih h
      | _ => exact ih h

end Nesting

/-! ## Closed lists -/

open Nesting in
/-- After the tokens nothing is open, and nothing was closed that was not open. -/
def Closed (commas : Bool) (tokens : List Token) : Prop :=
  outside.after commas tokens = some outside

theorem closed_nil : Closed commas [] := rfl

theorem Closed.append (h : Closed commas tokens) (h' : Closed commas tokens') :
    Closed commas (tokens ++ tokens') := by
  rw [Closed, Nesting.after_append, h, Option.bind_some, h']

/-- A closed list is closed where commas may stand, too. -/
theorem Closed.with_commas (h : Closed commas tokens) : Closed true tokens := Nesting.after_commas h

/-- The token is no bracket, no comma and no minus sign. -/
def Token.isNeutral : Token → Bool
  | .mark c _ => c ≠ '<' && c ≠ '>' && c ≠ ',' && c ≠ '-'
  | .word _ => true
  | .literal _ => true
  | _ => false

theorem closed_singleton (h : t.isNeutral = true) : Closed commas [t] := by
  cases t with
  | mark c joint =>
      simp only [Token.isNeutral, Bool.and_eq_true, decide_eq_true_eq, ne_eq] at h
      simp [Closed, Nesting.after_cons, Nesting.next, Nesting.outside, h]
  | opening b => cases h
  | closing b => cases h
  | _ => rfl

theorem Closed.cons (h : t.isNeutral = true) (htokens : Closed commas tokens) :
    Closed commas (t :: tokens) :=
  (closed_singleton h).append htokens

/-- A group is closed. -/
theorem closed_group {k b : Bracket} (h : Balanced tokens) :
    Closed commas (.opening k :: (tokens ++ [.closing b])) := by
  have hcontent : Nesting.after commas ⟨1, 0, false⟩ tokens = some ⟨1, 0, false⟩ :=
    Nesting.after_of_openAfter h 0
  have hopening : Nesting.outside.next commas (.opening k) = some ⟨1, 0, false⟩ := rfl
  rw [Closed, Nesting.after_cons, hopening, Option.bind_some, Nesting.after_append, hcontent]
  rfl

/-- Between angle brackets commas may stand. -/
theorem closed_angles {opened closed : Bool} (h : Closed true tokens) :
    Closed commas (.mark '<' opened :: (tokens ++ [.mark '>' closed])) := by
  have hcontent : Nesting.after commas ⟨0, 1, false⟩ tokens = some ⟨0, 1, false⟩ :=
    Nesting.after_inside h
  have hopening : Nesting.outside.next commas (.mark '<' opened) = some ⟨0, 1, false⟩ := rfl
  rw [Closed, Nesting.after_cons, hopening, Option.bind_some, Nesting.after_append, hcontent]
  rfl

/-! ## Where a closed list ends -/

/-- The token cannot stand where nothing is open. -/
def Token.Ends (commas : Bool) (t : Token) : Prop := Nesting.outside.next commas t = none

theorem ends_greater (closed : Bool) : Token.Ends commas (.mark '>' closed) := rfl

theorem ends_comma (joint : Bool) : Token.Ends false (comma joint) := rfl

/-- A closed list does not go on after its end. -/
theorem Closed.not_closed (h : Closed commas tokens) (ht : t.Ends commas) (rest : List Token) :
    ¬ Closed commas (tokens ++ t :: rest) := by
  rw [Closed, Nesting.after_append, h, Option.bind_some, Nesting.after_cons, ht, Option.bind_none]
  exact nofun

/-- **There is one place only at which a closed list can end.** -/
theorem Closed.append_cons_inj (h : Closed commas tokens) (h' : Closed commas tokens')
    (ht : t.Ends commas) (ht' : t'.Ends commas)
    (heq : tokens ++ t :: rest = tokens' ++ t' :: rest') :
    tokens = tokens' ∧ t = t' ∧ rest = rest' := by
  obtain ⟨_ | ⟨t'', more⟩, rfl, hmore⟩ | ⟨_ | ⟨t'', more⟩, rfl, hmore⟩ :=
    List.append_eq_append_iff.1 heq
  · simpa [eq_comm] using hmore
  · obtain ⟨rfl, -⟩ := List.cons.inj hmore
    exact absurd h' (h.not_closed ht _)
  · simpa [eq_comm] using hmore
  · obtain ⟨rfl, -⟩ := List.cons.inj hmore
    exact absurd h (h'.not_closed ht' _)

end Declaration
end Determinization
