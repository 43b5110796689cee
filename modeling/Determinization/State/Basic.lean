import Determinization.SortedSet

/-!
# States

A state is either a number or a finite set of states, nested to any depth.  Determinizing an
automaton produces states of the second kind, and determinizing the result produces sets of sets;
so one type has to hold both kinds, and a machine may mix them.

## Why there is a form under every state

An inductive type cannot contain sets of itself, only lists of itself.  `State.Form` is that
inductive type; its lists may repeat members and come in any order.  A `State` is a form in which
every list, at every depth, increases strictly.  Such forms stand for nested finite sets one to one,
so two composite states are equal exactly when they have the same members
(`State.ofMembers_eq_ofMembers`).

## The order

Numbered states come before composite ones, numbers are compared as numbers, and composite states
lexicographically by their increasing lists of members.  The order is needed to say what an
increasing list is, which is why it is first put on forms.
-/

namespace Determinization

/-- The written form of a state: a number, or a list of forms. -/
inductive State.Form where
  | id (n : UInt32)
  | set (members : List State.Form)

namespace State.Form

open Ordered (cmp_eq_iff)

mutual

/-- The comparison of forms: numbers first, then lists lexicographically. -/
def compare : Form → Form → Ordering
  | .id m, .id n => Ordered.cmp m n
  | .id _, .set _ => .lt
  | .set _, .id _ => .gt
  | .set p, .set q => compareLists p q

/-- The lexicographic comparison of lists of forms. -/
def compareLists : List Form → List Form → Ordering
  | [], [] => .eq
  | [], _ :: _ => .lt
  | _ :: _, [] => .gt
  | a :: p, b :: q => (compare a b).then (compareLists p q)

end

mutual

theorem compare_eq_iff : ∀ x y : Form, compare x y = .eq ↔ x = y
  | .id m, .id n => by simp [compare, cmp_eq_iff]
  | .id _, .set _ => by simp [compare]
  | .set _, .id _ => by simp [compare]
  | .set p, .set q => by simp [compare, compareLists_eq_iff p q]

theorem compareLists_eq_iff : ∀ p q : List Form, compareLists p q = .eq ↔ p = q
  | [], [] => by simp [compareLists]
  | [], _ :: _ => by simp [compareLists]
  | _ :: _, [] => by simp [compareLists]
  | a :: p, b :: q => by
      simp [compareLists, Ordering.then_eq_eq, compare_eq_iff a b, compareLists_eq_iff p q]

end

mutual

theorem swap_compare : ∀ x y : Form, (compare x y).swap = compare y x
  | .id m, .id n => by simp [compare, Ordered.cmp_swap]
  | .id _, .set _ => by simp [compare]
  | .set _, .id _ => by simp [compare]
  | .set p, .set q => by simp [compare, swap_compareLists p q]

theorem swap_compareLists : ∀ p q : List Form, (compareLists p q).swap = compareLists q p
  | [], [] => by simp [compareLists]
  | [], _ :: _ => by simp [compareLists]
  | _ :: _, [] => by simp [compareLists]
  | a :: p, b :: q => by
      simp [compareLists, Ordering.swap_then, swap_compare a b, swap_compareLists p q]

end

mutual

theorem compare_lt_trans :
    ∀ x y z : Form, compare x y = .lt → compare y z = .lt → compare x z = .lt
  | .id m, .id n, .id k => by
      simp only [compare]
      exact Ordered.cmp_lt_trans
  | .id _, .id _, .set _ => by simp [compare]
  | .id _, .set _, .id _ => by simp [compare]
  | .id _, .set _, .set _ => by simp [compare]
  | .set _, .id _, .id _ => by simp [compare]
  | .set _, .id _, .set _ => by simp [compare]
  | .set _, .set _, .id _ => by simp [compare]
  | .set p, .set q, .set r => by
      simp only [compare]
      exact compareLists_lt_trans p q r

theorem compareLists_lt_trans :
    ∀ p q r : List Form,
      compareLists p q = .lt → compareLists q r = .lt → compareLists p r = .lt
  | [], [], [] => by simp [compareLists]
  | [], [], _ :: _ => by simp [compareLists]
  | [], _ :: _, [] => by simp [compareLists]
  | [], _ :: _, _ :: _ => by simp [compareLists]
  | _ :: _, [], [] => by simp [compareLists]
  | _ :: _, [], _ :: _ => by simp [compareLists]
  | _ :: _, _ :: _, [] => by simp [compareLists]
  | a :: p, b :: q, c :: r => by
      simp only [compareLists, Ordering.then_eq_lt]
      rintro (hab | ⟨hab, hpq⟩) (hbc | ⟨hbc, hqr⟩)
      · exact .inl (compare_lt_trans a b c hab hbc)
      · exact .inl ((compare_eq_iff b c).1 hbc ▸ hab)
      · exact .inl (by rw [(compare_eq_iff a b).1 hab]; exact hbc)
      · exact .inr ⟨by rw [(compare_eq_iff a b).1 hab]; exact hbc,
          compareLists_lt_trans p q r hpq hqr⟩

end

instance : Ordered Form where
  cmp := compare
  cmp_eq_iff := compare_eq_iff _ _
  cmp_swap := swap_compare
  cmp_lt_trans := compare_lt_trans _ _ _

theorem compareLists_eq_cmpList : ∀ p q : List Form, compareLists p q = Ordered.cmpList p q
  | [], [] => rfl
  | [], _ :: _ => rfl
  | _ :: _, [] => rfl
  | a :: p, b :: q => by
      simp only [compareLists, Ordered.cmpList, compareLists_eq_cmpList p q]
      rfl

/-- A form in which every list increases strictly, at every depth. -/
inductive IsSet : Form → Prop where
  | id (n : UInt32) : IsSet (.id n)
  | set {ms : List Form} (increasing : ms.Pairwise Ordered.Lt) (members : ∀ m ∈ ms, IsSet m) :
      IsSet (.set ms)

theorem IsSet.increasing {ms : List Form} : IsSet (.set ms) → ms.Pairwise Ordered.Lt
  | .set h _ => h

theorem IsSet.members {ms : List Form} : IsSet (.set ms) → ∀ m ∈ ms, IsSet m
  | .set _ h => h

end State.Form

/-- A state of an automaton: a number, or a finite set of states. -/
structure State where
  form : State.Form
  isSet : form.IsSet

namespace State

theorem form_injective {s t : State} (h : s.form = t.form) : s = t := by
  obtain ⟨x, hx⟩ := s
  obtain ⟨y, hy⟩ := t
  subst h
  rfl

instance : Ordered State := Ordered.lift form form_injective

instance : DecidableEq State := Ordered.decEq

/-- The state with a number of its own. -/
def simple (id : UInt32) : State := ⟨.id id, .id id⟩

/-- The state that stands for a set of states. -/
def composite (members : SortedSet State) : State :=
  ⟨.set (members.toList.map form),
    .set (List.pairwise_map.2 members.increasing) fun _ hm => by
      obtain ⟨s, -, rfl⟩ := List.mem_map.1 hm
      exact s.isSet⟩

/-- The composite state with the members listed, in any order and with any repetitions. -/
def ofMembers (members : List State) : State := composite (SortedSet.ofList members)

/-- The states whose forms are the members of a set form. -/
def ofForms (ms : List Form) (h : (Form.set ms).IsSet) : SortedSet State :=
  ⟨ms.pmap State.mk h.members, by
    refine List.Pairwise.pmap h.increasing _ ?_
    intro a _ b _ hab
    exact hab⟩

/-- The set that a composite state stands for; a numbered state stands for no set. -/
def memberSet? : State → Option (SortedSet State)
  | ⟨.id _, _⟩ => none
  | ⟨.set ms, h⟩ => some (ofForms ms h)

/-- The number of a numbered state. -/
def id? : State → Option UInt32
  | ⟨.id n, _⟩ => some n
  | ⟨.set _, _⟩ => none

/-- The states that a state stands for: its members, or the state itself if it has a number. -/
def members (s : State) : List State :=
  match s.memberSet? with
  | some set => set.toList
  | none => [s]

/-- The composite state without members. -/
def dead : State := composite .empty

/-- Does the state stand for no state at all? -/
def isDead (s : State) : Bool := s.memberSet? == some .empty

/-- Does the state stand for a set? -/
def isComposite (s : State) : Bool := s.memberSet?.isSome

/-! ## Numbered and composite states -/

theorem composite_ofForms (ms : List Form) (h : (Form.set ms).IsSet) :
    composite (ofForms ms h) = ⟨.set ms, h⟩ := by
  apply form_injective
  simp only [composite, ofForms, Form.set.injEq, List.map_pmap]
  simp

@[simp] theorem memberSet?_simple (n : UInt32) : (simple n).memberSet? = none := rfl

@[simp] theorem id?_simple (n : UInt32) : (simple n).id? = some n := rfl

@[simp] theorem id?_composite (S : SortedSet State) : (composite S).id? = none := rfl

@[simp] theorem members_simple (n : UInt32) : (simple n).members = [simple n] := rfl

theorem simple_injective {m n : UInt32} (h : simple m = simple n) : m = n := by
  simpa using congrArg id? h

theorem composite_injective {S T : SortedSet State} (h : composite S = composite T) : S = T := by
  have h' : S.toList.map form = T.toList.map form := by
    simpa [composite] using congrArg form h
  exact SortedSet.toList_injective ((List.map_inj_right fun _ _ => form_injective).1 h')

@[simp] theorem memberSet?_composite (S : SortedSet State) :
    (composite S).memberSet? = some S := by
  have h : (composite S).memberSet? = some (ofForms _ (composite S).isSet) := rfl
  rw [h, Option.some.injEq]
  exact composite_injective (composite_ofForms _ _)

@[simp] theorem members_composite (S : SortedSet State) : (composite S).members = S.toList := by
  simp [members]

theorem simple_ne_composite (n : UInt32) (S : SortedSet State) : simple n ≠ composite S :=
  fun h => by simpa using congrArg id? h

/-- **Every state is a number or a set.** -/
theorem eq_simple_or_eq_composite : ∀ s : State, (∃ n, s = simple n) ∨ ∃ S, s = composite S
  | ⟨.id n, _⟩ => .inl ⟨n, rfl⟩
  | ⟨.set ms, h⟩ => .inr ⟨ofForms ms h, (composite_ofForms ms h).symm⟩

/-- One state alone is dead. -/
theorem isDead_iff {s : State} : s.isDead = true ↔ s = dead := by
  rcases eq_simple_or_eq_composite s with ⟨n, rfl⟩ | ⟨S, rfl⟩
  · exact iff_of_false Bool.noConfusion (simple_ne_composite n _)
  · rw [isDead, memberSet?_composite, beq_iff_eq, Option.some.injEq]
    exact ⟨congrArg composite, composite_injective⟩

/-- Two composite states are equal exactly when they list the same members. -/
theorem ofMembers_eq_ofMembers {p q : List State} :
    ofMembers p = ofMembers q ↔ ∀ s, s ∈ p ↔ s ∈ q := by
  rw [← SortedSet.ofList_eq_ofList]
  exact ⟨composite_injective, congrArg composite⟩

end State

end Determinization
