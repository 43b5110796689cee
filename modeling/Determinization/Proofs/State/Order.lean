import Determinization.State.Basic
import Mathlib.Data.List.Lex

/-!
# The order of states

States and sets of states are ordered by each other: a composite state is placed by its members in
their order, and the members are in order by comparing them, which may be composite themselves.
What comes out of this is a linear order in which numbers come first, numbers are compared as
numbers, and composite states are compared at the first member in which they differ, where a
beginning comes before what it is a beginning of.  It answers *same* for equal states only, and two
composite states are equal exactly if the lists they were made of have the same members
(`OrdersStates`).

These rules leave no room for another order.  Two comparisons that obey them agree on all states, by
induction on the nesting: what they answer for two composite states depends only on what they answer
for members (`OrdersStates.eq_cmp`).  So the rules describe the comparison of states completely
(`ordersStates_iff`).
-/

namespace Determinization

/-- Which of two lists comes first depends on how members of the one compare with members of the
other. -/
theorem lex_congr {α : Type} {r r' : α → α → Prop} {l m : List α}
    (h : ∀ a ∈ l, ∀ b ∈ m, r a b ↔ r' a b) : List.Lex r l m ↔ List.Lex r' l m := by
  induction l generalizing m with
  | nil => cases m <;> simp
  | cons a l ih =>
      cases m with
      | nil => simp
      | cons b m =>
          have htail : List.Lex r l m ↔ List.Lex r' l m := ih fun a ha b hb =>
            h a (List.mem_cons_of_mem _ ha) b (List.mem_cons_of_mem _ hb)
          rw [List.cons_lex_cons_iff, List.cons_lex_cons_iff, htail,
            h a List.mem_cons_self b List.mem_cons_self]

namespace Ordered

variable {α β : Type} [Ordered α] [Ordered β] {a b : α} {p q : List α}

/-- **A list comes before another one exactly if it does so lexicographically.** -/
theorem cmpList_eq_lt_iff : cmpList p q = .lt ↔ List.Lex Lt p q := by
  induction p generalizing q with
  | nil => cases q <;> simp [cmpList]
  | cons a p ih =>
      cases q with
      | nil => simp [cmpList]
      | cons b q =>
          rw [cmpList, Ordering.then_eq_lt, cmp_eq_iff, ih, List.cons_lex_cons_iff]
          rfl

theorem cmpList_map {f : α → β} (hf : ∀ a b, cmp (f a) (f b) = cmp a b) (p q : List α) :
    cmpList (p.map f) (q.map f) = cmpList p q := by
  induction p generalizing q with
  | nil => cases q <;> rfl
  | cons a p ih =>
      cases q with
      | nil => rfl
      | cons b q => rw [List.map_cons, List.map_cons, cmpList, cmpList, hf, ih]

end Ordered

namespace State

open Ordered (cmp_eq_iff cmp_gt_iff)

variable {cmp : State → State → Ordering} {S T : SortedSet State} {s t u : State}

/-! ## The comparison of composite states -/

theorem cmp_composite (S T : SortedSet State) :
    Ordered.cmp (composite S) (composite T) = Ordered.cmpList S.toList T.toList := by
  have hforms : Ordered.cmp (composite S) (composite T) =
      Form.compareLists (S.toList.map form) (T.toList.map form) := by
    show Form.compare (.set (S.toList.map form)) (.set (T.toList.map form)) = _
    rw [Form.compare]
  rw [hforms, Form.compareLists_eq_cmpList]
  exact Ordered.cmpList_map (f := form) (fun _ _ => rfl) S.toList T.toList

theorem composite_lt_composite :
    Ordered.Lt (composite S) (composite T) ↔ List.Lex Ordered.Lt S.toList T.toList := by
  rw [Ordered.Lt, cmp_composite, Ordered.cmpList_eq_lt_iff]

theorem simple_lt_composite (n : UInt32) (S : SortedSet State) :
    Ordered.Lt (simple n) (composite S) := by
  show Form.compare (.id n) (.set (S.toList.map form)) = .lt
  rw [Form.compare]

theorem simple_lt_simple {m n : UInt32} : Ordered.Lt (simple m) (simple n) ↔ m < n := by
  have hforms : Ordered.cmp (simple m) (simple n) = Ordered.cmpNat m.toNat n.toNat := by
    show Form.compare (.id m) (.id n) = _
    rw [Form.compare]
    rfl
  rw [Ordered.Lt, hforms, Ordered.cmpNat_eq_lt, UInt32.lt_iff_toNat_lt]

/-- **What holds of numbers, and of a set if it holds of its members, holds of all states.** -/
@[elab_as_elim]
theorem induction {P : State → Prop} (simple : ∀ n, P (simple n))
    (composite : ∀ S, (∀ s ∈ S, P s) → P (composite S)) (s : State) : P s := by
  obtain ⟨x, hx⟩ := s
  induction hx with
  | id n => exact simple n
  | @set ms increasing members ih =>
      rw [← composite_ofForms ms (.set increasing members)]
      refine composite _ fun s hs => ?_
      obtain ⟨m, hm, rfl⟩ := List.mem_pmap.1 hs
      exact ih m hm

/-! ## The rules -/

/-- Each state of the one list is found to be the same as some state of the other. -/
def SameMembers (cmp : State → State → Ordering) (p q : List State) : Prop :=
  (∀ s ∈ p, ∃ t ∈ q, cmp s t = .eq) ∧ ∀ t ∈ q, ∃ s ∈ p, cmp s t = .eq

/-- The comparison is that of a linear order in which states are sorted as nested sets. -/
structure OrdersStates (cmp : State → State → Ordering) : Prop where
  refl : ∀ s, cmp s s = .eq
  eq_of_cmp_eq : ∀ s t, cmp s t = .eq → s = t
  swap : ∀ s t, cmp t s = (cmp s t).swap
  trans : ∀ s t u, cmp s t ≠ .gt → cmp t u ≠ .gt → cmp s u ≠ .gt
  total : ∀ s t, cmp s t ≠ .gt ∨ cmp t s ≠ .gt
  simple_lt_composite : ∀ n S, cmp (simple n) (composite S) = .lt
  simple_lt_simple : ∀ m n, cmp (simple m) (simple n) = .lt ↔ m < n
  /-- Members are listed in their order, and the first difference in these lists decides. -/
  composite_lt_composite : ∀ S T, cmp (composite S) (composite T) = .lt ↔
    List.Lex (fun s t => cmp s t = .lt) S.toList T.toList
  pairwise_toList : ∀ S : SortedSet State, S.toList.Pairwise fun s t => cmp s t = .lt
  /-- A proper beginning comes first. -/
  lt_of_prefix : ∀ S T : SortedSet State, S.toList <+: T.toList → S ≠ T →
    cmp (composite S) (composite T) = .lt
  /-- Neither order nor repetitions count, in a list of states of whatever nesting. -/
  ofMembers_eq_iff : ∀ p q, ofMembers p = ofMembers q ↔ SameMembers cmp p q

theorem sameMembers_iff {p q : List State} :
    SameMembers Ordered.cmp p q ↔ ∀ s, s ∈ p ↔ s ∈ q := by
  simp only [SameMembers, cmp_eq_iff, exists_eq_right', exists_eq_right]
  exact ⟨fun h s => ⟨h.1 s, h.2 s⟩, fun h => ⟨fun s => (h s).1, fun s => (h s).2⟩⟩

theorem cmp_ne_gt_iff : Ordered.cmp s t ≠ .gt ↔ Ordered.Lt s t ∨ s = t := by
  rw [Ordered.Lt, ← cmp_eq_iff (a := s) (b := t)]
  cases Ordered.cmp s t <;> simp

/-- **The comparison of states obeys the rules.** -/
theorem ordersStates_cmp : OrdersStates Ordered.cmp where
  refl := Ordered.cmp_self
  eq_of_cmp_eq _ _ := cmp_eq_iff.1
  swap s t := (Ordered.cmp_swap s t).symm
  trans s t u := by
    simp only [cmp_ne_gt_iff]
    rintro (hst | rfl) (htu | rfl)
    · exact .inl (Ordered.lt_trans hst htu)
    · exact .inl hst
    · exact .inl htu
    · exact .inr rfl
  total s t := by
    simp only [cmp_ne_gt_iff]
    rcases Ordered.lt_trichotomy s t with h | h | h
    · exact .inl (.inl h)
    · exact .inl (.inr h)
    · exact .inr (.inl h)
  simple_lt_composite := simple_lt_composite
  simple_lt_simple _ _ := simple_lt_simple
  composite_lt_composite _ _ := composite_lt_composite
  pairwise_toList S := S.increasing
  lt_of_prefix S T := by
    rintro ⟨l, hl⟩ hne
    refine composite_lt_composite.2 ?_
    cases l with
    | nil => exact absurd (SortedSet.toList_injective (by rw [← hl, List.append_nil])) hne
    | cons t l =>
        have hnil : List.Lex Ordered.Lt [] (t :: l) := List.Lex.nil
        have hlex := List.Lex.append_left Ordered.Lt hnil S.toList
        rwa [List.append_nil, hl] at hlex
  ofMembers_eq_iff p q := by rw [ofMembers_eq_ofMembers, sameMembers_iff]

/-! ## No other comparison -/

/-- Comparisons that obey the rules are equal where they agree on what comes first. -/
theorem OrdersStates.cmp_eq (h : OrdersStates cmp) (hlt : cmp s t = .lt ↔ Ordered.Lt s t)
    (hgt : cmp t s = .lt ↔ Ordered.Lt t s) : cmp s t = Ordered.cmp s t := by
  rw [h.swap s t, ← cmp_gt_iff] at hgt
  rw [Ordered.Lt] at hlt
  have heq : cmp s t = .eq ↔ Ordered.cmp s t = .eq := by
    rw [cmp_eq_iff]
    refine ⟨h.eq_of_cmp_eq s t, ?_⟩
    rintro rfl
    exact h.refl s
  cases hcmp : cmp s t <;> simp_all

/-- **No other comparison obeys the rules.**  What it answers for two sets follows from what it
answers for their members. -/
theorem OrdersStates.eq_cmp (h : OrdersStates cmp) (s : State) :
    ∀ t, cmp s t = Ordered.cmp s t := by
  induction s using State.induction with
  | simple m =>
      intro t
      rcases eq_simple_or_eq_composite t with ⟨n, rfl⟩ | ⟨T, rfl⟩
      · exact h.cmp_eq ((h.simple_lt_simple m n).trans State.simple_lt_simple.symm)
          ((h.simple_lt_simple n m).trans State.simple_lt_simple.symm)
      · rw [h.simple_lt_composite, State.simple_lt_composite m T]
  | composite S ih =>
      intro t
      rcases eq_simple_or_eq_composite t with ⟨n, rfl⟩ | ⟨T, rfl⟩
      · rw [h.swap, h.simple_lt_composite, ← Ordered.cmp_swap, State.simple_lt_composite n S]
      · have hlt : ∀ s ∈ S.toList, ∀ t, cmp s t = .lt ↔ Ordered.Lt s t := fun s hs t => by
          rw [ih s hs t, Ordered.Lt]
        have hgt : ∀ s ∈ S.toList, ∀ t, cmp t s = .lt ↔ Ordered.Lt t s := fun s hs t => by
          rw [h.swap s t, ih s hs t, Ordered.cmp_swap, Ordered.Lt]
        refine h.cmp_eq ?_ ?_
        · rw [h.composite_lt_composite, State.composite_lt_composite]
          exact lex_congr fun s hs t _ => hlt s hs t
        · rw [h.composite_lt_composite, State.composite_lt_composite]
          exact lex_congr fun t _ s hs => hgt s hs t

/-- **States are in a linear order of nested sets, and in no other one:** of all comparisons, it is
the one they are sorted by that obeys the rules. -/
theorem ordersStates_iff (cmp : State → State → Ordering) :
    OrdersStates cmp ↔ cmp = Ordered.cmp :=
  ⟨fun h => funext fun s => funext (h.eq_cmp s), fun h => h ▸ ordersStates_cmp⟩

/-- The members of the one set are the first members of the other, in whatever order they are
given. -/
example : ofMembers [dead, simple 3, dead] = ofMembers [simple 3, dead] ∧
    Ordered.Lt (ofMembers [dead, simple 3]) (ofMembers [ofMembers [dead], dead, simple 3]) := by
  decide +kernel

end State

end Determinization
