/-!
# Linear orders given by a three-way comparison

Every list this library prints is sorted, and every set it stores is kept as an increasing list.
What that needs of an element type is one comparison that answers *before*, *same* or *after*, and
three laws: *same* means equal, exchanging the arguments exchanges the answers, and *before* is
transitive.  `Ordered` packs the comparison with its laws, so an ordered type cannot be declared
without proving that its order is linear.

## Building orders from orders

Pairs and lists are compared lexicographically, and `Ordered.lift` pulls an order back along an
injection.  Characters and 32-bit numbers get their order from the natural numbers that way.

## What comes first

A search through an increasing list that stops at the first find has found the least there is
(`Ordered.findSome?_eq_some_iff`).  That is how errors come to name the smallest offender.
-/

namespace Determinization

/-- A type with a decidable linear order, given by its comparison. -/
class Ordered (α : Type) where
  /-- Is the first argument before, at or after the second? -/
  cmp : α → α → Ordering
  /-- Two elements compare as the same exactly when they are equal. -/
  cmp_eq_iff : ∀ {a b : α}, cmp a b = .eq ↔ a = b
  /-- Exchanging the arguments exchanges *before* and *after*. -/
  cmp_swap : ∀ a b : α, (cmp a b).swap = cmp b a
  /-- *Before* is transitive. -/
  cmp_lt_trans : ∀ {a b c : α}, cmp a b = .lt → cmp b c = .lt → cmp a c = .lt

namespace Ordered

variable {α β : Type}

/-- The strict order: the first element comes before the second. -/
def Lt [Ordered α] (a b : α) : Prop := cmp a b = .lt

instance [Ordered α] (a b : α) : Decidable (Lt a b) :=
  inferInstanceAs (Decidable (cmp a b = .lt))

section Laws

variable [Ordered α] {a b c : α}

@[simp] theorem cmp_self (a : α) : cmp a a = .eq := cmp_eq_iff.2 rfl

theorem lt_irrefl (a : α) : ¬ Lt a a := by simp [Lt]

theorem lt_trans (hab : Lt a b) (hbc : Lt b c) : Lt a c := cmp_lt_trans hab hbc

theorem cmp_gt_iff : cmp a b = .gt ↔ Lt b a := by
  rw [Lt, ← cmp_swap a b]
  cases cmp a b <;> simp

theorem lt_asymm (hab : Lt a b) : ¬ Lt b a := fun hba => lt_irrefl a (lt_trans hab hba)

theorem ne_of_lt (hab : Lt a b) : a ≠ b := fun h => lt_irrefl b (h ▸ hab)

/-- Any two elements are comparable. -/
theorem lt_trichotomy (a b : α) : Lt a b ∨ a = b ∨ Lt b a := by
  cases h : cmp a b with
  | lt => exact .inl h
  | eq => exact .inr (.inl (cmp_eq_iff.1 h))
  | gt => exact .inr (.inr (cmp_gt_iff.1 h))

/-- Equality is decided by the comparison. -/
def decEq (a b : α) : Decidable (a = b) := decidable_of_iff (cmp a b = .eq) cmp_eq_iff

end Laws

/-- The order pulled back along an injection: elements are compared by their images. -/
abbrev lift [Ordered β] (f : α → β) (injective : ∀ {a b}, f a = f b → a = b) : Ordered α where
  cmp a b := cmp (f a) (f b)
  cmp_eq_iff := by
    intro a b
    rw [cmp_eq_iff]
    exact ⟨injective, congrArg f⟩
  cmp_swap a b := cmp_swap (f a) (f b)
  cmp_lt_trans := cmp_lt_trans

/-! ## Numbers and characters -/

/-- The comparison of natural numbers. -/
def cmpNat (m n : Nat) : Ordering :=
  if m < n then .lt else if m = n then .eq else .gt

theorem cmpNat_eq_lt {m n : Nat} : cmpNat m n = .lt ↔ m < n := by
  unfold cmpNat
  split
  · simp_all
  · split <;> simp_all

theorem cmpNat_eq_eq {m n : Nat} : cmpNat m n = .eq ↔ m = n := by
  unfold cmpNat
  split
  · simp only [reduceCtorEq, false_iff]; omega
  · split <;> simp_all

theorem cmpNat_eq_gt {m n : Nat} : cmpNat m n = .gt ↔ n < m := by
  unfold cmpNat
  split
  · simp only [reduceCtorEq, false_iff]; omega
  · split <;> simp <;> omega

instance : Ordered Nat where
  cmp := cmpNat
  cmp_eq_iff := cmpNat_eq_eq
  cmp_swap m n := by
    cases h : cmpNat m n with
    | lt => exact (cmpNat_eq_gt.2 (cmpNat_eq_lt.1 h)).symm
    | eq => exact (cmpNat_eq_eq.2 (cmpNat_eq_eq.1 h).symm).symm
    | gt => exact (cmpNat_eq_lt.2 (cmpNat_eq_gt.1 h)).symm
  cmp_lt_trans := by
    intro a b c hab hbc
    rw [cmpNat_eq_lt] at hab hbc ⊢
    omega

theorem lt_nat {m n : Nat} : Lt m n ↔ m < n := cmpNat_eq_lt

instance : Ordered UInt32 := lift UInt32.toNat UInt32.toNat_inj.1

instance : Ordered Char := lift Char.toNat Char.toNat_inj.1

/-! ## Pairs -/

/-- Pairs are compared by their first components, and on a tie by their second ones. -/
instance [Ordered α] [Ordered β] : Ordered (α × β) where
  cmp p q := (cmp p.1 q.1).then (cmp p.2 q.2)
  cmp_eq_iff := by
    intro p q
    rw [Ordering.then_eq_eq, cmp_eq_iff, cmp_eq_iff, Prod.ext_iff]
  cmp_swap p q := by
    rw [Ordering.swap_then, cmp_swap, cmp_swap]
  cmp_lt_trans := by
    intro p q r hpq hqr
    rw [Ordering.then_eq_lt] at hpq hqr ⊢
    rcases hpq with h | ⟨h, h'⟩
    · rcases hqr with k | ⟨k, -⟩
      · exact .inl (cmp_lt_trans h k)
      · exact .inl (cmp_eq_iff.1 k ▸ h)
    · rcases hqr with k | ⟨k, k'⟩
      · exact .inl (by rw [cmp_eq_iff.1 h]; exact k)
      · exact .inr ⟨by rw [cmp_eq_iff.1 h]; exact k, cmp_lt_trans h' k'⟩

theorem lt_prod_iff [Ordered α] [Ordered β] {p q : α × β} :
    Lt p q ↔ Lt p.1 q.1 ∨ p.1 = q.1 ∧ Lt p.2 q.2 := by
  rw [← cmp_eq_iff]
  exact Ordering.then_eq_lt

/-! ## Lists -/

/-- Lists are compared at the first place where they differ; a list comes after its beginnings. -/
def cmpList [Ordered α] : List α → List α → Ordering
  | [], [] => .eq
  | [], _ :: _ => .lt
  | _ :: _, [] => .gt
  | a :: p, b :: q => (cmp a b).then (cmpList p q)

theorem cmpList_eq_iff [Ordered α] : ∀ {p q : List α}, cmpList p q = .eq ↔ p = q
  | [], [] => by simp [cmpList]
  | [], _ :: _ => by simp [cmpList]
  | _ :: _, [] => by simp [cmpList]
  | a :: p, b :: q => by
      rw [cmpList, Ordering.then_eq_eq, cmp_eq_iff, cmpList_eq_iff, List.cons.injEq]

theorem swap_cmpList [Ordered α] : ∀ p q : List α, (cmpList p q).swap = cmpList q p
  | [], [] => rfl
  | [], _ :: _ => rfl
  | _ :: _, [] => rfl
  | a :: p, b :: q => by
      rw [cmpList, cmpList, Ordering.swap_then, cmp_swap, swap_cmpList p q]

theorem cmpList_lt_trans [Ordered α] :
    ∀ {p q r : List α}, cmpList p q = .lt → cmpList q r = .lt → cmpList p r = .lt
  | [], _, [], _, h => by
      revert h
      cases ‹List α› <;> simp [cmpList]
  | [], _, _ :: _, _, _ => rfl
  | _ :: _, [], _, h, _ => by simp [cmpList] at h
  | _ :: _, _ :: _, [], _, h => by simp [cmpList] at h
  | a :: p, b :: q, c :: r, h, k => by
      rw [cmpList, Ordering.then_eq_lt] at h k ⊢
      rcases h with h | ⟨h, h'⟩
      · rcases k with k | ⟨k, -⟩
        · exact .inl (cmp_lt_trans h k)
        · exact .inl (cmp_eq_iff.1 k ▸ h)
      · rcases k with k | ⟨k, k'⟩
        · exact .inl (by rw [cmp_eq_iff.1 h]; exact k)
        · exact .inr ⟨by rw [cmp_eq_iff.1 h]; exact k, cmpList_lt_trans h' k'⟩

instance [Ordered α] : Ordered (List α) where
  cmp := cmpList
  cmp_eq_iff := cmpList_eq_iff
  cmp_swap := swap_cmpList
  cmp_lt_trans := cmpList_lt_trans

/-! ## Increasing lists -/

section Increasing

variable [Ordered α] [Ordered β] {γ : Type} {l : List α}

/-- The pairs of two increasing lists, listed by their first components, increase. -/
theorem pairwise_pairs {m : List β} (hl : l.Pairwise Lt) (hm : m.Pairwise Lt) :
    (l.flatMap fun a => m.map fun b => (a, b)).Pairwise Lt := by
  rw [List.pairwise_flatMap]
  constructor
  · intro a _
    refine List.pairwise_map.2 (hm.imp ?_)
    intro b b' hbb'
    exact lt_prod_iff.2 (.inr ⟨rfl, hbb'⟩)
  · refine hl.imp ?_
    intro a a' haa' p hp q hq
    obtain ⟨b, -, rfl⟩ := List.mem_map.1 hp
    obtain ⟨b', -, rfl⟩ := List.mem_map.1 hq
    exact lt_prod_iff.2 (.inl haa')

/-- **What is found first in an increasing list is found at the least member where there is anything
to find.** -/
theorem findSome?_eq_some_iff (hl : l.Pairwise Lt) {f : α → Option γ} {b : γ} :
    l.findSome? f = some b ↔ ∃ a ∈ l, f a = some b ∧ ∀ c ∈ l, Lt c a → f c = none := by
  rw [List.findSome?_eq_some_iff]
  constructor
  · rintro ⟨before, a, after, rfl, ha, hbefore⟩
    obtain ⟨-, hafter, -⟩ := List.pairwise_append.1 hl
    refine ⟨a, List.mem_append_right _ List.mem_cons_self, ha, fun c hc hca => ?_⟩
    rcases List.mem_append.1 hc with hc | hc
    · exact hbefore c hc
    · rcases List.mem_cons.1 hc with rfl | hc
      · exact absurd hca (lt_irrefl c)
      · exact absurd hca (lt_asymm ((List.pairwise_cons.1 hafter).1 c hc))
  · rintro ⟨a, ha, hfound, hfirst⟩
    obtain ⟨before, after, rfl⟩ := List.append_of_mem ha
    obtain ⟨-, -, hbefore⟩ := List.pairwise_append.1 hl
    exact ⟨before, a, after, rfl, hfound, fun c hc =>
      hfirst c (List.mem_append_left _ hc) (hbefore c hc a List.mem_cons_self)⟩

theorem find?_eq_some_iff (hl : l.Pairwise Lt) {p : α → Bool} {a : α} :
    l.find? p = some a ↔ a ∈ l ∧ p a = true ∧ ∀ c ∈ l, Lt c a → p c = false := by
  rw [List.find?_eq_findSome?_guard, findSome?_eq_some_iff hl]
  simp only [Option.guard_eq_some_iff, Option.guard_eq_none_iff]
  constructor
  · rintro ⟨b, hb, ⟨rfl, hp⟩, hfirst⟩
    exact ⟨hb, hp, hfirst⟩
  · rintro ⟨ha, hp, hfirst⟩
    exact ⟨a, ha, ⟨rfl, hp⟩, hfirst⟩

end Increasing

end Ordered

end Determinization
