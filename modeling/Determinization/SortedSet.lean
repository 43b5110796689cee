import Determinization.Ordered

/-!
# Finite sets as increasing lists

A `SortedSet α` is a list that increases strictly.  Increasing lists are canonical: two of them with
the same members are the same list (`SortedSet.ext`).  So equality of sets is equality of values,
and listing a set is reading off its only field, always in the same order.

## Main statements

* `SortedSet.mem_ofList`: the set built from a list has exactly the list's members, whatever their
  order and however often they are repeated.
* `SortedSet.ext`: a set is determined by its members.
* `SortedSet.ofList_toList`: building a set from its own listing changes nothing.
* `SortedSet.toList_image`: a function that keeps the order takes listings to listings.
-/

namespace Determinization

/-- A finite set, kept as the strictly increasing list of its members. -/
structure SortedSet (α : Type) [Ordered α] where
  /-- The members, smallest first. -/
  toList : List α
  increasing : toList.Pairwise Ordered.Lt

namespace SortedSet

variable {α β : Type} [Ordered α] [Ordered β]

instance : Membership α (SortedSet α) where
  mem s a := a ∈ s.toList

instance [DecidableEq α] (a : α) (s : SortedSet α) : Decidable (a ∈ s) :=
  inferInstanceAs (Decidable (a ∈ s.toList))

@[simp] theorem mem_toList {a : α} {s : SortedSet α} : a ∈ s.toList ↔ a ∈ s := Iff.rfl

/-- **Two sets with the same members are equal.** -/
theorem ext {s t : SortedSet α} (h : ∀ a, a ∈ s ↔ a ∈ t) : s = t := by
  obtain ⟨l, hl⟩ := s
  obtain ⟨m, hm⟩ := t
  suffices l = m by subst this; rfl
  have h' : ∀ a, a ∈ l ↔ a ∈ m := h
  clear h
  induction l generalizing m with
  | nil =>
      cases m with
      | nil => rfl
      | cons b m => exact absurd ((h' b).2 (by simp)) (by simp)
  | cons a l ih =>
      cases m with
      | nil => exact absurd ((h' a).1 (by simp)) (by simp)
      | cons b m =>
          rw [List.pairwise_cons] at hl hm
          have hab : a = b := by
            rcases List.mem_cons.1 ((h' a).1 (by simp)) with e | ha
            · exact e
            · rcases List.mem_cons.1 ((h' b).2 (by simp)) with e | hb
              · exact e.symm
              · exact absurd (hl.1 b hb) (Ordered.lt_asymm (hm.1 a ha))
          subst hab
          have htail : ∀ c, c ∈ l ↔ c ∈ m := by
            intro c
            constructor
            · intro hc
              rcases List.mem_cons.1 ((h' c).1 (List.mem_cons_of_mem a hc)) with e | hm'
              · exact absurd (e ▸ hl.1 c hc) (Ordered.lt_irrefl a)
              · exact hm'
            · intro hc
              rcases List.mem_cons.1 ((h' c).2 (List.mem_cons_of_mem a hc)) with e | hl'
              · exact absurd (e ▸ hm.1 c hc) (Ordered.lt_irrefl a)
              · exact hl'
          rw [ih hl.2 m hm.2 htail]

theorem toList_injective {s t : SortedSet α} (h : s.toList = t.toList) : s = t := by
  obtain ⟨l, hl⟩ := s
  obtain ⟨m, hm⟩ := t
  subst h
  rfl

instance [DecidableEq α] : DecidableEq (SortedSet α) := fun s t =>
  decidable_of_iff (s.toList = t.toList) ⟨toList_injective, congrArg toList⟩

theorem nodup (s : SortedSet α) : s.toList.Nodup := s.increasing.imp Ordered.ne_of_lt

/-! ## Building sets -/

/-- Put an element into its place in an increasing list, unless it is there already. -/
def insertInto (a : α) : List α → List α
  | [] => [a]
  | b :: l =>
      match Ordered.cmp a b with
      | .lt => a :: b :: l
      | .eq => b :: l
      | .gt => b :: insertInto a l

theorem mem_insertInto {a c : α} {l : List α} : c ∈ insertInto a l ↔ c = a ∨ c ∈ l := by
  induction l with
  | nil => simp [insertInto]
  | cons b l ih =>
      unfold insertInto
      split
      · simp
      · rename_i h
        simp [Ordered.cmp_eq_iff.1 h]
      · simp only [List.mem_cons, ih]
        exact or_left_comm

theorem pairwise_insertInto {a : α} {l : List α} (hl : l.Pairwise Ordered.Lt) :
    (insertInto a l).Pairwise Ordered.Lt := by
  induction l with
  | nil => simp [insertInto]
  | cons b l ih =>
      unfold insertInto
      have hb := List.pairwise_cons.1 hl
      split
      · rename_i h
        refine List.pairwise_cons.2 ⟨?_, hl⟩
        intro c hc
        rcases List.mem_cons.1 hc with e | hc
        · exact e ▸ h
        · exact Ordered.lt_trans h (hb.1 c hc)
      · exact hl
      · rename_i h
        refine List.pairwise_cons.2 ⟨?_, ih hb.2⟩
        intro c hc
        rcases mem_insertInto.1 hc with e | hc
        · exact e ▸ Ordered.cmp_gt_iff.1 h
        · exact hb.1 c hc

/-- The set without members. -/
def empty : SortedSet α := ⟨[], List.Pairwise.nil⟩

/-- The set with one more member. -/
def insert (s : SortedSet α) (a : α) : SortedSet α :=
  ⟨insertInto a s.toList, pairwise_insertInto s.increasing⟩

/-- The set of the members of a list. -/
def ofList (l : List α) : SortedSet α := l.foldr (fun a s => s.insert a) empty

/-- The members that pass a test. -/
def filter (p : α → Bool) (s : SortedSet α) : SortedSet α :=
  ⟨s.toList.filter p, s.increasing.sublist List.filter_sublist⟩

/-- The set of the images of the members. -/
def image (f : α → β) (s : SortedSet α) : SortedSet β := ofList (s.toList.map f)

/-- The number of members. -/
def size (s : SortedSet α) : Nat := s.toList.length

@[simp] theorem toList_empty : (empty : SortedSet α).toList = [] := rfl

@[simp] theorem not_mem_empty (a : α) : a ∉ (empty : SortedSet α) := List.not_mem_nil

@[simp] theorem mem_insert {a b : α} {s : SortedSet α} : b ∈ s.insert a ↔ b = a ∨ b ∈ s :=
  mem_insertInto

@[simp] theorem mem_ofList {a : α} {l : List α} : a ∈ ofList l ↔ a ∈ l := by
  induction l with
  | nil => simp [ofList]
  | cons b l ih =>
      rw [List.mem_cons, ← ih]
      exact mem_insert

@[simp] theorem mem_filter {p : α → Bool} {a : α} {s : SortedSet α} :
    a ∈ s.filter p ↔ a ∈ s ∧ p a = true := List.mem_filter

@[simp] theorem mem_image {f : α → β} {b : β} {s : SortedSet α} :
    b ∈ s.image f ↔ ∃ a ∈ s, f a = b := by
  simp [image]

@[simp] theorem ofList_toList (s : SortedSet α) : ofList s.toList = s :=
  ext fun a => by simp

theorem ofList_eq_ofList {l m : List α} : ofList l = ofList m ↔ ∀ a, a ∈ l ↔ a ∈ m :=
  ⟨fun h a => by rw [← mem_ofList, h, mem_ofList], fun h => ext fun a => by simp [h a]⟩

/-! ## The order of listings -/

/-- A function that keeps the order takes the listing of a set to the listing of its image. -/
theorem toList_image {f : α → β} {s : SortedSet α}
    (hf : ∀ a ∈ s, ∀ b ∈ s, Ordered.Lt a b → Ordered.Lt (f a) (f b)) :
    (s.image f).toList = s.toList.map f := by
  have hincreasing : (s.toList.map f).Pairwise Ordered.Lt :=
    List.pairwise_map.2 (s.increasing.imp_of_mem fun ha hb => hf _ ha _ hb)
  have hset : s.image f = ⟨s.toList.map f, hincreasing⟩ := ext fun _ => mem_ofList
  rw [hset]

/-- Smaller members are listed earlier. -/
theorem idxOf_lt_idxOf [DecidableEq α] {a b : α} {s : SortedSet α} (ha : a ∈ s) (hb : b ∈ s)
    (h : Ordered.Lt a b) : s.toList.idxOf a < s.toList.idxOf b := by
  have hla := List.idxOf_lt_length_of_mem ha
  have hlb := List.idxOf_lt_length_of_mem hb
  rcases Nat.lt_trichotomy (s.toList.idxOf a) (s.toList.idxOf b) with hlt | heq | hgt
  · exact hlt
  · have hab : a = b := by
      rw [← List.getElem_idxOf hla, ← List.getElem_idxOf hlb]
      simp only [heq]
    exact absurd hab (Ordered.ne_of_lt h)
  · have hba := List.pairwise_iff_getElem.1 s.increasing _ _ hlb hla hgt
    rw [List.getElem_idxOf, List.getElem_idxOf] at hba
    exact absurd h (Ordered.lt_asymm hba)

end SortedSet

end Determinization
