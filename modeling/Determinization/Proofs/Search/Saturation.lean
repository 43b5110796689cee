import Determinization.Proofs.Search.Exhaustion
import Determinization.SortedSet
import Mathlib.Data.Set.Finite.Basic
import Mathlib.Order.Bounds.Defs

/-!
# The worklist computes a least set

A worklist is a loop without a limit.  It takes an element from those that are pending, asks for its
neighbours, and notes them one at a time; an element is noted when it is found, before it is
expanded, and what was found before is not noted again.  The loop ends when nothing is pending
(`Ends`).

## What it computes

What the loop leaves behind is the least set that holds the seeds and that no neighbour leaves, and
the neighbours of each of its elements were asked for once (`Saturates`).  This needs no assumption:
whenever the loop ends, its log is of this kind (`saturates_of_ends`), because a step of the loop is
a step of a search and keeps what ties the three lists of the log together (`Sound.expand`).

## Why it ends

More may be noted in a step than is taken away, so the number of pending elements is no measure.
But what was not expanded becomes less with each step, and if all neighbours stay in a finite set,
then there is a last step.  From then on the search with a limit has the same log, so a limit that
admits the elements of the result cuts nothing off (`exists_ends_saturates`).

A graph that is given by its edges is the case that callers try out (`saturates_alongEdges`).
-/

namespace Determinization

/-- What is added in two goes is added at once. -/
theorem WorklistOrder.add_add {α : Type} (order : WorklistOrder) (new new' pending : List α) :
    order.add new' (order.add new pending) = order.add (new ++ new') pending := by
  cases order with
  | fifo => exact List.append_assoc _ _ _
  | lifo =>
      show new'.reverse ++ (new.reverse ++ pending) = (new ++ new').reverse ++ pending
      rw [List.reverse_append, List.append_assoc]

namespace Search

variable {α : Type} {order : WorklistOrder} {neighbours : α → List α} {seeds : List α}
  {s t t' : Search α}

/-! ## The loop -/

section Loop

variable [DecidableEq α]

/-- The search with an element found and pending, unless it was found before. -/
def discover (order : WorklistOrder) (s : Search α) (a : α) : Search α :=
  if a ∈ s.found then s else ⟨s.found ++ [a], s.expanded, order.add [a] s.pending⟩

/-- **Elements that are noted one after the other are noted as in a step of a search.** -/
theorem foldl_discover (order : WorklistOrder) (l : List α) (s : Search α) :
    l.foldl (discover order) s =
      ⟨s.found ++ unknown s.found l, s.expanded, order.add (unknown s.found l) s.pending⟩ := by
  induction l generalizing s with
  | nil =>
      rw [List.foldl_nil, unknown, List.append_nil]
      cases order <;> simp [WorklistOrder.add]
  | cons b l ih =>
      rw [List.foldl_cons, ih, discover, unknown]
      by_cases hb : b ∈ s.found
      · rw [if_pos hb, if_pos hb]
      · have hknown : unknown (s.found ++ [b]) l = unknown (b :: s.found) l :=
          unknown_congr (fun a => by simp [or_comm]) l
        rw [if_neg hb, if_neg hb, hknown, WorklistOrder.add_add, List.append_assoc,
          List.singleton_append]

/-- The log in which the seeds were noted one after the other, and nothing else. -/
def seeded (order : WorklistOrder) (seeds : List α) : Search α :=
  seeds.foldl (discover order) ⟨[], [], []⟩

/-- The loop of a worklist leads from one log to another, in which nothing is pending. -/
inductive Ends (order : WorklistOrder) (neighbours : α → List α) : Search α → Search α → Prop where
  | stop {s : Search α} (h : s.pending = []) : Ends order neighbours s s
  | step {s t : Search α} {a : α} {rest : List α} (h : s.pending = a :: rest)
      (hrest : Ends order neighbours
        ((neighbours a).foldl (discover order) ⟨s.found, s.expanded ++ [a], rest⟩) t) :
      Ends order neighbours s t

theorem seeded_eq_start (order : WorklistOrder) (seeds : List α) :
    seeded order seeds = start order seeds := foldl_discover order seeds ⟨[], [], []⟩

/-- A step of the loop is a step of a search. -/
theorem foldl_discover_eq_expand (s : Search α) (a : α) (rest : List α) :
    (neighbours a).foldl (discover order) ⟨s.found, s.expanded ++ [a], rest⟩ =
      s.expand order neighbours a rest := foldl_discover order _ _

/-- The loop leaves one log behind. -/
theorem Ends.eq (h : Ends order neighbours s t) (h' : Ends order neighbours s t') : t = t' := by
  induction h with
  | stop hs =>
      cases h' with
      | stop => rfl
      | step hnext => cases hs.symm.trans hnext
  | step hs _ ih =>
      cases h' with
      | stop hnone => cases hs.symm.trans hnone
      | step hnext hrest =>
          obtain ⟨rfl, rfl⟩ := List.cons.inj (hs.symm.trans hnext)
          exact ih hrest

/-- A search that is not cut off is a run of the loop. -/
theorem ends_run {limit : Nat} (h : (run order neighbours limit s).pending = []) :
    Ends order neighbours s (run order neighbours limit s) := by
  induction limit generalizing s with
  | zero => exact .stop h
  | succ limit ih =>
      cases hpending : s.pending with
      | nil =>
          rw [run_of_pending_nil hpending]
          exact .stop hpending
      | cons a rest =>
          rw [run_succ_of_pending_cons hpending] at h ⊢
          refine .step hpending ?_
          rw [foldl_discover_eq_expand]
          exact ih h

/-- **The loop keeps the invariant,** and nothing is pending when it ends. -/
theorem Sound.ends (hs : Sound neighbours seeds s) (h : Ends order neighbours s t) :
    Sound neighbours seeds t ∧ t.pending = [] := by
  induction h with
  | stop hpending => exact ⟨hs, hpending⟩
  | step hpending _ ih =>
      rw [foldl_discover_eq_expand] at ih
      exact ih (hs.expand hpending)

end Loop

/-! ## What it leaves behind -/

/-- The set holds the seeds, and no neighbour leads out of it. -/
def Closed (neighbours : α → List α) (seeds : List α) (S : Set α) : Prop :=
  (∀ a ∈ seeds, a ∈ S) ∧ ∀ a ∈ S, ∀ b ∈ neighbours a, b ∈ S

/-- What was found is the least closed set, and it was expanded element by element. -/
structure Saturates [Ordered α] (neighbours : α → List α) (seeds : List α) (t : Search α) :
    Prop where
  least : IsLeast {S | Closed neighbours seeds S} {a | a ∈ SortedSet.ofList t.found}
  nodup_expanded : t.expanded.Nodup
  mem_expanded_iff : ∀ a, a ∈ t.expanded ↔ a ∈ SortedSet.ofList t.found

theorem Sound.saturates [Ordered α] (hs : Sound neighbours seeds s) (hpending : s.pending = []) :
    Saturates neighbours seeds s where
  least := by
    refine ⟨⟨fun a ha => ?_, fun a ha b hb => ?_⟩, fun S hS a ha => ?_⟩
    · exact SortedSet.mem_ofList.2 (hs.seed_mem a ha)
    · have hexpanded : a ∈ s.expanded := (hs.mem_expanded hpending).2 (SortedSet.mem_ofList.1 ha)
      exact SortedSet.mem_ofList.2 (hs.neighbour_mem a hexpanded b hb)
    · exact (hs.joined a (SortedSet.mem_ofList.1 ha)).induction hS.1 hS.2
  nodup_expanded := hs.nodup_append.of_append_left
  mem_expanded_iff a := by rw [SortedSet.mem_ofList, hs.mem_expanded hpending]

variable [DecidableEq α] [Ordered α]

/-- **Whenever the loop ends, it has computed the least closed set.** -/
theorem saturates_of_ends (h : Ends order neighbours (seeded order seeds) t) :
    Saturates neighbours seeds t := by
  rw [seeded_eq_start] at h
  obtain ⟨hs, hpending⟩ := (sound_start order neighbours seeds).ends h
  exact hs.saturates hpending

/-! ## The end of the loop -/

/-- **The worklist computes the least closed set.**  If all neighbours stay in a finite set, then
the loop ends, in either order.  It leaves one log behind, and a search whose limit admits the
elements of the result has the same log. -/
theorem exists_ends_saturates (order : WorklistOrder) {whole : Set α} (hfinite : whole.Finite)
    (hstays : ∀ a, a ∈ seeds ∨ a ∈ whole → ∀ b ∈ neighbours a, b ∈ whole) :
    ∃ t, Ends order neighbours (seeded order seeds) t ∧
      (∀ t', Ends order neighbours (seeded order seeds) t' → t' = t) ∧
      (∀ limit, t.found.length ≤ limit → explore order neighbours limit seeds = t) ∧
      Saturates neighbours seeds t := by
  have hclosed : Closed neighbours seeds {a | a ∈ seeds ∨ a ∈ whole} :=
    ⟨fun a ha => .inl ha, fun a ha b hb => .inr (hstays a ha b hb)⟩
  have hwhole : ∀ a, Joined neighbours seeds a → a ∈ seeds ++ hfinite.toFinset.toList := by
    intro a ha
    rw [List.mem_append, Finset.mem_toList, hfinite.mem_toFinset]
    exact ha.induction hclosed.1 hclosed.2
  have hpending : (explore order neighbours (seeds ++ hfinite.toFinset.toList).length
      seeds).pending = [] := pending_explore hwhole (Nat.le_refl _)
  have hends : Ends order neighbours (seeded order seeds)
      (explore order neighbours (seeds ++ hfinite.toFinset.toList).length seeds) := by
    rw [seeded_eq_start]
    exact ends_run hpending
  -- a step expands one element, so there are as many steps as elements were found
  obtain ⟨n, -, -, hlast, hlength⟩ := exists_last_step hpending
  refine ⟨_, hends, fun t' h => h.eq hends, fun limit hlimit => hlast limit ?_,
    saturates_of_ends hends⟩
  have hs := sound_explore order neighbours (seeds ++ hfinite.toFinset.toList).length seeds
  rw [hs.perm.length_eq, hpending, List.append_nil] at hlimit
  exact hlength ▸ hlimit

/-- Three neighbours below ten, among them the element itself if it is below ten. -/
def doubled (a : Nat) : List Nat := [a * 2 % 10, a % 10, a * 2 % 10]

/-- One of the seeds is given twice and is not among the neighbours of anything. -/
theorem exists_ends_saturates_doubled :
    (Set.Iio 10 : Set Nat).Finite ∧
      (∀ a : Nat, a ∈ [13, 1, 13] ∨ a ∈ Set.Iio 10 → ∀ b ∈ doubled a, b ∈ Set.Iio 10) ∧
      ∃ t, Ends .lifo doubled (seeded .lifo [13, 1, 13]) t ∧ Saturates doubled [13, 1, 13] t ∧
        t.expanded = [1, 2, 4, 8, 6, 13, 3] ∧
        (SortedSet.ofList t.found).toList = [1, 2, 3, 4, 6, 8, 13] := by
  have hstays : ∀ a : Nat, a ∈ [13, 1, 13] ∨ a ∈ Set.Iio 10 → ∀ b ∈ doubled a, b ∈ Set.Iio 10 := by
    intro a _ b hb
    simp only [doubled, List.mem_cons, List.not_mem_nil, or_false] at hb
    rw [Set.mem_Iio]
    omega
  obtain ⟨t, hends, hunique, -, hs⟩ := exists_ends_saturates .lifo (Set.finite_lt_nat 10) hstays
  have hrun : Ends .lifo doubled (seeded .lifo [13, 1, 13])
      (explore .lifo doubled 7 [13, 1, 13]) := ends_run (by decide)
  refine ⟨Set.finite_lt_nat 10, hstays, t, hends, hs, ?_, ?_⟩
  · rw [← hunique _ hrun]
    decide
  · rw [← hunique _ hrun]
    decide

/-! ## Graphs given by their edges -/

/-- **A search along edges is never cut off:** what it found is the least closed set. -/
theorem saturates_alongEdges (edges : List (α × α)) (seeds : List α) :
    Saturates (fun a => (edges.filter fun e => e.1 == a).map Prod.snd) seeds
      (alongEdges edges seeds) := by
  have htarget : ∀ a, ∀ b ∈ (edges.filter fun e => e.1 == a).map Prod.snd,
      b ∈ edges.map Prod.snd := by
    intro a b hb
    obtain ⟨e, he, rfl⟩ := List.mem_map.1 hb
    exact List.mem_map_of_mem (List.mem_of_mem_filter he)
  have hwhole : ∀ a, Joined (fun a => (edges.filter fun e => e.1 == a).map Prod.snd) seeds a →
      a ∈ seeds ++ edges.map Prod.snd := by
    intro a ha
    rcases ha.mem_or_mem with ha | ⟨b, hb⟩
    · exact List.mem_append_left _ ha
    · exact List.mem_append_right _ (htarget b a hb)
  refine (sound_explore _ _ _ seeds).saturates (pending_explore hwhole ?_)
  rw [List.length_append, List.length_map]

end Search
end Determinization
