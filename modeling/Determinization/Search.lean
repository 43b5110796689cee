/-!
# Searching from a seed

Closures, reachability, the subset construction and the canonical numbering are the same search.
It starts from some seeds, keeps a list of elements that were found but not yet expanded, takes one
from the list, and adds to it those neighbours of the element that were not found before.

The search keeps a log.  `found` lists what was found in the order of discovery, which is the order
of the canonical numbering, and `expanded` lists the elements in the order in which their neighbours
were asked for.

## Why there is a limit

The neighbours may come from an infinite type, so the search is told how many elements it may
expand.  All its callers search a finite universe and give its size; an element is found once and
expanded once, so the limit is never what ends their search.
-/

namespace Determinization

/-- Which pending element is expanded next: the one found first, or the one found last. -/
inductive WorklistOrder where
  | fifo
  | lifo
  deriving DecidableEq

/-- The elements that wait, the next one first, after new ones were found. -/
def WorklistOrder.add {α : Type} : WorklistOrder → List α → List α → List α
  | fifo, new, pending => pending ++ new
  | lifo, new, pending => new.reverse ++ pending

/-- The log of a search. -/
structure Search (α : Type) where
  /-- All elements found, in the order of discovery. -/
  found : List α
  /-- The elements whose neighbours were asked for, in that order. -/
  expanded : List α
  /-- The elements found and not yet expanded, the next one first. -/
  pending : List α

namespace Search

variable {α : Type} [DecidableEq α]

/-- The elements of a list that are not known, in order and without repetitions. -/
def unknown (known : List α) : List α → List α
  | [] => []
  | a :: l => if a ∈ known then unknown known l else a :: unknown (a :: known) l

/-- The search before its first step. -/
def start (order : WorklistOrder) (seeds : List α) : Search α :=
  let new := unknown [] seeds
  ⟨new, [], order.add new []⟩

/-- The search with the element `a` expanded, where `rest` is what else is pending. -/
def expand (order : WorklistOrder) (neighbours : α → List α) (s : Search α) (a : α)
    (rest : List α) : Search α :=
  let new := unknown s.found (neighbours a)
  ⟨s.found ++ new, s.expanded ++ [a], order.add new rest⟩

/-- The search after at most so many more elements are expanded. -/
def run (order : WorklistOrder) (neighbours : α → List α) : Nat → Search α → Search α
  | 0, s => s
  | limit + 1, s =>
      match s.pending with
      | [] => s
      | a :: rest => run order neighbours limit (s.expand order neighbours a rest)

/-- The search from the seeds through the neighbours. -/
def explore (order : WorklistOrder) (neighbours : α → List α) (limit : Nat) (seeds : List α) :
    Search α :=
  run order neighbours limit (start order seeds)

/-- The elements that a chain of edges joins to a seed, each with the edges it was asked for: a
search of a graph given by the list of its edges. -/
def alongEdges (edges : List (α × α)) (seeds : List α) : Search α :=
  explore .lifo (fun a => (edges.filter fun e => e.1 == a).map Prod.snd)
    (seeds.length + edges.length) seeds

/-! ## One step -/

theorem mem_unknown {a : α} {known l : List α} : a ∈ unknown known l ↔ a ∈ l ∧ a ∉ known := by
  induction l generalizing known with
  | nil => simp [unknown]
  | cons b l ih =>
      unfold unknown
      split
      · rename_i hb
        rw [ih, List.mem_cons]
        constructor
        · rintro ⟨hl, hk⟩
          exact ⟨.inr hl, hk⟩
        · rintro ⟨rfl | hl, hk⟩
          · exact absurd hb hk
          · exact ⟨hl, hk⟩
      · rename_i hb
        simp only [List.mem_cons, ih, not_or]
        constructor
        · rintro (rfl | ⟨hl, -, hk⟩)
          · exact ⟨.inl rfl, hb⟩
          · exact ⟨.inr hl, hk⟩
        · rintro ⟨rfl | hl, hk⟩
          · exact .inl rfl
          · by_cases hab : a = b
            · exact .inl hab
            · exact .inr ⟨hl, hab, hk⟩

theorem nodup_unknown (known l : List α) : (unknown known l).Nodup := by
  induction l generalizing known with
  | nil => simp [unknown]
  | cons b l ih =>
      unfold unknown
      split
      · exact ih known
      · refine List.nodup_cons.2 ⟨?_, ih (b :: known)⟩
        rw [mem_unknown]
        simp

/-- Only the members of what is known count. -/
theorem unknown_congr {known known' : List α} (h : ∀ a, a ∈ known ↔ a ∈ known') (l : List α) :
    unknown known l = unknown known' l := by
  induction l generalizing known known' with
  | nil => rfl
  | cons b l ih =>
      by_cases hb : b ∈ known
      · rw [unknown, unknown, if_pos hb, if_pos ((h b).1 hb)]
        exact ih h
      · rw [unknown, unknown, if_neg hb, if_neg fun hb' => hb ((h b).2 hb')]
        refine congrArg (b :: ·) (ih fun a => ?_)
        rw [List.mem_cons, List.mem_cons, h]

/-- What is new in a list after another one is what neither the latter nor what is known holds. -/
theorem unknown_append (known l m : List α) :
    unknown known (l ++ m) = unknown known l ++ unknown (known ++ unknown known l) m := by
  induction l generalizing known with
  | nil => rw [unknown, List.nil_append, List.nil_append, List.append_nil]
  | cons b l ih =>
      rw [List.cons_append, unknown, unknown]
      by_cases hb : b ∈ known
      · rw [if_pos hb, if_pos hb]
        exact ih known
      · rw [if_neg hb, if_neg hb, ih, List.cons_append]
        refine congrArg (fun new => b :: (unknown (b :: known) l ++ new)) (unknown_congr ?_ m)
        intro a
        simp only [List.mem_append, List.mem_cons]
        exact or_left_comm

theorem unknown_sublist (known l : List α) : (unknown known l).Sublist l := by
  induction l generalizing known with
  | nil => exact List.Sublist.slnil
  | cons b l ih =>
      unfold unknown
      split
      · exact (ih known).cons b
      · exact (ih (b :: known)).cons_cons b

@[simp] theorem run_zero (order : WorklistOrder) (neighbours : α → List α) (s : Search α) :
    run order neighbours 0 s = s := rfl

theorem run_of_pending_nil {order : WorklistOrder} {neighbours : α → List α} {s : Search α}
    (h : s.pending = []) (limit : Nat) : run order neighbours limit s = s := by
  cases limit with
  | zero => rfl
  | succ n => rw [run, h]

theorem run_succ_of_pending_cons {order : WorklistOrder} {neighbours : α → List α}
    {s : Search α} {a : α} {rest : List α} (h : s.pending = a :: rest) (limit : Nat) :
    run order neighbours (limit + 1) s =
      run order neighbours limit (s.expand order neighbours a rest) := by
  rw [run, h]

end Search
end Determinization
