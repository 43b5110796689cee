import Determinization.Search
import Mathlib.Data.List.Perm.Subperm
import Mathlib.Data.Nat.Find
import Mathlib.Logic.Relation

/-!
# What a search finds

A search that is given room enough finds exactly what its seeds are joined to by chains of
neighbours, and expands each of these elements once.

## The invariant

`Search.Sound` ties the three lists of a log together.  What was found is what was expanded
followed by what is pending, in some order and without repetitions; the neighbours of everything
expanded were found; and nothing was found that no chain of neighbours joins to a seed.  The
invariant holds before the first step (`sound_start`) and one step keeps it (`Sound.expand`), in
whichever order the worklist hands out its elements.

## Why the limit does not matter

An element that is joined to a seed is found once and so expanded at most once.  If all of them
lie in a list `whole`, then after `whole.length` expansions nothing can be pending
(`pending_explore`).  Once nothing is pending, what was found is closed under neighbours, so it
holds everything that is joined to a seed (`mem_found_explore`), and a larger limit changes
nothing (`explore_eq_of_le`).  The search then took as many steps as it expanded elements
(`exists_last_step`).

The log also shows the way: everything in it but the seeds is a neighbour of something that was
found before (`traced_explore`).
-/

namespace Determinization
namespace Search

open scoped List

variable {α : Type} {order : WorklistOrder} {neighbours : α → List α} {seeds whole : List α}
  {s : Search α} {a b : α} {rest : List α} {limit : Nat}

/-! ## What seeds are joined to -/

/-- A chain of neighbours, of any length, leads from a seed to the element. -/
def Joined (neighbours : α → List α) (seeds : List α) (a : α) : Prop :=
  ∃ b ∈ seeds, Relation.ReflTransGen (fun x y => y ∈ neighbours x) b a

theorem Joined.seed (h : a ∈ seeds) : Joined neighbours seeds a :=
  ⟨a, h, Relation.ReflTransGen.refl⟩

theorem Joined.neighbour (h : Joined neighbours seeds a) (hb : b ∈ neighbours a) :
    Joined neighbours seeds b := by
  obtain ⟨c, hc, hca⟩ := h
  exact ⟨c, hc, hca.tail hb⟩

/-- What is joined to a seed is a seed itself or a neighbour of something joined to a seed. -/
theorem Joined.mem_or_mem (h : Joined neighbours seeds a) :
    a ∈ seeds ∨ ∃ b, a ∈ neighbours b := by
  obtain ⟨b, hb, hba⟩ := h
  cases hba with
  | refl => exact Or.inl hb
  | tail _ hstep => exact Or.inr ⟨_, hstep⟩

/-- What holds of the seeds and passes on to neighbours holds of all that is joined to a seed. -/
theorem Joined.induction {P : α → Prop} (h : Joined neighbours seeds a)
    (hseeds : ∀ b ∈ seeds, P b) (hstep : ∀ b, P b → ∀ c ∈ neighbours b, P c) : P a := by
  obtain ⟨b, hb, hba⟩ := h
  induction hba with
  | refl => exact hseeds b hb
  | tail _ hbc ih => exact hstep _ ih _ hbc

/-! ## The invariant -/

/-- The state of a search that started from the seeds and follows the neighbours. -/
structure Sound (neighbours : α → List α) (seeds : List α) (s : Search α) : Prop where
  nodup : s.found.Nodup
  perm : s.found ~ s.expanded ++ s.pending
  seed_mem : ∀ a ∈ seeds, a ∈ s.found
  neighbour_mem : ∀ a ∈ s.expanded, ∀ b ∈ neighbours a, b ∈ s.found
  joined : ∀ a ∈ s.found, Joined neighbours seeds a

/-- Both orders hand out what was pending and what is new. -/
theorem perm_add (order : WorklistOrder) (new pending : List α) :
    order.add new pending ~ new ++ pending := by
  cases order with
  | fifo => exact List.perm_append_comm
  | lifo => exact (List.reverse_perm new).append_right pending

/-- Nothing is found twice, so no more is expanded and pending than there is in the whole. -/
theorem Sound.length_add_le (hs : Sound neighbours seeds s)
    (hwhole : ∀ a, Joined neighbours seeds a → a ∈ whole) :
    s.expanded.length + s.pending.length ≤ whole.length := by
  have hsub : s.found ⊆ whole := fun a ha => hwhole a (hs.joined a ha)
  have hle := (List.subperm_of_subset hs.nodup hsub).length_le
  rwa [hs.perm.length_eq, List.length_append] at hle

/-- What is pending was found. -/
theorem Sound.mem_found_of_pending (hs : Sound neighbours seeds s) (h : s.pending = a :: rest) :
    a ∈ s.found := by
  rw [hs.perm.mem_iff, h]
  simp

/-- Nothing is expanded twice, and what is pending was not expanded. -/
theorem Sound.nodup_append (hs : Sound neighbours seeds s) :
    (s.expanded ++ s.pending).Nodup := hs.perm.nodup_iff.1 hs.nodup

/-- What is pending was not expanded. -/
theorem Sound.not_mem_expanded (hs : Sound neighbours seeds s) (h : s.pending = a :: rest) :
    a ∉ s.expanded := by
  have hnodup := hs.nodup_append
  rw [h] at hnodup
  exact fun ha => (List.nodup_append.1 hnodup).2.2 a ha a List.mem_cons_self rfl

/-- When nothing is pending, what was expanded is what was found. -/
theorem Sound.mem_expanded (hs : Sound neighbours seeds s) (hpending : s.pending = []) :
    a ∈ s.expanded ↔ a ∈ s.found := by
  rw [hs.perm.mem_iff, hpending, List.append_nil]

/-- When nothing is pending, what was found is what is joined to a seed. -/
theorem Sound.mem_found (hs : Sound neighbours seeds s) (hpending : s.pending = []) :
    a ∈ s.found ↔ Joined neighbours seeds a := by
  refine ⟨hs.joined a, fun h => h.induction hs.seed_mem ?_⟩
  intro b hb c hc
  exact hs.neighbour_mem b ((hs.mem_expanded hpending).2 hb) c hc

/-! ## Steps keep the invariant -/

variable [DecidableEq α]

theorem sound_start (order : WorklistOrder) (neighbours : α → List α) (seeds : List α) :
    Sound neighbours seeds (start order seeds) where
  nodup := nodup_unknown [] seeds
  perm := by
    have h := perm_add order (unknown [] seeds) []
    rw [List.append_nil] at h
    exact h.symm
  seed_mem a ha := mem_unknown.2 ⟨ha, List.not_mem_nil⟩
  neighbour_mem a ha := absurd ha List.not_mem_nil
  joined a ha := Joined.seed (mem_unknown.1 ha).1

/-- **One step keeps the invariant.** -/
theorem Sound.expand (hs : Sound neighbours seeds s) (hpending : s.pending = a :: rest) :
    Sound neighbours seeds (s.expand order neighbours a rest) := by
  have hperm : s.found ~ s.expanded ++ a :: rest := hpending ▸ hs.perm
  have ha : a ∈ s.found := hs.mem_found_of_pending hpending
  have hsplit : s.found ++ unknown s.found (neighbours a) ~
      s.expanded ++ [a] ++ order.add (unknown s.found (neighbours a)) rest := by
    have hadd := perm_add order (unknown s.found (neighbours a)) rest
    calc s.found ++ unknown s.found (neighbours a)
        ~ s.expanded ++ a :: rest ++ unknown s.found (neighbours a) := hperm.append_right _
      _ = s.expanded ++ [a] ++ (rest ++ unknown s.found (neighbours a)) := by simp
      _ ~ s.expanded ++ [a] ++ (unknown s.found (neighbours a) ++ rest) :=
          List.perm_append_comm.append_left _
      _ ~ _ := hadd.symm.append_left _
  refine ⟨?_, hsplit, ?_, ?_, ?_⟩
  · refine List.nodup_append.2 ⟨hs.nodup, nodup_unknown _ _, ?_⟩
    rintro b hb c hc rfl
    exact (mem_unknown.1 hc).2 hb
  · intro b hb
    exact List.mem_append_left _ (hs.seed_mem b hb)
  · intro b hb c hc
    show c ∈ s.found ++ unknown s.found (neighbours a)
    rcases List.mem_append.1 hb with hb | hb
    · exact List.mem_append_left _ (hs.neighbour_mem b hb c hc)
    · rw [List.mem_singleton.1 hb] at hc
      by_cases hfound : c ∈ s.found
      · exact List.mem_append_left _ hfound
      · exact List.mem_append_right _ (mem_unknown.2 ⟨hc, hfound⟩)
  · intro b hb
    rcases List.mem_append.1 hb with hb | hb
    · exact hs.joined b hb
    · exact (hs.joined a ha).neighbour (mem_unknown.1 hb).1

/-- The invariant holds throughout a run. -/
theorem Sound.run (hs : Sound neighbours seeds s) (limit : Nat) :
    Sound neighbours seeds (run order neighbours limit s) := by
  induction limit generalizing s with
  | zero => exact hs
  | succ limit ih =>
      cases hpending : s.pending with
      | nil => rwa [run_of_pending_nil hpending]
      | cons a rest =>
          rw [run_succ_of_pending_cons hpending]
          exact ih (hs.expand hpending)

theorem sound_explore (order : WorklistOrder) (neighbours : α → List α) (limit : Nat)
    (seeds : List α) : Sound neighbours seeds (explore order neighbours limit seeds) :=
  (sound_start order neighbours seeds).run limit

/-! ## The end of a search -/

/-- With room for all elements, a run goes on until nothing is pending. -/
theorem Sound.pending_run (hs : Sound neighbours seeds s)
    (hwhole : ∀ a, Joined neighbours seeds a → a ∈ whole)
    (hlimit : whole.length ≤ s.expanded.length + limit) :
    (Search.run order neighbours limit s).pending = [] := by
  induction limit generalizing s with
  | zero =>
      have hle := hs.length_add_le hwhole
      exact List.length_eq_zero_iff.1 (show s.pending.length = 0 by omega)
  | succ limit ih =>
      cases hpending : s.pending with
      | nil => rwa [run_of_pending_nil hpending]
      | cons a rest =>
          -- the step takes one from the limit and adds one to what is expanded
          rw [run_succ_of_pending_cons hpending]
          refine ih (hs.expand hpending) ?_
          have hlength : (s.expand order neighbours a rest).expanded.length =
              s.expanded.length + 1 := by
            simp [Search.expand]
          omega

theorem pending_explore (hwhole : ∀ a, Joined neighbours seeds a → a ∈ whole)
    (hlimit : whole.length ≤ limit) : (explore order neighbours limit seeds).pending = [] :=
  (sound_start order neighbours seeds).pending_run hwhole (by
    show whole.length ≤ 0 + limit
    omega)

/-- **A search with room enough finds exactly what is joined to a seed.** -/
theorem mem_found_explore (hwhole : ∀ a, Joined neighbours seeds a → a ∈ whole)
    (hlimit : whole.length ≤ limit) :
    a ∈ (explore order neighbours limit seeds).found ↔ Joined neighbours seeds a :=
  (sound_explore order neighbours limit seeds).mem_found (pending_explore hwhole hlimit)

/-- A run that may take more steps goes on where a shorter one stopped. -/
theorem run_add (m n : Nat) (s : Search α) :
    run order neighbours (m + n) s = run order neighbours n (run order neighbours m s) := by
  induction m generalizing s with
  | zero => rw [Nat.zero_add, run_zero]
  | succ m ih =>
      cases hpending : s.pending with
      | nil =>
          rw [run_of_pending_nil hpending, run_of_pending_nil hpending,
            run_of_pending_nil hpending]
      | cons a rest =>
          rw [Nat.add_right_comm, run_succ_of_pending_cons hpending,
            run_succ_of_pending_cons hpending, ih]

/-- A finished search is not changed by a larger limit. -/
theorem explore_eq_of_le {m n : Nat} (hpending : (explore order neighbours m seeds).pending = [])
    (hmn : m ≤ n) : explore order neighbours n seeds = explore order neighbours m seeds := by
  obtain ⟨k, rfl⟩ := Nat.exists_eq_add_of_le hmn
  rw [explore, run_add]
  exact run_of_pending_nil hpending k

/-- As long as something is pending, every step expands one more element. -/
theorem length_expanded_run {n : Nat}
    (h : ∀ m < n, (run order neighbours m s).pending ≠ []) :
    (run order neighbours n s).expanded.length = s.expanded.length + n := by
  induction n with
  | zero => rfl
  | succ n ih =>
      obtain ⟨a, rest, hnext⟩ := List.exists_cons_of_ne_nil (h n (Nat.lt_succ_self n))
      have hlength := ih fun m hm => h m (Nat.lt_succ_of_lt hm)
      rw [run_add, run_succ_of_pending_cons hnext, run_zero, expand, List.length_append, hlength,
        List.length_singleton, Nat.add_assoc]

/-- **A search that ends has a last step.**  Something is pending before it and nothing is pending
after it, and there are as many steps as elements were expanded. -/
theorem exists_last_step (hpending : (explore order neighbours limit seeds).pending = []) :
    ∃ n ≤ limit, (∀ m < n, (explore order neighbours m seeds).pending ≠ []) ∧
      (∀ m, n ≤ m → explore order neighbours m seeds = explore order neighbours limit seeds) ∧
      (explore order neighbours limit seeds).expanded.length = n := by
  have hends : ∃ n, (explore order neighbours n seeds).pending = [] := ⟨limit, hpending⟩
  have hlast := Nat.find_spec hends
  have hle : Nat.find hends ≤ limit := Nat.find_min' hends hpending
  have hbefore : ∀ m < Nat.find hends, (explore order neighbours m seeds).pending ≠ [] :=
    fun m hm => Nat.find_min hends hm
  refine ⟨Nat.find hends, hle, hbefore, fun m hm => ?_, ?_⟩
  · rw [explore_eq_of_le hlast hm, explore_eq_of_le hlast hle]
  · rw [explore_eq_of_le hlast hle]
    exact (length_expanded_run hbefore).trans (Nat.zero_add _)

/-! ## The order of discovery -/

/-- What is found later is listed later. -/
theorem found_prefix_run (limit : Nat) (s : Search α) :
    s.found <+: (run order neighbours limit s).found := by
  induction limit generalizing s with
  | zero => exact List.prefix_rfl
  | succ limit ih =>
      cases hpending : s.pending with
      | nil => exact ⟨[], by rw [run_of_pending_nil hpending, List.append_nil]⟩
      | cons a rest =>
          rw [run_succ_of_pending_cons hpending]
          have hstep : s.found <+: (s.expand order neighbours a rest).found :=
            List.prefix_append _ _
          exact hstep.trans (ih _)

/-- A search from a single seed finds it first. -/
theorem idxOf_found_explore_singleton (order : WorklistOrder) (neighbours : α → List α)
    (limit : Nat) (a : α) : (explore order neighbours limit [a]).found.idxOf a = 0 := by
  have hstart : (start order [a]).found = [a] := by simp [start, unknown]
  have hprefix : [a] <+: (explore order neighbours limit [a]).found :=
    hstart ▸ found_prefix_run limit (start order [a])
  obtain ⟨l, hl⟩ := hprefix
  rw [← hl, List.singleton_append, List.idxOf_cons_self]

/-! ## Where everything was found -/

/-- Everything in the list is a seed, or a neighbour of something that is listed before it. -/
def Traced (neighbours : α → List α) (seeds l : List α) : Prop :=
  ∀ b ∈ l, b ∈ seeds ∨ ∃ a ∈ l, b ∈ neighbours a ∧ l.idxOf a < l.idxOf b

/-- Neighbours of what is listed can be listed after it. -/
theorem Traced.append {l new : List α} (h : Traced neighbours seeds l) (ha : a ∈ l)
    (hnew : ∀ b ∈ new, b ∈ neighbours a ∧ b ∉ l) : Traced neighbours seeds (l ++ new) := by
  have hbefore : ∀ c ∈ l, (l ++ new).idxOf c = l.idxOf c := fun c hc =>
    List.idxOf_append_of_mem hc
  intro b hb
  by_cases hold : b ∈ l
  · rcases h b hold with hseed | ⟨c, hc, hbc, hlt⟩
    · exact Or.inl hseed
    · refine Or.inr ⟨c, List.mem_append_left _ hc, hbc, ?_⟩
      rw [hbefore c hc, hbefore b hold]
      exact hlt
  · rcases List.mem_append.1 hb with hb | hb
    · exact absurd hb hold
    · refine Or.inr ⟨a, List.mem_append_left _ ha, (hnew b hb).1, ?_⟩
      have hposition : l.idxOf a < l.length := List.idxOf_lt_length_of_mem ha
      rw [hbefore a ha, List.idxOf_append, if_neg hold]
      omega

/-- **Whatever is found but the seeds was found from something that was found before it.** -/
theorem traced_run (hs : Sound neighbours seeds s) (h : Traced neighbours seeds s.found)
    (limit : Nat) : Traced neighbours seeds (run order neighbours limit s).found := by
  induction limit generalizing s with
  | zero => exact h
  | succ limit ih =>
      cases hpending : s.pending with
      | nil => rwa [run_of_pending_nil hpending]
      | cons a rest =>
          rw [run_succ_of_pending_cons hpending]
          refine ih (hs.expand hpending) ?_
          exact h.append (hs.mem_found_of_pending hpending) fun b hb => mem_unknown.1 hb

theorem traced_explore (order : WorklistOrder) (neighbours : α → List α) (limit : Nat)
    (seeds : List α) : Traced neighbours seeds (explore order neighbours limit seeds).found :=
  traced_run (sound_start order neighbours seeds)
    (fun _ hb => Or.inl (mem_unknown.1 hb).1) limit

end Search
end Determinization
