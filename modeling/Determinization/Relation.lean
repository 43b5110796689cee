import Determinization.Error

/-!
# Transition relations

A relation is a set of transitions that remembers in which order they were first given.  The order
shows in one place only: when a machine is found not to be deterministic, the error names the first
transition on the empty word.  Everything that is printed is sorted, and two relations are equal
when they have the same transitions (`Relation.same`), in whatever order.

A relation can also be kept as a graph, in which every state knows its moves.  Such graphs are in
`Determinization.TransitionGraph`, and show the same as the relation does.
-/

namespace Determinization

/-- A list of transitions without repetitions. -/
structure Relation where
  /-- The transitions, in the order of their first occurrences. -/
  toList : List Transition
  nodup : toList.Nodup

namespace Relation

instance : Membership Transition Relation where
  mem r t := t ∈ r.toList

instance (t : Transition) (r : Relation) : Decidable (t ∈ r) :=
  inferInstanceAs (Decidable (t ∈ r.toList))

/-- The relation without transitions. -/
def empty : Relation := ⟨[], List.nodup_nil⟩

/-- The relation with one more transition, listed last unless it was listed before. -/
def insert (r : Relation) (t : Transition) : Relation :=
  if h : t ∈ r.toList then r
  else ⟨r.toList ++ [t], by
    rw [List.nodup_append]
    refine ⟨r.nodup, by simp, ?_⟩
    intro a ha b hb hab
    exact h (List.mem_singleton.1 hb ▸ hab ▸ ha)⟩

/-- The relation of the transitions in a list; repetitions count at their first occurrence. -/
def ofList (l : List Transition) : Relation := l.foldl insert empty

/-- The transitions from every source on every character to the target that a table gives for them,
in the order of sources and characters. -/
def ofTable (sources : SortedSet State) (characters : Alphabet) (target : State → Char → State) :
    Relation where
  toList := sources.toList.flatMap fun s =>
    characters.toList.map fun c => ⟨s, .char c, target s c⟩
  nodup := by
    rw [List.Nodup, List.pairwise_flatMap]
    constructor
    · intro s _
      rw [List.pairwise_map]
      refine characters.nodup.imp ?_
      intro c c' hne h
      exact hne (Symbol.char.inj (congrArg Edge.label h))
    · refine sources.nodup.imp ?_
      intro s s' hne t ht t' ht' h
      obtain ⟨c, -, rfl⟩ := List.mem_map.1 ht
      obtain ⟨c', -, rfl⟩ := List.mem_map.1 ht'
      exact hne (congrArg Edge.source h)

/-- The transitions that pass a test, in the same order. -/
def filter (p : Transition → Bool) (r : Relation) : Relation :=
  ⟨r.toList.filter p, r.nodup.sublist List.filter_sublist⟩

/-- The number of transitions. -/
def size (r : Relation) : Nat := r.toList.length

/-- The transitions as a set. -/
def sorted (r : Relation) : SortedSet Transition := SortedSet.ofList r.toList

/-- Do two relations have the same transitions?  Relations of different sizes are told apart
without sorting them. -/
def same (r r' : Relation) : Bool := r.size == r'.size && r.sorted == r'.sorted

/-- The targets of the moves from a state on a symbol. -/
def targets (r : Relation) (s : State) (x : Symbol) : List State :=
  (r.toList.filter fun t => t.source == s && t.label == x).map Edge.target

/-- The moves from a state, each with its symbol and its target. -/
def outgoing (r : Relation) (s : State) : List (Symbol × State) :=
  (r.toList.filter fun t => t.source == s).map fun t => (t.label, t.target)

/-- Is there a transition on the empty word? -/
def hasEpsilon (r : Relation) : Bool := r.toList.any fun t => t.label.isEpsilon

/-! ## Membership -/

@[simp] theorem mem_toList {t : Transition} {r : Relation} : t ∈ r.toList ↔ t ∈ r := Iff.rfl

@[simp] theorem not_mem_empty (t : Transition) : t ∉ empty := List.not_mem_nil

theorem mem_insert {t u : Transition} {r : Relation} : t ∈ r.insert u ↔ t ∈ r ∨ t = u := by
  unfold insert
  split
  · rename_i h
    constructor
    · exact .inl
    · rintro (ht | rfl)
      · exact ht
      · exact h
  · show t ∈ r.toList ++ [u] ↔ t ∈ r ∨ t = u
    simp

@[simp] theorem mem_ofList {t : Transition} {l : List Transition} : t ∈ ofList l ↔ t ∈ l := by
  suffices h : ∀ r : Relation, t ∈ l.foldl insert r ↔ t ∈ r ∨ t ∈ l by
    rw [ofList, h]
    exact or_iff_right (not_mem_empty t)
  induction l with
  | nil => simp
  | cons u l ih =>
      intro r
      rw [List.foldl_cons, ih, mem_insert, List.mem_cons, or_assoc]

theorem toList_insert {r : Relation} {t : Transition} (h : t ∉ r) :
    (r.insert t).toList = r.toList ++ [t] := by
  have ht : t ∉ r.toList := h
  rw [insert, dif_neg ht]

/-- A list without repetitions is kept as it is. -/
theorem toList_ofList {l : List Transition} (h : l.Nodup) : (ofList l).toList = l := by
  suffices hfold : ∀ r : Relation, (r.toList ++ l).Nodup →
      (l.foldl insert r).toList = r.toList ++ l from hfold empty h
  clear h
  induction l with
  | nil =>
      intro r _
      rw [List.foldl_nil, List.append_nil]
  | cons t l ih =>
      intro r hr
      have ht : t ∉ r := fun hmem =>
        (List.nodup_append.1 hr).2.2 t hmem t List.mem_cons_self rfl
      have hnext : (r.insert t).toList ++ l = r.toList ++ t :: l := by
        rw [toList_insert ht, List.append_assoc, List.singleton_append]
      rw [List.foldl_cons, ih _ (hnext ▸ hr), hnext]

/-- The list of a relation has that relation. -/
@[simp] theorem ofList_toList (r : Relation) : ofList r.toList = r := by
  obtain ⟨l, hl⟩ := r
  have h := toList_ofList hl
  cases hr : ofList l with
  | mk l' hl' =>
      rw [hr] at h
      subst h
      rfl

theorem mem_targets {r : Relation} {s t : State} {x : Symbol} :
    t ∈ r.targets s x ↔ ⟨s, x, t⟩ ∈ r := by
  simp only [targets, List.mem_map, List.mem_filter, Bool.and_eq_true, beq_iff_eq, mem_toList]
  constructor
  · rintro ⟨⟨_, _, _⟩, ⟨h, rfl, rfl⟩, rfl⟩
    exact h
  · intro h
    exact ⟨_, ⟨h, rfl, rfl⟩, rfl⟩

theorem mem_outgoing {r : Relation} {s t : State} {x : Symbol} :
    (x, t) ∈ r.outgoing s ↔ ⟨s, x, t⟩ ∈ r := by
  simp only [outgoing, List.mem_map, List.mem_filter, beq_iff_eq, mem_toList, Prod.mk.injEq]
  constructor
  · rintro ⟨⟨_, _, _⟩, ⟨h, rfl⟩, rfl, rfl⟩
    exact h
  · intro h
    exact ⟨_, ⟨h, rfl⟩, rfl, rfl⟩

theorem mem_ofTable {sources : SortedSet State} {characters : Alphabet}
    {target : State → Char → State} {t : Transition} :
    t ∈ ofTable sources characters target ↔
      t.source ∈ sources ∧ ∃ c ∈ characters, t.label = .char c ∧ t.target = target t.source c := by
  rw [← mem_toList]
  simp only [ofTable, List.mem_flatMap, List.mem_map, SortedSet.mem_toList]
  constructor
  · rintro ⟨s, hs, c, hc, rfl⟩
    exact ⟨hs, c, hc, rfl, rfl⟩
  · obtain ⟨s, x, u⟩ := t
    rintro ⟨hs, c, hc, hx, hu⟩
    exact ⟨s, hs, c, hc, by simp_all⟩

/-- The targets on a symbol are found among all moves from the state. -/
theorem targets_eq_filter_outgoing (r : Relation) (s : State) (x : Symbol) :
    r.targets s x = ((r.outgoing s).filter fun m => m.1 == x).map Prod.snd := by
  simp only [targets, outgoing, List.filter_map, List.map_map, List.filter_filter]
  congr 1
  refine List.filter_congr fun t _ => ?_
  simp [Bool.and_comm]

/-! ## Checking transitions -/

/-- The first thing wrong with a transition: its source, its target, or its label. -/
def fault? (states : SortedSet State) (alphabet : Alphabet) (t : Transition) : Option Error :=
  if t.source ∉ states then some (.undeclaredState .source t.source)
  else if t.target ∉ states then some (.undeclaredState .target t.target)
  else if alphabet.admits t.label = false then some (.undeclaredSymbol t)
  else none

/-- The relation of a list of transitions between declared states on declared symbols, or the first
thing wrong with the first transition that is not such. -/
def build (states : SortedSet State) (alphabet : Alphabet) (l : List Transition) :
    Except Error Relation :=
  match l.findSome? (fault? states alphabet) with
  | some e => .error e
  | none => .ok (ofList l)

end Relation
end Determinization
