import Determinization.Proofs.Automaton.Consistency
import Determinization.TransitionGraph
import Mathlib.Data.List.Nodup

/-!
# Relations and their graphs

A relation lists its transitions, and what leaves a state is found by going through the list.  The
same relation can be kept as a graph, where what leaves a state is kept with the state.  The two
agree step by step: if a graph represents a relation, then the graph with one more transition
represents the relation with one more transition (`Represents.insert`), and so every list of
transitions between declared states has a graph, which represents its relation
(`exists_represents`).

**A graph shows what its relation shows** (`Represents.views`): all transitions in the same order,
and what leaves a state in the opposite order, because the edges of a node begin with the latest.
-/

namespace Determinization
namespace TransitionGraph

variable {g : TransitionGraph} {states : SortedSet State} {r : Relation} {e : Edge Nat}
  {t : Transition} {i j : Nat} {s : State} {x : Symbol}

/-! ## Representation -/

/-- The graph has these states as nodes and the transitions of the relation as edges, and its nodes
know their edges. -/
structure Represents (g : TransitionGraph) (states : SortedSet State) (r : Relation) : Prop where
  states_eq : g.nodes.map (·.state) = states.toList
  transitions_eq : g.edges.map g.transition? = r.toList.map some
  leaving_lt : ∀ n ∈ g.nodes, ∀ k ∈ n.leaving, k < g.edges.length
  leaving_eq : ∀ i < g.nodes.length, g.leaving i = (g.edges.filter fun e => e.source == i).reverse

theorem transition?_eq_some_iff : g.transition? e = some t ↔
    g.state? e.source = some t.source ∧ e.label = t.label ∧ g.state? e.target = some t.target := by
  obtain ⟨source, label, target⟩ := t
  unfold transition?
  cases g.state? e.source <;> cases g.state? e.target <;> simp [and_comm]

theorem represents_withStates (states : SortedSet State) :
    Represents (withStates states) states .empty where
  states_eq := by simp [withStates, Function.comp_def]
  transitions_eq := rfl
  leaving_lt := by simp [withStates]
  leaving_eq i _ := by
    simp only [withStates, leaving, List.getElem?_map]
    cases states.toList[i]? <;> rfl

namespace Represents

theorem state?_eq (h : Represents g states r) (i : Nat) : g.state? i = states.toList[i]? := by
  rw [← h.states_eq, List.getElem?_map, state?]

/-- No state has two nodes. -/
theorem state?_inj (h : Represents g states r) (hi : g.state? i = some s)
    (hj : g.state? j = some s) : i = j := by
  rw [h.state?_eq] at hi hj
  obtain ⟨hlt, -⟩ := List.getElem?_eq_some_iff.1 hi
  exact (List.getElem?_inj hlt states.nodup).1 (hi.trans hj.symm)

theorem state?_nodeOf? (hi : g.nodeOf? s = some i) : g.state? i = some s := by
  obtain ⟨hlt, hs, -⟩ := List.findIdx?_eq_some_iff_getElem.1 hi
  rw [state?, List.getElem?_eq_getElem hlt, Option.map_some, eq_of_beq hs]

theorem exists_nodeOf? (h : Represents g states r) (hs : s ∈ states) :
    ∃ i, g.nodeOf? s = some i := by
  refine Option.isSome_iff_exists.1 (List.findIdx?_isSome.trans (List.any_eq_true.2 ?_))
  have hmem : s ∈ g.nodes.map (·.state) := by rwa [h.states_eq, SortedSet.mem_toList]
  obtain ⟨n, hn, rfl⟩ := List.mem_map.1 hmem
  exact ⟨n, hn, beq_self_eq_true _⟩

theorem source_eq_iff (h : Represents g states r) (hi : g.nodeOf? s = some i)
    (he : g.transition? e = some t) : e.source = i ↔ t.source = s := by
  obtain ⟨hsource, -, -⟩ := transition?_eq_some_iff.1 he
  constructor
  · rintro rfl
    exact Option.some.inj (hsource.symm.trans (state?_nodeOf? hi))
  · rintro rfl
    exact h.state?_inj hsource (state?_nodeOf? hi)

theorem mem_iff (h : Represents g states r) : t ∈ r ↔ ∃ e ∈ g.edges, g.transition? e = some t := by
  rw [← List.mem_map, h.transitions_eq]
  simp

/-- Between the nodes of a transition there is an edge with its symbol just if the relation has the
transition. -/
theorem any_connecting_iff (h : Represents g states r) (hi : g.nodeOf? t.source = some i)
    (hj : g.nodeOf? t.target = some j) :
    ((g.connecting i j).any fun e => e.label == t.label) = true ↔ t ∈ r := by
  have hlt : i < g.nodes.length := (List.findIdx?_eq_some_iff_getElem.1 hi).1
  simp only [connecting, h.leaving_eq i hlt, List.any_eq_true, List.mem_filter, List.mem_reverse,
    beq_iff_eq, h.mem_iff]
  constructor
  · rintro ⟨e, ⟨⟨he, hsource⟩, htarget⟩, hlabel⟩
    refine ⟨e, he, transition?_eq_some_iff.2 ⟨?_, hlabel, ?_⟩⟩
    · rw [hsource, state?_nodeOf? hi]
    · rw [htarget, state?_nodeOf? hj]
  · rintro ⟨e, he, ht⟩
    obtain ⟨-, hlabel, htarget⟩ := transition?_eq_some_iff.1 ht
    exact ⟨e, ⟨⟨he, (h.source_eq_iff hi ht).2 rfl⟩, h.state?_inj htarget (state?_nodeOf? hj)⟩,
      hlabel⟩

end Represents

/-! ## One more edge -/

theorem state?_addEdge (i : Nat) : (g.addEdge e).state? i = g.state? i := by
  simp only [state?, addEdge, List.getElem?_modify, Option.map_eq_map, Option.map_map]
  congr 1
  funext n
  simp only [Function.comp_apply]
  split <;> rfl

theorem transition?_addEdge (e' : Edge Nat) : (g.addEdge e).transition? e' = g.transition? e' := by
  simp only [transition?, state?_addEdge]

/-- The new edge leaves its node before the others, and other nodes do not change. -/
theorem leaving_addEdge (hlt : ∀ n ∈ g.nodes, ∀ k ∈ n.leaving, k < g.edges.length)
    (hi : i < g.nodes.length) :
    (g.addEdge e).leaving i = if e.source = i then e :: g.leaving i else g.leaving i := by
  have hold : (g.nodes[i].leaving.filterMap fun k => (g.edges ++ [e])[k]?) =
      g.nodes[i].leaving.filterMap fun k => g.edges[k]? := by
    refine List.filterMap_congr fun k hk => List.getElem?_append_left ?_
    exact hlt _ (List.getElem_mem hi) k hk
  simp only [leaving, addEdge, List.getElem?_modify, List.getElem?_eq_getElem hi,
    Option.map_eq_map, Option.map_some]
  split
  · rw [List.filterMap_cons, List.getElem?_concat_length, hold]
  · exact hold

theorem Represents.addEdge (h : Represents g states r) (ht : t ∉ r)
    (he : g.transition? e = some t) : Represents (g.addEdge e) states (r.insert t) where
  states_eq := by
    rw [← h.states_eq]
    refine List.ext_getElem? fun i => ?_
    have hstate : (g.addEdge e).state? i = g.state? i := state?_addEdge i
    rwa [state?, state?, ← List.getElem?_map, ← List.getElem?_map] at hstate
  transitions_eq := by
    have hsame : (g.addEdge e).transition? = g.transition? := funext transition?_addEdge
    rw [hsame, Relation.toList_insert ht, List.map_append, ← h.transitions_eq]
    simp [TransitionGraph.addEdge, he]
  leaving_lt n hn k hk := by
    have hlength : (g.addEdge e).edges.length = g.edges.length + 1 := List.length_append
    rw [hlength]
    obtain ⟨i, hi, rfl⟩ := List.mem_iff_getElem.1 hn
    have hlt : i < g.nodes.length := by simpa [TransitionGraph.addEdge] using hi
    have hold := h.leaving_lt g.nodes[i] (List.getElem_mem hlt)
    simp only [TransitionGraph.addEdge, List.getElem_modify] at hk
    split at hk
    · obtain rfl | hk := List.mem_cons.1 hk
      · exact Nat.lt_succ_self _
      · exact Nat.lt_succ_of_lt (hold k hk)
    · exact Nat.lt_succ_of_lt (hold k hk)
  leaving_eq i hi := by
    have hlt : i < g.nodes.length := by simpa [TransitionGraph.addEdge] using hi
    rw [leaving_addEdge h.leaving_lt hlt, h.leaving_eq i hlt, TransitionGraph.addEdge,
      List.filter_append, List.reverse_append]
    by_cases hsource : e.source = i
    · simp [hsource]
    · simp [hsource]

/-- **One more transition in the graph is one more in the relation.** -/
theorem Represents.insert (h : Represents g states r) (hsource : t.source ∈ states)
    (htarget : t.target ∈ states) :
    ∃ g', g.insert? t = some g' ∧ Represents g' states (r.insert t) := by
  obtain ⟨i, hi⟩ := h.exists_nodeOf? hsource
  obtain ⟨j, hj⟩ := h.exists_nodeOf? htarget
  have hiff := h.any_connecting_iff hi hj
  by_cases ht : t ∈ r
  · have hinsert : g.insert? t = some g := by
      simp only [insert?, hi, hj, Option.bind_eq_bind, Option.bind_some, hiff.2 ht, if_true]
      rfl
    have hsame : r.insert t = r := dif_pos ht
    exact ⟨g, hinsert, by rwa [hsame]⟩
  · have hinsert : g.insert? t = some (g.addEdge ⟨i, t.label, j⟩) := by
      simp only [insert?, hi, hj, Option.bind_eq_bind, Option.bind_some,
        if_neg fun hany => ht (hiff.1 hany)]
      rfl
    refine ⟨_, hinsert, h.addEdge ht (transition?_eq_some_iff.2 ⟨?_, rfl, ?_⟩)⟩
    · exact Represents.state?_nodeOf? hi
    · exact Represents.state?_nodeOf? hj

/-- Every list of transitions between declared states has a graph. -/
theorem exists_represents {l : List Transition}
    (h : ∀ t ∈ l, t.source ∈ states ∧ t.target ∈ states) :
    ∃ g, ofTransitions? states l = some g ∧ Represents g states (.ofList l) := by
  suffices hfold : ∀ (g : TransitionGraph) (r : Relation), Represents g states r →
      ∃ g', l.foldlM insert? g = some g' ∧ Represents g' states (l.foldl Relation.insert r) from
    hfold _ _ (represents_withStates states)
  induction l with
  | nil => exact fun g r hg => ⟨g, rfl, hg⟩
  | cons t l ih =>
      intro g r hg
      obtain ⟨⟨hsource, htarget⟩, hl⟩ := List.forall_mem_cons.1 h
      obtain ⟨g', hinsert, hg'⟩ := hg.insert hsource htarget
      obtain ⟨g'', hfold, hg''⟩ := ih hl g' _ hg'
      refine ⟨g'', ?_, hg''⟩
      rw [List.foldlM_cons, hinsert]
      exact hfold

/-- Every relation that is built has a graph. -/
theorem exists_represents_of_build {alphabet : Alphabet} {l : List Transition}
    (h : Relation.build states alphabet l = .ok r) :
    ∃ g, ofTransitions? states l = some g ∧ Represents g states r := by
  obtain ⟨hdeclared, rfl⟩ := Relation.build_eq_ok_iff.1 h
  exact exists_represents fun t ht => ⟨(hdeclared t ht).1, (hdeclared t ht).2.1⟩

/-! ## What a graph shows -/

/-- What is made of the edges that pass a test is what is made of the transitions that pass it. -/
theorem filterMap_filter_edges {β : Type} {l : List (Edge Nat)}
    (hl : ∀ e ∈ l, ∃ t, g.transition? e = some t) {p : Edge Nat → Bool} {q : Transition → Bool}
    {f : Edge Nat → Option β} {k : Transition → β}
    (h : ∀ e t, g.transition? e = some t → p e = q t ∧ f e = some (k t)) :
    (l.filter p).filterMap f = ((l.filterMap g.transition?).filter q).map k := by
  induction l with
  | nil => rfl
  | cons e l ih =>
      obtain ⟨⟨t, ht⟩, hl⟩ := List.forall_mem_cons.1 hl
      obtain ⟨hp, hf⟩ := h e t ht
      rw [List.filterMap_cons_some ht, List.filter_cons, List.filter_cons, hp]
      cases q t with
      | false => exact ih hl
      | true =>
          rw [if_pos rfl, if_pos rfl, List.filterMap_cons_some hf, List.map_cons, ih hl]

namespace Represents

theorem transitions_eq_toList (h : Represents g states r) : g.transitions = r.toList := by
  have hmap : g.transitions = (g.edges.map g.transition?).filterMap id := by
    rw [List.filterMap_map]
    rfl
  rw [hmap, h.transitions_eq, List.filterMap_map]
  exact List.filterMap_some

theorem exists_transition? (h : Represents g states r) :
    ∀ e ∈ g.edges, ∃ t, g.transition? e = some t := by
  intro e he
  have hmem := List.mem_map_of_mem (f := g.transition?) he
  rw [h.transitions_eq] at hmem
  obtain ⟨t, -, ht⟩ := List.mem_map.1 hmem
  exact ⟨t, ht.symm⟩

/-- A state without a node has no transitions. -/
theorem source_ne_of_nodeOf? (h : Represents g states r) (hs : g.nodeOf? s = none) :
    ∀ t ∈ r.toList, t.source ≠ s := by
  rintro t ht rfl
  obtain ⟨e, -, he⟩ := h.mem_iff.1 ht
  obtain ⟨hsource, -, -⟩ := transition?_eq_some_iff.1 he
  obtain ⟨n, hn, hstate⟩ := Option.map_eq_some_iff.1 hsource
  have hne := List.findIdx?_eq_none_iff.1 hs n (List.mem_of_getElem? hn)
  rw [hstate, beq_self_eq_true] at hne
  cases hne

/-- What is made of the edges of a node is what is made of the transitions of its state, in the
opposite order. -/
theorem filterMap_leaving {β : Type} (h : Represents g states r) (hi : g.nodeOf? s = some i)
    {p : Edge Nat → Bool} {q : Transition → Bool} {f : Edge Nat → Option β} {k : Transition → β}
    (hpq : ∀ e t, g.transition? e = some t → p e = q t ∧ f e = some (k t)) :
    ((g.leaving i).filter p).filterMap f =
      ((r.toList.filter fun t => t.source == s && q t).map k).reverse := by
  have hlt : i < g.nodes.length := (List.findIdx?_eq_some_iff_getElem.1 hi).1
  rw [h.leaving_eq i hlt, List.filter_reverse, List.filter_filter, List.filterMap_reverse,
    ← h.transitions_eq_toList, transitions]
  congr 1
  refine filterMap_filter_edges h.exists_transition? fun e t ht => ?_
  obtain ⟨hp, hf⟩ := hpq e t ht
  refine ⟨?_, hf⟩
  rw [hp, Bool.and_comm, Bool.eq_iff_iff, Bool.and_eq_true, Bool.and_eq_true, beq_iff_eq,
    h.source_eq_iff hi ht]
  simp

theorem targets_eq (h : Represents g states r) (s : State) (x : Symbol) :
    g.targets s x = (r.targets s x).reverse := by
  unfold targets Relation.targets
  cases hi : g.nodeOf? s with
  | none =>
      have hnone : (r.toList.filter fun t => t.source == s && t.label == x) = [] :=
        List.filter_eq_nil_iff.2 fun t ht => by simp [h.source_ne_of_nodeOf? hi t ht]
      rw [hnone]
      rfl
  | some i =>
      refine h.filterMap_leaving hi fun e t ht => ?_
      obtain ⟨-, hlabel, htarget⟩ := transition?_eq_some_iff.1 ht
      exact ⟨by rw [hlabel], htarget⟩

theorem outgoing_eq (h : Represents g states r) (s : State) :
    g.outgoing s = (r.outgoing s).reverse := by
  unfold outgoing Relation.outgoing
  cases hi : g.nodeOf? s with
  | none =>
      have hnone : (r.toList.filter fun t => t.source == s) = [] :=
        List.filter_eq_nil_iff.2 fun t ht => by simp [h.source_ne_of_nodeOf? hi t ht]
      rw [hnone]
      rfl
  | some i =>
      have hall := h.filterMap_leaving hi (p := fun _ => true) (q := fun _ => true)
        (f := fun e => (g.state? e.target).map fun t => (e.label, t))
        (k := fun t => (t.label, t.target)) fun e t ht => by
          obtain ⟨-, hlabel, htarget⟩ := transition?_eq_some_iff.1 ht
          rw [htarget, hlabel]
          exact ⟨rfl, rfl⟩
      simpa using hall

theorem hasEpsilon_eq (h : Represents g states r) : g.hasEpsilon = r.hasEpsilon := by
  rw [hasEpsilon, Relation.hasEpsilon, Bool.eq_iff_iff, List.any_eq_true, List.any_eq_true]
  constructor
  · rintro ⟨e, he, hepsilon⟩
    obtain ⟨t, ht⟩ := h.exists_transition? e he
    obtain ⟨-, hlabel, -⟩ := transition?_eq_some_iff.1 ht
    exact ⟨t, h.mem_iff.2 ⟨e, he, ht⟩, hlabel ▸ hepsilon⟩
  · rintro ⟨t, ht, hepsilon⟩
    obtain ⟨e, he, het⟩ := h.mem_iff.1 ht
    obtain ⟨-, hlabel, -⟩ := transition?_eq_some_iff.1 het
    exact ⟨e, he, by rwa [hlabel]⟩

/-- **A graph shows what its relation shows.** -/
theorem views (h : Represents g states r) :
    g.transitions = r.toList ∧ g.edges.length = r.size ∧ g.hasEpsilon = r.hasEpsilon ∧
      (∀ s x, g.targets s x = (r.targets s x).reverse) ∧
      ∀ s, g.outgoing s = (r.outgoing s).reverse := by
  refine ⟨h.transitions_eq_toList, ?_, h.hasEpsilon_eq, h.targets_eq, h.outgoing_eq⟩
  have hlength := congrArg List.length h.transitions_eq
  rwa [List.length_map, List.length_map] at hlength

end Represents

end TransitionGraph
end Determinization
