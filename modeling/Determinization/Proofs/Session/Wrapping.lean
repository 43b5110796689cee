import Determinization.Proofs.Automaton.DeadState
import Determinization.Proofs.Session.Obtained

/-!
# Determinizing a deterministic machine

A deterministic machine is in one state after each word over its alphabet, so the subset
construction finds sets with one member only.  What it makes is the reachable part of the machine
with every state wrapped in a set of its own (`Automaton.isImage_toDfa`).

What the states are does not matter here.  A composite state gets wrapped like any other, and so
does the dead state: the set that has the dead state for its only member is not empty, hence it is
not the dead state of the result.  There is none, because a set without members would take a word
that leads nowhere (`Dfa.IsWrapped`).

The wrapped machine is deterministic and differs from the machine in names only, so both have the
same canonical form.
-/

namespace Determinization

/-- The set with one member is not the set without members. -/
theorem State.ofMembers_singleton_ne_dead (s : State) : State.ofMembers [s] ≠ .dead := by
  intro h
  have hset : SortedSet.ofList [s] = .empty := composite_injective h
  have hmem : s ∈ SortedSet.ofList [s] := SortedSet.mem_ofList.2 (List.mem_singleton.2 rfl)
  exact SortedSet.not_mem_empty s (hset ▸ hmem)

theorem State.ofMembers_singleton_inj {s t : State} :
    State.ofMembers [s] = State.ofMembers [t] ↔ s = t := by
  rw [ofMembers_eq_ofMembers]
  constructor
  · intro h
    exact List.mem_singleton.1 ((h s).1 (List.mem_singleton.2 rfl))
  · rintro rfl
    exact fun _ => Iff.rfl

theorem State.members_ofMembers_singleton (s : State) : (State.ofMembers [s]).members = [s] :=
  State.members_composite _

namespace Automaton

variable {a : Automaton} {s t u : State} {c : Char} {w : List Char} {order : WorklistOrder}

/-! ## The state after a word -/

section Deterministic

variable (ha : a.Consistent) (hdet : a.Deterministic)

include ha hdet

/-- A word over the alphabet leads somewhere. -/
theorem Deterministic.exists_leads (hs : s ∈ a.states) (hw : a.alphabet.Spells w) :
    ∃ t, a.Leads s w t := by
  induction w generalizing s with
  | nil => exact ⟨s, Leads.stay s⟩
  | cons c w ih =>
      obtain ⟨hc, hw⟩ := Alphabet.spells_cons.1 hw
      obtain ⟨t, ht⟩ := (deterministic_iff.1 hdet).2 s hs c hc
      have hstep : ⟨s, .char c, t⟩ ∈ a.transitions := (ht t).2 rfl
      obtain ⟨u, hu⟩ := ih (ha.target_mem _ hstep) hw
      exact ⟨u, Leads.read hstep hu⟩

/-- A word leads nowhere else. -/
theorem Deterministic.leads_unique (ht : a.Leads s w t) (hu : a.Leads s w u) : t = u := by
  induction w generalizing s with
  | nil =>
      obtain rfl := hdet.leads_nil_iff.1 ht
      exact hdet.leads_nil_iff.1 hu
  | cons c w ih =>
      obtain ⟨p, hp, ht⟩ := hdet.leads_cons_iff.1 ht
      obtain ⟨q, hq, hu⟩ := hdet.leads_cons_iff.1 hu
      obtain rfl := hdet.functional ha hp hq
      exact ih ht hu

/-- **The set after a word has one member.** -/
theorem Deterministic.afterState_eq (ht : a.Leads a.initial w t) :
    a.afterState w = .ofMembers [t] := by
  refine congrArg State.composite (SortedSet.ext fun u => ?_)
  rw [mem_after, SortedSet.mem_ofList, List.mem_singleton]
  constructor
  · exact fun hu => hdet.leads_unique ha hu ht
  · rintro rfl
    exact ht

/-- A transition leads on to the set of its target. -/
theorem Deterministic.afterState_append_singleton (hs : a.Leads a.initial w s)
    (hstep : ⟨s, .char c, t⟩ ∈ a.transitions) : a.afterState (w ++ [c]) = .ofMembers [t] :=
  hdet.afterState_eq ha (hs.append (Leads.read hstep (Leads.stay t)))

/-- The sets after words are the reachable states, wrapped. -/
theorem Deterministic.exists_afterState_iff :
    (∃ w, a.alphabet.Spells w ∧ t = a.afterState w) ↔
      ∃ s, a.Reachable s ∧ t = .ofMembers [s] := by
  constructor
  · rintro ⟨w, hw, rfl⟩
    obtain ⟨s, hs⟩ := hdet.exists_leads ha ha.initial_mem hw
    exact ⟨s, ⟨w, hs⟩, hdet.afterState_eq ha hs⟩
  · rintro ⟨s, ⟨w, hs⟩, rfl⟩
    exact ⟨w, hs.spells ha, (hdet.afterState_eq ha hs).symm⟩

/-! ## The result of the subset construction -/

theorem Deterministic.mem_transitions_toDfa {t : Transition} :
    t ∈ (a.toDfa order).automaton.transitions ↔
      ∃ s x u, a.Reachable s ∧ ⟨s, x, u⟩ ∈ a.transitions ∧
        t = ⟨.ofMembers [s], x, .ofMembers [u]⟩ := by
  rw [Automaton.mem_transitions_toDfa ha]
  constructor
  · rintro ⟨w, c, hw, hc, rfl⟩
    obtain ⟨s, hs⟩ := hdet.exists_leads ha ha.initial_mem hw
    have hdeclared : s ∈ a.states := hs.target_mem ha ha.initial_mem
    obtain ⟨u, hu⟩ := (deterministic_iff.1 hdet).2 s hdeclared c hc
    have hstep : ⟨s, .char c, u⟩ ∈ a.transitions := (hu u).2 rfl
    refine ⟨s, .char c, u, ⟨w, hs⟩, hstep, ?_⟩
    rw [hdet.afterState_eq ha hs, hdet.afterState_append_singleton ha hs hstep]
  · rintro ⟨s, x, u, ⟨w, hs⟩, hstep, rfl⟩
    cases x with
    | epsilon => exact absurd hstep hdet.not_silent
    | char c =>
        have hc : c ∈ a.alphabet := (Alphabet.admits_char _ c).1 (ha.label_mem _ hstep)
        refine ⟨w, c, hs.spells ha, hc, ?_⟩
        rw [hdet.afterState_eq ha hs, hdet.afterState_append_singleton ha hs hstep]

/-- **Determinizing a deterministic automaton wraps each reachable state in a set of its own.** -/
theorem isImage_toDfa (order : WorklistOrder) :
    IsImage a.Reachable (fun s => .ofMembers [s]) a (a.toDfa order).automaton where
  alphabet_eq := rfl
  part_initial := a.reachable_initial
  part_target hs hstep := hs.target hstep
  initial_eq := hdet.afterState_eq ha (Leads.stay a.initial)
  mem_states := by
    intro t
    rw [mem_states_toDfa ha, hdet.exists_afterState_iff ha]
  mem_transitions := hdet.mem_transitions_toDfa ha
  mem_accepting := by
    intro t
    rw [mem_accepting_toDfa, mem_states_toDfa ha, hdet.exists_afterState_iff ha,
      isAcceptingSet_eq_true_iff]
    constructor
    · rintro ⟨⟨s, hs, rfl⟩, m, hm, hacc⟩
      rw [State.members_ofMembers_singleton, List.mem_singleton] at hm
      exact ⟨s, hs, hm ▸ hacc, rfl⟩
    · rintro ⟨s, hs, hacc, rfl⟩
      refine ⟨⟨s, hs, rfl⟩, s, ?_, hacc⟩
      rw [State.members_ofMembers_singleton, List.mem_singleton]

theorem canonicalize_toDfa (order : WorklistOrder) :
    (a.toDfa order).automaton.canonicalize = a.canonicalize := by
  have hname : TellsApart a.Reachable fun s => State.ofMembers [s] :=
    fun _ _ _ _ heq => State.ofMembers_singleton_inj.1 heq
  have hcons := consistent_toDfa ha order
  exact (((isImage_toDfa ha hdet order).isRenaming hname).canonicalize_eq (hdet.functional ha)
    ((deterministic_toDfa ha order).functional hcons) ha hcons).symm

end Deterministic

end Automaton

namespace Dfa

variable {d : Dfa}

/-- The states of the second machine are the reachable states of the first one, each in a set of its
own; none of them is dead; and but for these names the machines are the same. -/
structure IsWrapped (d e : Dfa) : Prop where
  mem_states : ∀ s, s ∈ e.automaton.states ↔ ∃ r, d.automaton.Reachable r ∧ s = .ofMembers [r]
  deadState?_eq_none : e.deadState? = none
  canonicalize_eq : e.canonicalize = d.canonicalize

/-- **Determinizing a deterministic machine changes nothing but names**, in whatever way the machine
is obtained and whatever its states are. -/
theorem isWrapped_toDfa :
    (∀ d : Dfa, d.automaton.Consistent → d.automaton.Deterministic →
      ∀ order, IsWrapped d (d.automaton.toDfa order)) ∧
    ∀ d : Dfa, Machine.Obtained (.dfa d) → ∀ order, IsWrapped d (d.automaton.toDfa order) := by
  have hwrapped : ∀ d : Dfa, d.automaton.Consistent → d.automaton.Deterministic →
      ∀ order, IsWrapped d (d.automaton.toDfa order) := by
    intro d hd hdet order
    have himage := Automaton.isImage_toDfa hd hdet order
    refine ⟨fun s => himage.mem_states, deadState?_eq_none_iff.2 fun hdead => ?_, ?_⟩
    · obtain ⟨s, -, heq⟩ := himage.mem_states.1 hdead
      exact State.ofMembers_singleton_ne_dead s heq.symm
    · rw [canonicalize, canonicalize, Automaton.canonicalize_toDfa hd hdet]
  refine ⟨hwrapped, fun d h => ?_⟩
  have hd : (Machine.dfa d).Sound := h.sound
  exact hwrapped d hd.consistent (hd.deterministic rfl)

/-- The dead state of the example gets wrapped. -/
theorem isWrapped_toDfa_tangle :
    Machine.Obtained (.dfa tangleNumbered) ∧
      IsWrapped tangleNumbered (tangleNumbered.automaton.toDfa .fifo) ∧
      (Automaton.tangle.toDfa .lifo).deadState? = some .dead ∧
      .ofMembers [.dead] ∈ ((Automaton.tangle.toDfa .lifo).automaton.toDfa .lifo).automaton.states ∧
      IsWrapped (Automaton.tangle.toDfa .lifo)
        ((Automaton.tangle.toDfa .lifo).automaton.toDfa .lifo) := by
  have hcons := Automaton.consistent_of_build Automaton.build_tangle
  have hwrapped := isWrapped_toDfa.1 (Automaton.tangle.toDfa .lifo)
    (Automaton.consistent_toDfa hcons .lifo) (Automaton.deterministic_toDfa hcons .lifo) .lifo
  have hdead : State.dead ∈ (Automaton.tangle.toDfa .lifo).automaton.states := by decide +kernel
  refine ⟨obtained_tangleNumbered, isWrapped_toDfa.2 _ obtained_tangleNumbered .fifo,
    by decide +kernel, (hwrapped.mem_states _).2 ⟨.dead, ?_, rfl⟩, hwrapped⟩
  exact Automaton.reachable_of_mem_states_toDfa hcons hdead

end Dfa
end Determinization
