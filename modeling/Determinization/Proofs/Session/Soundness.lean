import Determinization.Proofs.Guarded.Transformations
import Determinization.Proofs.Guarded.Writing
import Determinization.Proofs.Session.Changes

/-!
# Sound machines

A machine is sound if its parts fit together and if it is deterministic in case it is taken for
deterministic.  What a blueprint makes is sound, because it is checked (`Blueprint.sound`).  The
changes of a machine are not checked.  They keep it sound nevertheless: the subset construction
makes a deterministic automaton of a consistent one, and an image is as consistent and as
deterministic as the automaton that it is an image of (`Change.sound`).  So whatever becomes of a
machine is sound (`Becomes.sound`).

What changes rely on without checking it is the soundness of the machine and nothing else, up to the
number of states.  With all of their checks turned on they raise no alarm (`Change.guarded_eq`),
and neither do the ways in which a machine is put out (`sound_of_becomes`).
-/

namespace Determinization

/-- The parts of the machine fit together, and it is deterministic if it is said to be. -/
structure Machine.Sound (m : Machine) : Prop where
  consistent : m.automaton.Consistent
  nodup : m.automaton.transitions.toList.Nodup
  deterministic : m.isDfa = true → m.automaton.Deterministic

namespace Machine

open Automaton (IsImage TellsApart)

theorem sound_nfa {a : Automaton} (ha : a.Consistent) : (nfa a).Sound :=
  ⟨ha, a.transitions.nodup, fun h => Bool.noConfusion h⟩

theorem sound_dfa {d : Dfa} (hd : d.automaton.Consistent) (hdet : d.automaton.Deterministic) :
    (dfa d).Sound := ⟨hd, d.automaton.transitions.nodup, fun _ => hdet⟩

/-- An image of a sound machine is sound, if in case it is taken for deterministic the machine was
deterministic and no two states share a name. -/
theorem Sound.of_isImage {m n : Machine} (hm : m.Sound) {part : State → Prop}
    {name : State → State} (h : IsImage part name m.automaton n.automaton)
    (hdeclared : ∀ {s}, part s → s ∈ m.automaton.states)
    (hname : n.isDfa = true → TellsApart part name)
    (hdet : n.isDfa = true → m.automaton.Deterministic) : n.Sound where
  consistent := h.consistent hm.consistent
  nodup := n.automaton.transitions.nodup
  deterministic hdfa := h.deterministic (hname hdfa) (hdet hdfa) hdeclared

end Machine

/-- What is found to be deterministic is what was built. -/
theorem Dfa.sound_of_build {states : List State} {alphabet : Alphabet}
    {transitions : List Transition} {initial : State} {accepting : List State} {d : Dfa}
    (h : build states alphabet transitions initial accepting = .ok d) :
    (Machine.dfa d).Sound := by
  rw [build] at h
  split at h
  · cases h
  · rename_i a hbuild
    obtain ⟨hdet, rfl⟩ := ofAutomaton_eq_ok_iff.1 h
    exact Machine.sound_dfa (Automaton.consistent_of_build hbuild) hdet

/-- **What a blueprint makes is sound.** -/
theorem Blueprint.sound {b : Blueprint} {m : Machine} (h : b.machine = .ok m) : m.Sound := by
  cases b with
  | text text =>
      obtain ⟨a, hparse, rfl⟩ := exists_of_map_eq_ok h
      exact Machine.sound_nfa (Automaton.consistent_of_parse hparse)
  | parts deterministic states alphabet transitions initial accepting =>
      cases deterministic with
      | false =>
          obtain ⟨a, hbuild, rfl⟩ := exists_of_map_eq_ok h
          exact Machine.sound_nfa (Automaton.consistent_of_build hbuild)
      | true =>
          obtain ⟨d, hbuild, rfl⟩ := exists_of_map_eq_ok h
          exact Dfa.sound_of_build hbuild

namespace Session

variable {m n : Machine} {c : Change}

/-! ## Changes keep machines sound -/

/-- **A change keeps the machine sound.** -/
theorem Change.sound (hm : m.Sound) (hsize : m.automaton.states.size < 2 ^ 32)
    (h : Change.apply m c = .ok n) : n.Sound := by
  cases Change.outcome hm.consistent hsize h with
  | determinized order =>
      exact Machine.sound_dfa (Automaton.consistent_toDfa hm.consistent order)
        (Automaton.deterministic_toDfa hm.consistent order)
  | image himage hname hdeclared hkind =>
      exact hm.of_isImage himage hdeclared (fun _ => hname) fun hdfa =>
        (hkind hdfa).elim hm.deterministic id

/-- **Any number of changes keep the machine sound.** -/
theorem Becomes.sound (hm : m.Sound) (h : Becomes m n) : n.Sound := by
  induction h with
  | refl => exact hm
  | tail _ hstep ih =>
      obtain ⟨hsize, c, hc⟩ := hstep
      exact Change.sound ih hsize hc

/-! ## Changes under guard -/

/-- The automaton as a machine of the same kind as another one. -/
def guardedLike (m : Machine) (a : Automaton) : Except Alarm Machine :=
  if m.isDfa then do
    let d ← a.trust
    return .dfa d
  else return .nfa a

theorem guardedLike_eq (hn : n.Sound) (hkind : n.isDfa = m.isDfa) :
    guardedLike m n.automaton = .ok n := by
  rw [guardedLike, ← hkind]
  cases n with
  | nfa a => rfl
  | dfa d =>
      have htrust : d.automaton.trust = .ok d := Automaton.trust_eq (hn.deterministic rfl)
      rw [Machine.automaton, htrust]
      rfl

/-- The machine after a change, or why there is none; all that the change relies on is checked. -/
def Change.guarded (m : Machine) : Change → Except Alarm (Except Error Machine)
  | .none => return .ok m
  | .toDfa order => do
      let d ← m.automaton.guardedToDfa order
      return .ok (.dfa d)
  | .canonicalize => do
      let a ← m.automaton.guardedCanonicalize
      let n ← guardedLike m a
      return .ok n
  | .removeUnreachable => do
      let a ← m.automaton.guardedRemoveUnreachable
      let n ← guardedLike m a
      return .ok n
  | .asDfa => return (Dfa.ofAutomaton m.automaton).map .dfa
  | .asNfa => return .ok (.nfa m.automaton)
  | .reparse => do
      let text ← m.automaton.guardedEncode
      return (Automaton.parse text).map .nfa

/-- **A change of a sound machine raises no alarm.** -/
theorem Change.guarded_eq (hm : m.Sound) (hsize : m.automaton.states.size < 2 ^ 32) (c : Change) :
    c.guarded m = .ok (c.apply m) := by
  cases c with
  | none => rfl
  | toDfa order =>
      rw [guarded, Automaton.guardedToDfa_eq hm.consistent]
      rfl
  | canonicalize =>
      have hn : m.canonicalize.Sound := Change.sound (c := .canonicalize) hm hsize rfl
      have hlike := guardedLike_eq hn m.isDfa_canonicalize
      rw [m.automaton_canonicalize] at hlike
      rw [guarded, Automaton.guardedCanonicalize_eq hm.consistent hsize, ok_bind, hlike]
      rfl
  | removeUnreachable =>
      have hn : m.removeUnreachable.Sound := Change.sound (c := .removeUnreachable) hm hsize rfl
      have hlike := guardedLike_eq hn m.isDfa_removeUnreachable
      rw [m.automaton_removeUnreachable] at hlike
      rw [guarded, Automaton.guardedRemoveUnreachable_eq hm.consistent, ok_bind, hlike]
      rfl
  | asDfa => rfl
  | asNfa => rfl
  | reparse =>
      rw [guarded, Automaton.guardedEncode_eq hm.consistent]
      rfl

/-- **Machines are sound, and nothing that is done with them raises an alarm.**  This is so for
every machine that can be made and for everything that changes make of it.  Filling a relation
raises no alarm even if the machine cannot be made. -/
theorem sound_of_becomes :
    (∀ states alphabet l, Relation.guardedBuild states alphabet l =
      .ok (Relation.build states alphabet l)) ∧
    ∀ (b : Blueprint) (m n : Machine), b.machine = .ok m → Becomes m n →
      n.Sound ∧ (∀ d, n = .dfa d → d.checkTotal = .ok ()) ∧
      n.automaton.guardedEncode = .ok n.automaton.encode ∧
      n.automaton.guardedDrawing = .ok n.automaton.drawing ∧
      (n.automaton.states.size < 2 ^ 32 → ∀ c : Change, c.guarded n = .ok (c.apply n)) := by
  refine ⟨Relation.guardedBuild_eq, fun b m n hb h => ?_⟩
  have hn : n.Sound := h.sound (Blueprint.sound hb)
  refine ⟨hn, ?_, Automaton.guardedEncode_eq hn.consistent,
    Automaton.guardedDrawing_eq hn.consistent, fun hsize => Change.guarded_eq hn hsize⟩
  rintro d rfl
  exact Dfa.checkTotal_eq_ok_iff.2 (hn.deterministic rfl)

/-- The parts of the example. -/
def tangleBlueprint : Blueprint :=
  .parts false [.simple 0, .dead, .ofMembers [.simple 3, .dead]] ['b', 'a']
    [⟨.simple 0, .epsilon, .dead⟩, ⟨.dead, .epsilon, .simple 0⟩,
      ⟨.dead, .char 'a', .ofMembers [.simple 3, .dead]⟩,
      ⟨.ofMembers [.simple 3, .dead], .char 'b', .simple 0⟩]
    (.simple 0) [.ofMembers [.simple 3, .dead]]

/-- The example read back, determinized and pruned. -/
def tanglePruned : Dfa := (Automaton.tangle.written.toDfa .lifo).removeUnreachable

theorem sound_of_becomes_tangle :
    tangleBlueprint.machine = .ok (.nfa Automaton.tangle) ∧
      Becomes (.nfa Automaton.tangle) (.dfa tanglePruned) ∧
      tanglePruned.automaton.states.size < 2 ^ 32 ∧ (Machine.dfa tanglePruned).Sound ∧
      tanglePruned.checkTotal = .ok () ∧
      ∀ c : Change, c.guarded (.dfa tanglePruned) = .ok (c.apply (.dfa tanglePruned)) := by
  have hmachine : tangleBlueprint.machine = .ok (.nfa Automaton.tangle) := rfl
  have hsize : tanglePruned.automaton.states.size < 2 ^ 32 := by decide +kernel
  obtain ⟨hsound, htotal, -, -, hguarded⟩ := sound_of_becomes.2 _ _ _ hmachine becomes_tangle
  exact ⟨hmachine, becomes_tangle, hsize, hsound, htotal _ rfl, hguarded hsize⟩

end Session
end Determinization
