import Determinization.Proofs.Encoding.Conversion
import Determinization.Session

/-!
# Changes of a machine

A session may change its machine in any order and any number of times: determinize it, number or
prune its states, forget or find out that it is deterministic, write it and read it back.

## What a change can do

A change either determinizes the machine or makes an image of it in which no two states share a
name, and a machine is said to be deterministic afterwards only if it was before or if that was
checked (`Change.outcome`).  What changes keep is proved from this.

In particular, each change leaves the automaton consistent and alike to what it was
(`Change.keeps`), and so does every sequence of them (`Becomes.keeps`).  Automata that are alike
have the same deterministic automaton with numbers for states, so the encoding of the latter is an
invariant of all changes (`encode_toDfa_of_becomes`).

The changes that number states need enough numbers.  That is asked of every machine on the way, and
of nothing else.
-/

open Relation (ReflTransGen)

namespace Determinization

theorem Machine.automaton_canonicalize (m : Machine) :
    m.canonicalize.automaton = m.automaton.canonicalize := by
  cases m with
  | nfa a => rfl
  | dfa d => rfl

theorem Machine.automaton_removeUnreachable (m : Machine) :
    m.removeUnreachable.automaton = m.automaton.removeUnreachable := by
  cases m with
  | nfa a => rfl
  | dfa d => rfl

theorem Machine.isDfa_canonicalize (m : Machine) : m.canonicalize.isDfa = m.isDfa := by
  cases m with
  | nfa a => rfl
  | dfa d => rfl

theorem Machine.isDfa_removeUnreachable (m : Machine) : m.removeUnreachable.isDfa = m.isDfa := by
  cases m with
  | nfa a => rfl
  | dfa d => rfl

/-- A result that was wrapped came from a result. -/
theorem exists_of_map_eq_ok {ε α β : Type} {f : α → β} {x : Except ε α} {b : β}
    (h : x.map f = .ok b) : ∃ a, x = .ok a ∧ b = f a := by
  cases x with
  | error e => cases h
  | ok a => exact ⟨a, rfl, (Except.ok.inj h).symm⟩

namespace Session

open Automaton (Alike IsImage TellsApart convert_of_parse)

variable {m n k : Machine} {c : Change}

/-- One change makes the second machine out of the first, which has not too many states. -/
def ChangesTo (m n : Machine) : Prop :=
  m.automaton.states.size < 2 ^ 32 ∧ ∃ c, Change.apply m c = .ok n

/-- Changes make the second machine out of the first. -/
def Becomes : Machine → Machine → Prop := ReflTransGen ChangesTo

/-- Only the check for determinism can fail. -/
theorem Change.exists_apply (hm : m.automaton.Consistent) (hc : c ≠ .asDfa) :
    ∃ n, Change.apply m c = .ok n := by
  cases c with
  | none => exact ⟨_, rfl⟩
  | toDfa order => exact ⟨_, rfl⟩
  | canonicalize => exact ⟨_, rfl⟩
  | removeUnreachable => exact ⟨_, rfl⟩
  | asDfa => exact absurd rfl hc
  | asNfa => exact ⟨_, rfl⟩
  | reparse =>
      rw [Change.apply, Automaton.parse_encode hm]
      exact ⟨_, rfl⟩

/-- What a change can make of a machine: its deterministic automaton, or an image of it that is
taken for deterministic only for a reason. -/
inductive Change.Outcome (m : Machine) : Machine → Prop where
  | determinized (order : WorklistOrder) : Outcome m (.dfa (m.automaton.toDfa order))
  | image {n : Machine} {part : State → Prop} {name : State → State}
      (image : IsImage part name m.automaton n.automaton) (tellsApart : TellsApart part name)
      (declared : ∀ {s}, part s → s ∈ m.automaton.states)
      (kind : n.isDfa = true → m.isDfa = true ∨ m.automaton.Deterministic) : Outcome m n

/-- **Every change has one of these outcomes.** -/
theorem Change.outcome (hm : m.automaton.Consistent) (hsize : m.automaton.states.size < 2 ^ 32)
    (h : Change.apply m c = .ok n) : Outcome m n := by
  have hself := Automaton.isImage_self hm
  cases c with
  | none =>
      obtain rfl := Except.ok.inj h
      exact .image hself Automaton.tellsApart_id id Or.inl
  | toDfa order =>
      obtain rfl := Except.ok.inj h
      exact .determinized order
  | canonicalize =>
      obtain rfl := Except.ok.inj h
      have himage := Automaton.isImage_canonicalize hm
      have hreachable : m.automaton.reachable.size ≤ 2 ^ 32 :=
        Nat.le_trans (Automaton.size_reachable_le hm) (Nat.le_of_lt hsize)
      rw [← m.automaton_canonicalize] at himage
      exact .image himage (Automaton.tellsApart_canonicalName hm hreachable)
        hm.mem_states_of_reachable fun hkind => Or.inl (m.isDfa_canonicalize ▸ hkind)
  | removeUnreachable =>
      obtain rfl := Except.ok.inj h
      have himage := Automaton.isImage_removeUnreachable m.automaton
      rw [← m.automaton_removeUnreachable] at himage
      exact .image himage Automaton.tellsApart_id hm.mem_states_of_reachable
        fun hkind => Or.inl (m.isDfa_removeUnreachable ▸ hkind)
  | asDfa =>
      obtain ⟨d, hcheck, rfl⟩ := exists_of_map_eq_ok h
      -- the check hands back the automaton that it was given
      obtain ⟨hdet, rfl⟩ := Dfa.ofAutomaton_eq_ok_iff.1 hcheck
      exact .image hself Automaton.tellsApart_id id fun _ => Or.inr hdet
  | asNfa =>
      obtain rfl := Except.ok.inj h
      exact .image hself Automaton.tellsApart_id id Bool.noConfusion
  | reparse =>
      rw [Change.apply, Automaton.parse_encode hm] at h
      obtain rfl := Except.ok.inj h
      exact .image (Automaton.isImage_written hm)
        (Automaton.tellsApart_writtenName (Nat.le_of_lt hsize)) id Bool.noConfusion

/-- **A change keeps the automaton alike to what it was.** -/
theorem Change.keeps (hm : m.automaton.Consistent) (hsize : m.automaton.states.size < 2 ^ 32)
    (h : Change.apply m c = .ok n) : n.automaton.Consistent ∧ Alike m.automaton n.automaton := by
  cases Change.outcome hm hsize h with
  | determinized order =>
      exact ⟨Automaton.consistent_toDfa hm order, Automaton.alike_toDfa hm order⟩
  | image himage hname _ _ => exact ⟨himage.consistent hm, himage.alike hname⟩

/-- **Any number of changes keep the automaton alike to what it was.** -/
theorem Becomes.keeps (hm : m.automaton.Consistent) (h : Becomes m n) :
    n.automaton.Consistent ∧ Alike m.automaton n.automaton := by
  induction h with
  | refl => exact ⟨hm, Alike.refl _⟩
  | tail _ hstep ih =>
      obtain ⟨hsize, c, hc⟩ := hstep
      have hnext := Change.keeps ih.1 hsize hc
      exact ⟨hnext.1, ih.2.trans hnext.2⟩

/-- **The canonical encoding of the deterministic automaton is an invariant of all changes.**  None
of the changes fails but the check for determinism.  In particular, converting a second time changes
nothing. -/
theorem encode_toDfa_of_becomes :
    (∀ m n : Machine, m.automaton.Consistent → Becomes m n →
      (∀ c, c ≠ .asDfa → ∃ k, Change.apply n c = .ok k) ∧
        ∀ order order', (n.automaton.toDfa order).canonicalize.automaton.encode =
          (m.automaton.toDfa order').canonicalize.automaton.encode) ∧
      ∀ text a, Automaton.parse text = .ok a →
        (a.toDfa .fifo).automaton.states.size < 2 ^ 32 →
          ∃ result, convert text = .ok result ∧ convert result = .ok result := by
  constructor
  · intro m n hm h
    obtain ⟨hn, halike⟩ := h.keeps hm
    refine ⟨fun c hc => Change.exists_apply hn hc, fun order order' => ?_⟩
    rw [halike.symm.canonicalize_toDfa_eq hn hm order order']
  · intro text a hparse hsize
    exact ⟨a.standard.encode, convert_of_parse hparse,
      Automaton.convert_encode_standard (Automaton.consistent_of_parse hparse) hsize⟩

/-- The written form of the example is read back, determinized and pruned. -/
theorem becomes_tangle :
    Becomes (.nfa Automaton.tangle)
      (.dfa (Automaton.tangle.written.toDfa .lifo).removeUnreachable) := by
  have hcons := Automaton.consistent_of_build Automaton.build_tangle
  have hreparse : Change.apply (.nfa Automaton.tangle) .reparse =
      .ok (.nfa Automaton.tangle.written) := by
    rw [Change.apply, Machine.automaton, Automaton.parse_encode hcons]
    rfl
  have hread : ChangesTo (.nfa Automaton.tangle) (.nfa Automaton.tangle.written) :=
    ⟨by decide +kernel, .reparse, hreparse⟩
  have hdetermined : ChangesTo (.nfa Automaton.tangle.written)
      (.dfa (Automaton.tangle.written.toDfa .lifo)) :=
    ⟨by decide +kernel, .toDfa .lifo, rfl⟩
  have hpruned : ChangesTo (.dfa (Automaton.tangle.written.toDfa .lifo))
      (.dfa (Automaton.tangle.written.toDfa .lifo).removeUnreachable) :=
    ⟨by decide +kernel, .removeUnreachable, rfl⟩
  exact ((ReflTransGen.single hread).tail hdetermined).tail hpruned

theorem encode_toDfa_of_becomes_tangle :
    (∀ order order',
      ((Automaton.tangle.written.toDfa .lifo).removeUnreachable.automaton.toDfa
          order).canonicalize.automaton.encode =
        (Automaton.tangle.toDfa order').canonicalize.automaton.encode) ∧
      ∃ result, convert "0 1 2 / b a / 0,a,0; 0,b,0; 0,a,1; 1,,2 / 0 / 2".toList = .ok result ∧
        convert result = .ok result :=
  have hcons := Automaton.consistent_of_build Automaton.build_tangle
  ⟨(encode_toDfa_of_becomes.1 (.nfa Automaton.tangle) _ hcons becomes_tangle).2,
    encode_toDfa_of_becomes.2 _ _ Automaton.parse_lastLetter Automaton.size_toDfa_lastLetter⟩

end Session
end Determinization
