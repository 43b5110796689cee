import Determinization.Proofs.Automaton.Minimality
import Determinization.Proofs.Automaton.Powerset
import Determinization.Proofs.Comparison.Difference
import Mathlib.Data.Finset.Card
import Mathlib.Data.Finset.Image

/-!
# When short words decide

Finitely many words are enough to compare two deterministic machines.  If they have `n` and `m`
states and one alphabet, and they accept the same words of length below `n + m - 1`, then they
accept the same words.

## The argument

A state is nothing but a language here, the set of words that are accepted from it, given as a
Boolean test.  The languages of the states of both machines make a list of `n + m` languages.  This
list is closed: what is left of one of its languages after a first character is in the list again
(`Residual`).

The words below a bound sort the languages into classes by what the languages say of these words
(`profile`).  A larger bound refines the classes.  Once a larger bound does not refine them, no
bound does, because a word that tells two languages apart begins with a character, and the rest of
it tells apart what is left of them (`Stable.succ`).  Below the bound 0 there is one class, every
refinement makes at least one more, and there cannot be more classes than languages.  So the classes
are stable at some bound below the number of languages (`exists_stable`), and two languages of one
class at that bound are equal on all words (`eq_of_eq_below`).

The bound is the best one of its form: see the example at the end.
-/

namespace Determinization

/-- A test for words: those that a machine accepts from one of its states. -/
abbrev WordTest := List Char → Bool

namespace WordTest

variable {characters : List Char} {tests : List WordTest} {L M : WordTest} {k bound : Nat}
  {c : Char} {w : List Char}

/-- What is left of a test after a first character. -/
def after (L : WordTest) (c : Char) : WordTest := fun w => L (c :: w)

/-- What is left of the tests after a first character is among them. -/
def Residual (characters : List Char) (tests : List WordTest) : Prop :=
  ∀ L ∈ tests, ∀ c ∈ characters, L.after c ∈ tests

/-! ## Classes of tests -/

/-- What the test says of the words below the bound, one after the other. -/
def profile (characters : List Char) (bound : Nat) (L : WordTest) : List Bool :=
  (wordsBelow characters bound).map L

/-- Two tests are in one class when they agree on the words below the bound. -/
theorem profile_eq_iff :
    profile characters bound L = profile characters bound M ↔
      ∀ w, w.length < bound → (∀ c ∈ w, c ∈ characters) → L w = M w := by
  unfold profile
  rw [List.map_inj_left]
  simp only [mem_wordsBelow, and_imp]

/-- What a test says below a smaller bound is the beginning of what it says below a larger one. -/
theorem take_profile_succ (characters : List Char) (k : Nat) (L : WordTest) :
    (profile characters (k + 1) L).take (wordsBelow characters k).length =
      profile characters k L := by
  rw [profile, wordsBelow_succ, List.map_append, profile]
  exact List.take_left' (List.length_map L)

/-- One profile for each class. -/
def profiles (characters : List Char) (tests : List WordTest) (bound : Nat) : Finset (List Bool) :=
  (tests.map (profile characters bound)).toFinset

theorem mem_profiles {x : List Bool} :
    x ∈ profiles characters tests bound ↔ ∃ L ∈ tests, profile characters bound L = x := by
  simp [profiles]

theorem card_profiles_le (characters : List Char) (tests : List WordTest) (bound : Nat) :
    (profiles characters tests bound).card ≤ tests.length := by
  have h := List.toFinset_card_le (tests.map (profile characters bound))
  rwa [List.length_map] at h

theorem image_take_profiles (characters : List Char) (tests : List WordTest) (k : Nat) :
    (profiles characters tests (k + 1)).image (List.take (wordsBelow characters k).length) =
      profiles characters tests k := by
  ext x
  simp only [Finset.mem_image, mem_profiles]
  constructor
  · rintro ⟨_, ⟨L, hL, rfl⟩, rfl⟩
    exact ⟨L, hL, (take_profile_succ characters k L).symm⟩
  · rintro ⟨L, hL, rfl⟩
    exact ⟨_, ⟨L, hL, rfl⟩, take_profile_succ characters k L⟩

/-! ## Refinement -/

/-- The next bound does not refine the classes. -/
def Stable (characters : List Char) (tests : List WordTest) (k : Nat) : Prop :=
  ∀ L ∈ tests, ∀ M ∈ tests, profile characters k L = profile characters k M →
    profile characters (k + 1) L = profile characters (k + 1) M

/-- **A refinement makes more classes.** -/
theorem card_profiles_lt (h : ¬ Stable characters tests k) :
    (profiles characters tests k).card < (profiles characters tests (k + 1)).card := by
  have himage := image_take_profiles characters tests k
  have hle : (profiles characters tests k).card ≤ (profiles characters tests (k + 1)).card := by
    rw [← himage]
    exact Finset.card_image_le
  by_contra hlt
  have hcard : ((profiles characters tests (k + 1)).image
      (List.take (wordsBelow characters k).length)).card =
        (profiles characters tests (k + 1)).card := by
    rw [himage]
    omega
  -- nothing is lost by cutting profiles off, so equal beginnings are beginnings of equal profiles
  have hinj := Finset.card_image_iff.1 hcard
  refine h fun L hL M hM heq => hinj (mem_profiles.2 ⟨L, hL, rfl⟩) (mem_profiles.2 ⟨M, hM, rfl⟩) ?_
  show (profile characters (k + 1) L).take _ = (profile characters (k + 1) M).take _
  rw [take_profile_succ, take_profile_succ, heq]

/-- **Classes that one bound does not refine are not refined by the next one either.** -/
theorem Stable.succ (hclosed : Residual characters tests) (h : Stable characters tests k) :
    Stable characters tests (k + 1) := by
  intro L hL M hM heq
  rw [profile_eq_iff] at heq ⊢
  intro w hlength hw
  cases w with
  | nil => exact heq [] (Nat.succ_pos k) hw
  | cons c w =>
      obtain ⟨hc, hw⟩ := List.forall_mem_cons.1 hw
      have hrest : profile characters k (L.after c) = profile characters k (M.after c) := by
        refine profile_eq_iff.2 fun v hv hspells => ?_
        exact heq (c :: v) (Nat.succ_lt_succ hv) (List.forall_mem_cons.2 ⟨hc, hspells⟩)
      have hnext := h _ (hclosed L hL c hc) _ (hclosed M hM c hc) hrest
      exact profile_eq_iff.1 hnext w (Nat.lt_of_succ_lt_succ hlength) hw

/-- Where the classes are stable, tests of one class agree below every bound. -/
theorem Stable.profile_eq (hclosed : Residual characters tests) (h : Stable characters tests k)
    (hL : L ∈ tests) (hM : M ∈ tests) (heq : profile characters k L = profile characters k M)
    (n : Nat) : profile characters (k + n) L = profile characters (k + n) M := by
  have hstable : ∀ n, Stable characters tests (k + n) := by
    intro n
    induction n with
    | zero => exact h
    | succ n ih => exact ih.succ hclosed
  induction n with
  | zero => exact heq
  | succ n ih => exact hstable n L hL M hM ih

/-- As long as every bound refines the classes, there are more classes than the bound. -/
theorem lt_card_profiles (hL : L ∈ tests) (h : ∀ j < k, ¬ Stable characters tests j) :
    k < (profiles characters tests k).card := by
  induction k with
  | zero => exact Finset.card_pos.2 ⟨_, mem_profiles.2 ⟨L, hL, rfl⟩⟩
  | succ k ih =>
      have hk := ih fun j hj => h j (by omega)
      have hlt := card_profiles_lt (h k (by omega))
      omega

/-- **The classes are stable at some bound below the number of tests.** -/
theorem exists_stable (characters : List Char) (hL : L ∈ tests) :
    ∃ k < tests.length, Stable characters tests k := by
  by_contra hnone
  have hrefined : ∀ j < tests.length, ¬ Stable characters tests j :=
    fun j hj hstable => hnone ⟨j, hj, hstable⟩
  have hlt := lt_card_profiles hL hrefined
  have hle := card_profiles_le characters tests tests.length
  omega

/-- **Two of `n` tests that agree on the words of length below `n - 1` agree on all words.** -/
theorem eq_of_eq_below (hclosed : Residual characters tests) (hL : L ∈ tests) (hM : M ∈ tests)
    (h : ∀ w, w.length < tests.length - 1 → (∀ c ∈ w, c ∈ characters) → L w = M w)
    (hw : ∀ c ∈ w, c ∈ characters) : L w = M w := by
  obtain ⟨k, hk, hstable⟩ := exists_stable characters hL
  have heq : profile characters k L = profile characters k M :=
    profile_eq_iff.2 fun v hv hspells => h v (by omega) hspells
  have hall := hstable.profile_eq hclosed hL hM heq (w.length + 1)
  exact profile_eq_iff.1 hall w (by omega) hw

end WordTest

/-! ## The languages of two machines -/

namespace Dfa

variable {d e : Dfa} {s : State} {c : Char}

/-- What is accepted from the states of the machine. -/
def tests (d : Dfa) : List WordTest := d.automaton.states.toList.map d.acceptsFrom

theorem length_tests (d : Dfa) : d.tests.length = d.automaton.states.size := List.length_map _

theorem accepts_mem_tests (hd : d.automaton.Consistent) : d.accepts ∈ d.tests :=
  List.mem_map.2 ⟨d.automaton.initial, hd.initial_mem, rfl⟩

/-- What is left of the language of a state is the language of the next state. -/
theorem residual_tests (hd : d.automaton.Consistent) (hdet : d.automaton.Deterministic) :
    WordTest.Residual d.automaton.alphabet.toList d.tests := by
  intro L hL c hc
  obtain ⟨s, hs, rfl⟩ := List.mem_map.1 hL
  obtain ⟨t, ht⟩ := (Automaton.deterministic_iff.1 hdet).2 s hs c hc
  have hstep : ⟨s, .char c, t⟩ ∈ d.automaton.transitions := (ht t).2 rfl
  refine List.mem_map.2 ⟨t, hd.target_mem _ hstep, ?_⟩
  funext w
  exact (acceptsFrom_cons_of_mem hd hdet hstep w).symm

/-- **Machines that agree on short words agree on all words.** -/
theorem accepts_eq_of_eq_below (hd : d.automaton.Consistent) (hddet : d.automaton.Deterministic)
    (he : e.automaton.Consistent) (hedet : e.automaton.Deterministic)
    (halphabet : d.automaton.alphabet = e.automaton.alphabet)
    (h : ∀ w, w.length < d.automaton.states.size + e.automaton.states.size - 1 →
      d.accepts w = e.accepts w) (w : List Char) : d.accepts w = e.accepts w := by
  have hclosed : WordTest.Residual d.automaton.alphabet.toList (d.tests ++ e.tests) := by
    intro L hL c hc
    rcases List.mem_append.1 hL with hL | hL
    · exact List.mem_append_left _ (residual_tests hd hddet L hL c hc)
    · exact List.mem_append_right _ (residual_tests he hedet L hL c (halphabet ▸ hc))
  have hlength : (d.tests ++ e.tests).length =
      d.automaton.states.size + e.automaton.states.size := by
    rw [List.length_append, length_tests, length_tests]
  by_contra hne
  have hspells := Machine.spells_of_accepts_ne (m := .dfa d) (n := .dfa e) hd he halphabet hne
  refine hne (WordTest.eq_of_eq_below hclosed (List.mem_append_left _ (accepts_mem_tests hd))
    (List.mem_append_right _ (accepts_mem_tests he)) (fun v hv _ => h v ?_) hspells)
  rwa [hlength] at hv

/-- **From a bound on the comparison is conclusive.**  For deterministic machines with `n` and `m`
states, a bound of at least `n + m - 1` on the length of words is as good as none. -/
theorem sameLanguage_iff_accepts_eq (hd : d.automaton.Consistent)
    (hddet : d.automaton.Deterministic) (he : e.automaton.Consistent)
    (hedet : e.automaton.Deterministic) {bound : Nat}
    (hbound : d.automaton.states.size + e.automaton.states.size - 1 ≤ bound) :
    (Machine.dfa d).sameLanguage (.dfa e) bound = true ↔
      d.automaton.alphabet = e.automaton.alphabet ∧ ∀ w, d.accepts w = e.accepts w := by
  rw [Machine.sameLanguage_eq_true_iff (m := .dfa d) (n := .dfa e) hd he]
  refine and_congr_right fun halphabet => ⟨fun h => ?_, fun h w _ => h w⟩
  refine accepts_eq_of_eq_below hd hddet he hedet halphabet fun w hw => ?_
  exact h w (Nat.lt_of_lt_of_le hw hbound)

end Dfa

namespace Automaton

/-- A deterministic automaton that accepts the words in which `a` and `b` take turns, `a` first and
last.  The same words are accepted from two of its states. -/
def turns : Automaton :=
  .ofParts [.simple 0, .simple 1, .simple 2, .simple 3] (SortedSet.ofList ['a', 'b'])
    [⟨.simple 0, .char 'a', .simple 1⟩, ⟨.simple 0, .char 'b', .simple 3⟩,
      ⟨.simple 1, .char 'a', .simple 3⟩, ⟨.simple 1, .char 'b', .simple 2⟩,
      ⟨.simple 2, .char 'a', .simple 1⟩, ⟨.simple 2, .char 'b', .simple 3⟩,
      ⟨.simple 3, .char 'a', .simple 3⟩, ⟨.simple 3, .char 'b', .simple 3⟩]
    (.simple 0) [.simple 1]

theorem build_turns :
    build [.simple 0, .simple 1, .simple 2, .simple 3] (SortedSet.ofList ['a', 'b'])
      [⟨.simple 0, .char 'a', .simple 1⟩, ⟨.simple 0, .char 'b', .simple 3⟩,
        ⟨.simple 1, .char 'a', .simple 3⟩, ⟨.simple 1, .char 'b', .simple 2⟩,
        ⟨.simple 2, .char 'a', .simple 1⟩, ⟨.simple 2, .char 'b', .simple 3⟩,
        ⟨.simple 3, .char 'a', .simple 3⟩, ⟨.simple 3, .char 'b', .simple 3⟩]
      (.simple 0) [.simple 1] = .ok turns := rfl

theorem deterministic_turns : turns.Deterministic :=
  determinismFault?_eq_none_iff.1 (by decide +kernel)

theorem deterministic_lastIsA : lastIsA.Deterministic :=
  determinismFault?_eq_none_iff.1 (by decide +kernel)

end Automaton

namespace Dfa

open Automaton (tangle turns lastIsA)

/-- Three states and four: the words below length 6 show that the result of the example accepts the
words in which `a` and `b` take turns, all of them and no others.  Three states and two: there are
words on which the result and the other machine differ. -/
theorem sameLanguage_iff_accepts_eq_tangle :
    (tangle.toDfa .lifo).automaton.states.size = 3 ∧ turns.states.size = 4 ∧
      lastIsA.states.size = 2 ∧
      (∀ w, (tangle.toDfa .lifo).accepts w = Dfa.accepts ⟨turns⟩ w) ∧
      ¬ ∀ w, (tangle.toDfa .lifo).accepts w = Dfa.accepts ⟨lastIsA⟩ w := by
  have hcons := Automaton.consistent_of_build Automaton.build_tangle
  have hd := Automaton.consistent_toDfa hcons .lifo
  have hdet := Automaton.deterministic_toDfa hcons .lifo
  have hstates : (tangle.toDfa .lifo).automaton.states.size = 3 := by decide +kernel
  have hturns : (Machine.dfa (tangle.toDfa .lifo)).sameLanguage (.dfa ⟨turns⟩) 6 = true := by
    decide +kernel
  have hlast : (Machine.dfa (tangle.toDfa .lifo)).sameLanguage (.dfa ⟨lastIsA⟩) 4 = false := by
    decide +kernel
  have hbound : (tangle.toDfa .lifo).automaton.states.size + turns.states.size - 1 ≤ 6 := by
    rw [hstates]
    rfl
  have hbound' : (tangle.toDfa .lifo).automaton.states.size + lastIsA.states.size - 1 ≤ 4 := by
    rw [hstates]
    rfl
  refine ⟨hstates, rfl, rfl, ?_, fun hall => ?_⟩
  · exact ((sameLanguage_iff_accepts_eq hd hdet (e := ⟨turns⟩)
      (Automaton.consistent_of_build Automaton.build_turns) Automaton.deterministic_turns
        hbound).1 hturns).2
  · have htrue := (sameLanguage_iff_accepts_eq hd hdet (e := ⟨lastIsA⟩)
      (Automaton.consistent_of_build Automaton.build_lastIsA) Automaton.deterministic_lastIsA
        hbound').2 ⟨rfl, hall⟩
    rw [hlast] at htrue
    exact Bool.noConfusion htrue

/-- One state and three, and a bound below 3 is not enough: nothing that is shorter than `aa` tells
the machine that accepts no word from the one that accepts all words from `aa` on. -/
example :
    let rejecting : Machine := .dfa ⟨.ofParts [.simple 0] (SortedSet.ofList ['a'])
      [⟨.simple 0, .char 'a', .simple 0⟩] (.simple 0) []⟩
    let counting : Machine := .dfa ⟨.ofParts [.simple 0, .simple 1, .simple 2]
      (SortedSet.ofList ['a'])
      [⟨.simple 0, .char 'a', .simple 1⟩, ⟨.simple 1, .char 'a', .simple 2⟩,
        ⟨.simple 2, .char 'a', .simple 2⟩] (.simple 0) [.simple 2]⟩
    rejecting.sameLanguage counting 2 = true ∧ rejecting.sameLanguage counting 3 = false := by
  decide +kernel

end Dfa
end Determinization
