import Determinization.Proofs.Declaration.Regular

/-!
# What a reading takes

`Takes r taken a rest` says of a reading that it takes just the tokens `taken` if `rest` follows
them, and answers `a`.  A regular reading that answers has taken some tokens (`exists_takes`), and
two readings one after the other take what they take each (`takes_bind_iff`).

Where a name, a sign or a group ends can be seen from itself; what follows makes no difference.
Where a type or an expression ends depends on what follows.  Between these two there are readings
that look at the next token only, and to which a comma farther on makes no difference
(`Shortsighted`).  Attributes and the words that say who can see a structure are read so.
-/

namespace Determinization
namespace Declaration

variable {α β : Type} {r r' : Reading α} {f : α → Reading β} {a : α} {b : β}
  {tokens taken rest before after content : List Token}

/-- Followed by `rest`, the reading takes these tokens and no more. -/
def Takes (r : Reading α) (taken : List Token) (a : α) (rest : List Token) : Prop :=
  r.run (taken ++ rest) = some (a, rest)

theorem exists_takes [hr : Regular r] (h : r.run tokens = some (a, rest)) :
    ∃ taken, tokens = taken ++ rest ∧ Takes r taken a rest := by
  obtain ⟨taken, rfl⟩ := hr.suffix h
  exact ⟨taken, rfl, h⟩

/-- A comma at the end makes no difference to a regular reading. -/
theorem takes_append_comma_iff [hr : Regular r] (joint : Bool) :
    Takes r taken a (rest ++ [comma joint]) ↔ Takes r taken a rest := by
  unfold Takes
  rw [← List.append_assoc, hr.append_comma]
  simp [Option.map_eq_some_iff]

theorem takes_pure_iff {a' : α} :
    Takes (pure a' : Reading α) taken a rest ↔ taken = [] ∧ a' = a := by
  have hrun : (pure a' : Reading α).run (taken ++ rest) = some (a', taken ++ rest) := rfl
  rw [Takes, hrun, Option.some.injEq, Prod.mk.injEq, List.append_left_eq_self, and_comm]

/-- The first reading need not be regular, as long as it takes tokens from the front. -/
theorem exists_takes_of_bind [hf : ∀ a, Regular (f a)]
    (hr : ∀ {tokens rest a}, r.run tokens = some (a, rest) → rest <:+ tokens)
    (h : Takes (r >>= f) taken b rest) :
    ∃ first second a, taken = first ++ second ∧
      Takes r first a (second ++ rest) ∧ Takes (f a) second b rest := by
  obtain ⟨a, middle, hfirst, hsecond⟩ := exists_run_of_bind h
  obtain ⟨second, rfl, hsecond⟩ := exists_takes hsecond
  obtain ⟨first, htaken⟩ := hr hfirst
  rw [← htaken] at hfirst
  rw [← List.append_assoc] at htaken
  exact ⟨first, second, a, (List.append_cancel_right htaken).symm, hfirst, hsecond⟩

/-- **One reading after the other takes what they take each.** -/
theorem takes_bind_iff [hr : Regular r] [hf : ∀ a, Regular (f a)] :
    Takes (r >>= f) taken b rest ↔ ∃ first second a, taken = first ++ second ∧
      Takes r first a (second ++ rest) ∧ Takes (f a) second b rest := by
  refine ⟨exists_takes_of_bind hr.suffix, ?_⟩
  rintro ⟨first, second, a, rfl, hfirst, hsecond⟩
  rw [Takes, StateT.run_bind, List.append_assoc, hfirst]
  exact hsecond

theorem takes_orElse (h : Takes (r <|> r') taken a rest) :
    Takes r taken a rest ∨ Takes r' taken a rest := by
  rw [Takes, run_orElse] at h
  cases hfirst : r.run (taken ++ rest) with
  | none =>
      rw [hfirst] at h
      exact .inr h
  | some p =>
      rw [hfirst] at h
      exact .inl (hfirst.trans h)

/-! ## Readings that only look -/

/-- The reading leaves everything where it is. -/
class Looks (r : Reading α) : Prop where
  eq_of_run {tokens rest : List Token} {a : α} (h : r.run tokens = some (a, rest)) : rest = tokens

theorem Looks.exists_run [hr : Looks r] (h : (r >>= f).run tokens = some (b, rest)) :
    ∃ a, (f a).run tokens = some (b, rest) := by
  obtain ⟨a, middle, hfirst, hsecond⟩ := exists_run_of_bind h
  rw [hr.eq_of_run hfirst] at hsecond
  exact ⟨a, hsecond⟩

theorem Looks.exists_takes [Looks r] (h : Takes (r >>= f) taken b rest) :
    ∃ a, Takes (f a) taken b rest :=
  Looks.exists_run h

theorem looks_of_run {look : List Token → α}
    (h : ∀ tokens, r.run tokens = some (look tokens, tokens)) : Looks r where
  eq_of_run {tokens _ _} hrun := by
    rw [h] at hrun
    cases hrun
    rfl

instance (p : Token → Bool) : Looks (sees p) := looks_of_run fun _ => rfl

instance (k : Bracket) : Looks (seesBracket k) := inferInstanceAs (Looks (sees (· == .opening k)))

instance (text : String) : Looks (seesWord text) :=
  inferInstanceAs (Looks (sees (Token.isWord text)))

instance (sign : String) : Looks (seesSign sign) := looks_of_run fun _ => rfl

instance (p : Token → Bool) : Looks (seesColonsAnd p) := looks_of_run fun _ => rfl

instance (inType : Bool) : Looks (seesArguments inType) := looks_of_run fun _ => rfl

instance : Looks seesSignAfterWord := looks_of_run fun _ => rfl

instance : Looks seesLifetime := looks_of_run run_seesLifetime

instance : Looks seesConstant := looks_of_run run_seesConstant

/-! ## Names and signs -/

theorem takes_takeFirst_iff {mean : Token → Option α} :
    Takes (takeFirst mean) taken a rest ↔ ∃ t, taken = [t] ∧ mean t = some a := by
  constructor
  · intro h
    cases taken with
    | nil =>
        cases rest with
        | nil => cases h
        | cons t rest =>
            obtain ⟨b, -, heq⟩ := Option.map_eq_some_iff.1 h
            simp at heq
    | cons t taken =>
        obtain ⟨b, hmean, heq⟩ := Option.map_eq_some_iff.1 h
        obtain ⟨rfl, hrest⟩ := Prod.mk.inj heq
        rw [List.append_left_eq_self.1 hrest]
        exact ⟨t, rfl, hmean⟩
  · rintro ⟨t, rfl, hmean⟩
    have hrun : (takeFirst mean).run ([t] ++ rest) = (mean t).map fun a => (a, rest) := rfl
    rw [Takes, hrun, hmean, Option.map_some]

theorem takes_readToken_iff {p : Token → Bool} {a : List Token} :
    Takes (readToken p) taken a rest ↔ ∃ t, taken = [t] ∧ p t = true ∧ a = [t] := by
  rw [readToken_eq, takes_takeFirst_iff]
  refine exists_congr fun t => and_congr_right fun _ => ?_
  cases p t <;> simp [eq_comm]

theorem takes_readWord_iff {text : String} {a : List Token} :
    Takes (readWord text) taken a rest ↔
      taken = [.word text.toList] ∧ a = [.word text.toList] := by
  rw [readWord, takes_readToken_iff]
  constructor
  · rintro ⟨t, rfl, ht, rfl⟩
    have heq : t = .word text.toList := eq_of_beq ht
    rw [heq]
    exact ⟨rfl, rfl⟩
  · rintro ⟨rfl, rfl⟩
    exact ⟨_, rfl, beq_self_eq_true _, rfl⟩

/-- Is the word of the name no keyword? -/
def Name.IsValid (n : Name) : Prop := Name.ofWord? n.text = some n

theorem takes_readName_iff {n : Name} :
    Takes readName taken n rest ↔ taken = [n.token] ∧ n.IsValid := by
  rw [readName_eq, takes_takeFirst_iff]
  constructor
  · rintro ⟨t, rfl, ht⟩
    cases t with
    | word text =>
        have hn : Name.ofWord? text = some n := ht
        have htext : n.text = text := by
          unfold Name.ofWord? at hn
          split at hn
          · cases hn
          · cases hn
            rfl
        subst htext
        exact ⟨rfl, hn⟩
    | _ => cases ht
  · rintro ⟨rfl, hn⟩
    exact ⟨_, rfl, hn⟩

/-- A sign of one character is a single mark. -/
theorem takes_readSign_iff {sign : String} {c : Char} (hsign : sign.toList = [c]) {a : List Token} :
    Takes (readSign sign) taken a rest ↔ ∃ joint, taken = [.mark c joint] ∧ a = taken := by
  have hlength : sign.length = 1 := by rw [← String.length_toList, hsign, List.length_singleton]
  rw [Takes, run_readSign, hsign, hlength]
  constructor
  · intro h
    split at h
    · rename_i hbegins
      rw [Option.some.injEq, Prod.mk.injEq] at h
      cases taken with
      | nil =>
          cases rest with
          | nil => cases hbegins
          | cons t rest => simp at h
      | cons t taken =>
          rw [List.cons_append, List.drop_one, List.tail_cons, List.append_left_eq_self] at h
          obtain ⟨rfl, rfl⟩ := h
          cases t with
          | mark c' joint =>
              have hc : c = c' := by simpa [beginsWithMarks] using hbegins
              subst hc
              exact ⟨joint, rfl, rfl⟩
          | _ => cases hbegins
    · cases h
  · rintro ⟨joint, rfl, rfl⟩
    simp [beginsWithMarks]

theorem takes_readComma_iff {a : List Token} :
    Takes (readSign ",") taken a rest ↔ ∃ joint, taken = [comma joint] ∧ a = taken :=
  takes_readSign_iff (c := ',') rfl

/-! ## Groups -/

/-- How many brackets are open after the tokens, if so many were open before; none is closed that
was not opened. -/
def openAfter : Nat → List Token → Option Nat
  | depth, [] => some depth
  | depth, .opening _ :: rest => openAfter (depth + 1) rest
  | 0, .closing _ :: _ => none
  | depth + 1, .closing _ :: rest => openAfter depth rest
  | depth, _ :: rest => openAfter depth rest

/-- All brackets among the tokens belong together. -/
def Balanced (tokens : List Token) : Prop := openAfter 0 tokens = some 0

theorem openAfter_append_comma (depth : Nat) (joint : Bool) :
    openAfter depth (tokens ++ [comma joint]) = openAfter depth tokens := by
  induction tokens generalizing depth with
  | nil => rfl
  | cons t tokens ih =>
      cases t with
      | closing b =>
          cases depth with
          | zero => rfl
          | succ depth => exact ih depth
      | _ => exact ih _

/-- **A group ends at the first closing bracket that leaves none open.** -/
theorem splitClosing_eq_some_iff {depth : Nat} :
    splitClosing depth tokens = some (content, rest) ↔
      openAfter depth content = some 0 ∧ ∃ b, tokens = content ++ .closing b :: rest := by
  induction tokens generalizing depth content with
  | nil => simp [splitClosing]
  | cons t tokens ih =>
      -- a token that does not end the group is the first one of what the group contains
      have step {next : Nat}
          (hsplit : splitClosing depth (t :: tokens) =
            (splitClosing next tokens).map fun p => (t :: p.1, p.2))
          (hopen : ∀ l, openAfter depth (t :: l) = openAfter next l)
          (hnil : openAfter depth [] = some 0 → ∀ b, t ≠ .closing b) :
          splitClosing depth (t :: tokens) = some (content, rest) ↔
            openAfter depth content = some 0 ∧
              ∃ b, t :: tokens = content ++ .closing b :: rest := by
        rw [hsplit, Option.map_eq_some_iff]
        constructor
        · rintro ⟨⟨l, r⟩, hlr, heq⟩
          cases heq
          obtain ⟨hl, b, rfl⟩ := ih.1 hlr
          exact ⟨(hopen l).trans hl, b, rfl⟩
        · rintro ⟨hcontent, b, htokens⟩
          cases content with
          | nil => exact absurd (List.cons.inj htokens).1 (hnil hcontent b)
          | cons t' l =>
              obtain ⟨rfl, rfl⟩ := List.cons.inj htokens
              exact ⟨(l, rest), ih.2 ⟨(hopen l).symm.trans hcontent, b, rfl⟩, rfl⟩
      cases t with
      | opening b => exact step rfl (fun _ => rfl) (by simp [openAfter])
      | closing b =>
          cases depth with
          | zero =>
              constructor
              · intro h
                cases h
                exact ⟨rfl, b, rfl⟩
              · rintro ⟨hcontent, b', htokens⟩
                cases content with
                | nil =>
                    cases htokens
                    rfl
                | cons t' l =>
                    obtain ⟨rfl, -⟩ := List.cons.inj htokens
                    cases hcontent
          | succ depth => exact step rfl (fun _ => rfl) (by simp [openAfter])
      | _ => exact step rfl (fun _ => rfl) (by simp [openAfter])

theorem takes_inside_iff {k : Bracket} :
    Takes (inside k r) taken a rest ↔ ∃ content b, taken = .opening k :: (content ++ [.closing b]) ∧
      Balanced content ∧ Takes r content a [] := by
  have hregular : Regular (readToken (· == Token.opening k)) := regular_readToken fun _ => rfl
  constructor
  · intro h
    rw [Takes, run_inside] at h
    obtain ⟨⟨_, middle⟩, hopening, hinside⟩ := Option.bind_eq_some_iff.1 h
    obtain ⟨first, htokens, hfirst⟩ := exists_takes hopening
    obtain ⟨t, rfl, ht, -⟩ := takes_readToken_iff.1 hfirst
    obtain ⟨⟨content, after⟩, hsplit, hrun⟩ := Option.bind_eq_some_iff.1 hinside
    obtain ⟨hbalanced, b, rfl⟩ := splitClosing_eq_some_iff.1 hsplit
    split at hrun
    · rename_i a' hcontent
      cases hrun
      have htaken : taken ++ after = (t :: (content ++ [.closing b])) ++ after := by
        simpa using htokens
      rw [List.append_cancel_right htaken, eq_of_beq ht]
      exact ⟨content, b, rfl, hbalanced, by rw [Takes, List.append_nil, hcontent]⟩
    · cases hrun
  · rintro ⟨content, b, rfl, hbalanced, hcontent⟩
    have hopening : (readToken (· == Token.opening k)).run
        (.opening k :: (content ++ .closing b :: rest)) =
          some ([.opening k], content ++ .closing b :: rest) :=
      takes_readToken_iff.2 ⟨.opening k, rfl, beq_self_eq_true _, rfl⟩
    have hsplit : splitClosing 0 (content ++ .closing b :: rest) = some (content, rest) :=
      splitClosing_eq_some_iff.2 ⟨hbalanced, b, rfl⟩
    rw [Takes, List.append_nil] at hcontent
    rw [Takes, List.cons_append, List.append_assoc, List.singleton_append, run_inside, hopening,
      Option.bind_some, insideOf, hsplit, Option.bind_some]
    simp only [hcontent]

/-! ## Readings that look at the next token only -/

/-- A comma beyond the next token makes no difference to the reading. -/
class Shortsighted (r : Reading α) : Prop where
  takes_iff {taken : List Token} {a : α} (before : List Token) (h : before ≠ [])
    (after : List Token) (joint : Bool) :
    Takes r taken a (before ++ after) ↔ Takes r taken a (before ++ comma joint :: after)

/-- A reading is so if what follows makes no difference at all. -/
theorem shortsighted_of_takes_iff {P : List Token → α → Prop}
    (h : ∀ taken a rest, Takes r taken a rest ↔ P taken a) : Shortsighted r where
  takes_iff _ _ _ _ := by rw [h, h]

/-- It is so, too, if it takes nothing and the answer depends on the next token. -/
theorem shortsighted_of_look {g : Option Token → α}
    (hrun : ∀ tokens, r.run tokens = some (g tokens.head?, tokens)) : Shortsighted r where
  takes_iff {taken a} before h after joint := by
    obtain ⟨t, before, rfl⟩ := List.exists_cons_of_ne_nil h
    have htakes : ∀ rest, Takes r taken a (t :: rest) ↔ taken = [] ∧ g (some t) = a := by
      intro rest
      rw [Takes, hrun, Option.some.injEq, Prod.mk.injEq, List.append_left_eq_self, and_comm]
      refine and_congr_right fun htaken => ?_
      subst htaken
      rfl
    rw [List.cons_append, List.cons_append, htakes, htakes]

instance shortsighted_pure (a : α) : Shortsighted (pure a : Reading α) :=
  shortsighted_of_takes_iff (P := fun taken a' => taken = [] ∧ a = a') fun _ _ _ => takes_pure_iff

instance shortsighted_failure : Shortsighted (failure : Reading α) where
  takes_iff _ _ _ _ := ⟨nofun, nofun⟩

instance shortsighted_bind [Regular r] [∀ a, Regular (f a)] [hr : Shortsighted r]
    [hf : ∀ a, Shortsighted (f a)] : Shortsighted (r >>= f) where
  takes_iff {taken a} before h after joint := by
    rw [takes_bind_iff, takes_bind_iff]
    refine exists_congr fun first => exists_congr fun second => exists_congr fun b => ?_
    have hbefore : second ++ before ≠ [] := List.append_ne_nil_of_right_ne_nil second h
    rw [(hf b).takes_iff before h after joint, ← List.append_assoc, ← List.append_assoc,
      hr.takes_iff _ hbefore after joint]

instance shortsighted_ite {p : Prop} [Decidable p] [Shortsighted r] [Shortsighted r'] :
    Shortsighted (if p then r else r') := by
  split <;> infer_instance

/-- What comes next may depend on what is left, apart from the commas. -/
theorem shortsighted_get_bind {look : List Token → β} {g : β → Reading α}
    (hlook : ∀ before after joint, look (before ++ comma joint :: after) = look (before ++ after))
    (hg : ∀ b, Shortsighted (g b)) :
    Shortsighted (get >>= fun tokens => g (look tokens)) where
  takes_iff {taken a} before h after joint := by
    have hsame : look (taken ++ (before ++ comma joint :: after)) =
        look (taken ++ (before ++ after)) := by
      rw [← List.append_assoc, hlook, List.append_assoc]
    unfold Takes
    rw [run_get_bind, run_get_bind, hsame]
    exact (hg _).takes_iff before h after joint

/-- A reading that looks first and then goes on in one of two ways. -/
theorem shortsighted_choice {c : Reading Bool} [Regular c] [Shortsighted c] [Regular r]
    [Regular r'] (hr : Shortsighted r) (hr' : Shortsighted r') :
    Shortsighted (c >>= fun b => if b = true then r else r') :=
  inferInstance

instance (p : Token → Bool) : Shortsighted (sees p) :=
  shortsighted_of_look (g := fun t => (t.map p).getD false) fun _ => rfl

instance (text : String) : Shortsighted (seesWord text) :=
  inferInstanceAs (Shortsighted (sees (Token.isWord text)))

instance (k : Bracket) : Shortsighted (seesBracket k) :=
  inferInstanceAs (Shortsighted (sees (· == .opening k)))

instance (text : String) : Shortsighted (readWord text) :=
  shortsighted_of_takes_iff fun _ _ _ => takes_readWord_iff

instance (k : Bracket) (r : Reading (List Token)) : Shortsighted (readGroup k r) := by
  have hinside : Shortsighted (inside k r) :=
    shortsighted_of_takes_iff fun _ _ _ => takes_inside_iff
  unfold readGroup
  infer_instance

theorem shortsighted_readSign {sign : String} {c : Char} (hsign : sign.toList = [c]) :
    Shortsighted (readSign sign) :=
  shortsighted_of_takes_iff fun _ _ _ => takes_readSign_iff hsign

/-- Is the next token this mark? -/
def isNextMark (c : Char) : Option Token → Bool
  | some (.mark c' _) => c == c'
  | _ => false

theorem shortsighted_seesSign {sign : String} {c : Char} (hsign : sign.toList = [c]) :
    Shortsighted (seesSign sign) := by
  refine shortsighted_of_look (g := isNextMark c) fun tokens => ?_
  have hrun : (seesSign sign).run tokens = some (beginsWithMarks sign.toList tokens, tokens) := rfl
  rw [hrun, hsign]
  cases tokens with
  | nil => rfl
  | cons t tokens => cases t <;> simp [beginsWithMarks, isNextMark]

end Declaration
end Determinization
