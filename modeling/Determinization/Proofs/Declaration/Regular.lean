import Determinization.Declaration.Basic

/-!
# Regular readings

A reading is regular if it takes tokens from the front of the list, and if a comma at the end of the
list makes no difference to it: it answers as it does without the comma, and leaves the comma to
others.  A comma directly after what is taken is then as good as the end.

Readings are put together from few parts, and what is put together from regular readings is regular.
The property is a class, so that it is found for a whole reading from the instances for its parts.
There is no instance for `get`, because what it shows depends on the comma, nor for `isAtEnd`.  A
reading that looks for a sign is regular only if the sign has no comma (`HasNoComma`).
-/

namespace Determinization
namespace Declaration

variable {α β : Type} {r r' : Reading α} {f : α → Reading β} {tokens rest : List Token}

/-- A comma. -/
def comma (joint : Bool) : Token := .mark ',' joint

/-- The reading takes tokens from the front of the list, and a comma at the end of the list makes no
difference to it. -/
class Regular (r : Reading α) : Prop where
  suffix {tokens rest : List Token} {a : α} (h : r.run tokens = some (a, rest)) : rest <:+ tokens
  append_comma (tokens : List Token) (joint : Bool) :
    r.run (tokens ++ [comma joint]) = (r.run tokens).map fun p => (p.1, p.2 ++ [comma joint])

/-! ## Readings put together -/

instance regular_pure (a : α) : Regular (pure a : Reading α) where
  suffix h := by
    cases h
    exact List.suffix_refl _
  append_comma _ _ := rfl

instance regular_failure : Regular (failure : Reading α) where
  suffix h := nomatch h
  append_comma _ _ := rfl

/-- One reading after the other begins where the first one ends. -/
theorem exists_run_of_bind {b : β} (h : (r >>= f).run tokens = some (b, rest)) :
    ∃ a middle, r.run tokens = some (a, middle) ∧ (f a).run middle = some (b, rest) := by
  rw [StateT.run_bind] at h
  obtain ⟨⟨a, middle⟩, hfirst, hsecond⟩ := Option.bind_eq_some_iff.1 h
  exact ⟨a, middle, hfirst, hsecond⟩

/-- The second reading matters only for the answers of the first one. -/
theorem regular_bind_of (hr : Regular r)
    (hf : ∀ a tokens rest, r.run tokens = some (a, rest) → Regular (f a)) :
    Regular (r >>= f) where
  suffix h := by
    obtain ⟨a, middle, hfirst, hsecond⟩ := exists_run_of_bind h
    exact ((hf a _ _ hfirst).suffix hsecond).trans (hr.suffix hfirst)
  append_comma tokens joint := by
    rw [StateT.run_bind, StateT.run_bind, hr.append_comma]
    cases hfirst : r.run tokens with
    | none => rfl
    | some p => exact (hf p.1 _ _ hfirst).append_comma p.2 joint

instance regular_bind [hr : Regular r] [hf : ∀ a, Regular (f a)] : Regular (r >>= f) :=
  regular_bind_of hr fun a _ _ _ => hf a

instance regular_ite {p : Prop} [Decidable p] [Regular r] [Regular r'] :
    Regular (if p then r else r') := by
  split <;> infer_instance

theorem run_orElse (r r' : Reading α) (tokens : List Token) :
    (r <|> r').run tokens = (r.run tokens <|> r'.run tokens) := rfl

instance regular_orElse [hr : Regular r] [hr' : Regular r'] : Regular (r <|> r') where
  suffix {tokens rest a} h := by
    rw [run_orElse] at h
    cases hfirst : r.run tokens with
    | none =>
        rw [hfirst] at h
        exact hr'.suffix h
    | some p =>
        rw [hfirst] at h
        cases h
        exact hr.suffix hfirst
  append_comma tokens joint := by
    rw [run_orElse, run_orElse, hr.append_comma, hr'.append_comma]
    cases r.run tokens <;> rfl

/-- A reading may look at what is left, as long as it does not see the comma. -/
theorem regular_of_look {look : List Token → α}
    (hrun : ∀ tokens, r.run tokens = some (look tokens, tokens))
    (hlook : ∀ tokens joint, look (tokens ++ [comma joint]) = look tokens) : Regular r where
  suffix {tokens _ _} h := by
    rw [hrun] at h
    cases h
    exact List.suffix_refl _
  append_comma tokens joint := by
    rw [hrun, hrun, hlook, Option.map_some]

theorem run_get_bind (f : List Token → Reading α) (tokens : List Token) :
    (get >>= f).run tokens = (f tokens).run tokens := rfl

/-- What comes next may depend on such a look. -/
theorem regular_get_bind {look : List Token → β} {g : β → Reading α}
    (hlook : ∀ tokens joint, look (tokens ++ [comma joint]) = look tokens)
    (hg : ∀ b, Regular (g b)) : Regular (get >>= fun tokens => g (look tokens)) where
  suffix {tokens _ _} h := (hg (look tokens)).suffix h
  append_comma tokens joint := by
    rw [run_get_bind, run_get_bind, hlook, (hg _).append_comma]

/-! ## Single tokens -/

theorem head?_any_append_comma {p : Token → Bool} (h : ∀ joint, p (comma joint) = false)
    (tokens : List Token) (joint : Bool) :
    ((tokens ++ [comma joint]).head?.map p).getD false = (tokens.head?.map p).getD false := by
  cases tokens with
  | nil => simp [h]
  | cons t tokens => rfl

theorem regular_sees {p : Token → Bool} (h : ∀ joint, p (comma joint) = false) :
    Regular (sees p) :=
  regular_of_look (fun _ => rfl) (head?_any_append_comma h)

instance (text : String) : Regular (seesWord text) := regular_sees fun _ => rfl

instance (b : Bracket) : Regular (seesBracket b) := regular_sees fun _ => rfl

instance : Regular (sees Token.isLiteral) := regular_sees fun _ => rfl

/-- Take the first token if it means something. -/
def takeFirst (mean : Token → Option α) : Reading α
  | t :: rest => (mean t).map fun a => (a, rest)
  | [] => none

theorem regular_takeFirst {mean : Token → Option α} (h : ∀ joint, mean (comma joint) = none) :
    Regular (takeFirst mean) where
  suffix {tokens rest a} hrun := by
    cases tokens with
    | nil => cases hrun
    | cons t tokens =>
        obtain ⟨b, -, heq⟩ := Option.map_eq_some_iff.1 hrun
        cases heq
        exact List.suffix_cons t _
  append_comma tokens joint := by
    cases tokens with
    | nil =>
        have hcomma : (mean (comma joint)).map (fun a => (a, ([] : List Token))) = none := by
          rw [h, Option.map_none]
        exact hcomma
    | cons t tokens =>
        have hfirst : (mean t).map (fun a => (a, tokens ++ [comma joint])) =
            ((mean t).map fun a => (a, tokens)).map fun p => (p.1, p.2 ++ [comma joint]) := by
          rw [Option.map_map]
          rfl
        exact hfirst

theorem readToken_eq (p : Token → Bool) :
    readToken p = takeFirst fun t => if p t then some [t] else none := by
  funext tokens
  cases tokens with
  | nil => rfl
  | cons t tokens =>
      have hrun : readToken p (t :: tokens) =
          (if p t then (do set tokens; return [t]) else failure : Reading (List Token))
            (t :: tokens) := rfl
      rw [hrun, takeFirst]
      split <;> rfl

/-- The name that a token is. -/
def name? : Token → Option Name
  | .word text => Name.ofWord? text
  | _ => none

theorem readName_eq : readName = takeFirst name? := by
  funext tokens
  cases tokens with
  | nil => rfl
  | cons t tokens =>
      cases t with
      | word text =>
          have htake : takeFirst name? (.word text :: tokens) =
              (Name.ofWord? text).map fun n => (n, tokens) := rfl
          rw [htake]
          refine (run_get_bind _ _).trans ?_
          dsimp only
          cases Name.ofWord? text <;> rfl
      | _ => rfl

/-- The word, if it can be a segment of a path. -/
def pathWord? (further : List String) : Token → Option Token
  | .word text =>
      if (["self", "Self", "super", "crate"] ++ further).any (·.toList == text) ||
          (Name.ofWord? text).isSome then some (.word text)
      else none
  | _ => none

theorem readPathWord_eq (further : List String) :
    readPathWord further = takeFirst (pathWord? further) := by
  funext tokens
  cases tokens with
  | nil => rfl
  | cons t tokens =>
      cases t with
      | word text =>
          have hrun : readPathWord further (.word text :: tokens) =
              (if (["self", "Self", "super", "crate"] ++ further).any (·.toList == text) ||
                  (Name.ofWord? text).isSome then (do set tokens; return .word text)
                else failure : Reading Token) (.word text :: tokens) := rfl
          rw [hrun, takeFirst, pathWord?]
          split <;> rfl
      | _ => rfl

theorem regular_readToken {p : Token → Bool} (h : ∀ joint, p (comma joint) = false) :
    Regular (readToken p) := by
  rw [readToken_eq]
  exact regular_takeFirst fun joint => by simp [h]

instance (text : String) : Regular (readWord text) := regular_readToken fun _ => rfl

instance (text : String) : Regular (readWord? text) := by
  unfold readWord?
  infer_instance

instance : Regular readName := by
  rw [readName_eq]
  exact regular_takeFirst fun _ => rfl

instance (further : List String) : Regular (readPathWord further) := by
  rw [readPathWord_eq]
  exact regular_takeFirst fun _ => rfl

/-! ## Signs -/

/-- No character of the sign is a comma. -/
class HasNoComma (sign : String) : Prop where
  not_mem : ',' ∉ sign.toList

section Signs

variable {sign : List Char}

theorem length_le_of_beginsWithMarks (h : beginsWithMarks sign tokens = true) :
    sign.length ≤ tokens.length := by
  induction sign generalizing tokens with
  | nil => exact Nat.zero_le _
  | cons c sign ih =>
      cases tokens with
      | nil => cases h
      | cons t tokens =>
          cases t with
          | mark c' joint =>
              rw [beginsWithMarks, Bool.and_eq_true] at h
              exact Nat.succ_le_succ (ih h.2)
          | _ => cases h

theorem beginsWithMarks_append_comma (hsign : ',' ∉ sign) (joint : Bool) :
    beginsWithMarks sign (tokens ++ [comma joint]) = beginsWithMarks sign tokens := by
  induction sign generalizing tokens with
  | nil => rfl
  | cons c sign ih =>
      rw [List.mem_cons, not_or] at hsign
      cases tokens with
      | nil =>
          have hne : (c == ',') = false := beq_false_of_ne (Ne.symm hsign.1)
          simp [beginsWithMarks, comma, hne]
      | cons t tokens =>
          cases t with
          | mark c' joint' =>
              rw [List.cons_append, beginsWithMarks, beginsWithMarks, ih hsign.2]
          | _ => rfl

end Signs

variable {sign : String}

instance regular_seesSign [h : HasNoComma sign] : Regular (seesSign sign) :=
  regular_of_look (fun _ => rfl) fun _ joint => beginsWithMarks_append_comma h.not_mem joint

theorem run_readSign (sign : String) (tokens : List Token) :
    (readSign sign).run tokens =
      if beginsWithMarks sign.toList tokens then
        some (tokens.take sign.length, tokens.drop sign.length)
      else none := by
  have hrun : (readSign sign).run tokens = (if beginsWithMarks sign.toList tokens then
      (do set (tokens.drop sign.length); return tokens.take sign.length)
      else failure : Reading (List Token)).run tokens := rfl
  rw [hrun]
  split <;> rfl

instance regular_readSign [h : HasNoComma sign] : Regular (readSign sign) where
  suffix {tokens rest a} hrun := by
    rw [run_readSign] at hrun
    split at hrun
    · cases hrun
      exact List.drop_suffix _ _
    · cases hrun
  append_comma tokens joint := by
    rw [run_readSign, run_readSign, beginsWithMarks_append_comma h.not_mem]
    split
    · rename_i hbegins
      have hlength : sign.length ≤ tokens.length := by
        rw [← String.length_toList]
        exact length_le_of_beginsWithMarks hbegins
      rw [List.take_append_of_le_length hlength, List.drop_append_of_le_length hlength,
        Option.map_some]
    · rfl

instance regular_readOptionalSign [HasNoComma sign] : Regular (readSign? sign) := by
  unfold readSign?
  infer_instance

/-! ## Lifetimes and constants -/

instance : HasNoComma "'" := ⟨by decide⟩

instance : HasNoComma "-" := ⟨by decide⟩

/-- Is a lifetime next? -/
def isLifetimeNext : List Token → Bool
  | .mark c _ :: .word _ :: _ => c == '\''
  | _ => false

theorem run_seesLifetime (tokens : List Token) :
    seesLifetime.run tokens = some (isLifetimeNext tokens, tokens) := by
  rcases tokens with _ | ⟨t, _ | ⟨t', tokens⟩⟩
  · rfl
  · cases t <;> rfl
  · cases t <;> cases t' <;> rfl

theorem isLifetimeNext_append_comma (tokens : List Token) (joint : Bool) :
    isLifetimeNext (tokens ++ [comma joint]) = isLifetimeNext tokens := by
  rcases tokens with _ | ⟨t, _ | ⟨t', tokens⟩⟩
  · rfl
  · cases t <;> rfl
  · cases t <;> cases t' <;> rfl

instance : Regular seesLifetime := regular_of_look run_seesLifetime isLifetimeNext_append_comma

/-- Is a constant next? -/
def isConstantNext : List Token → Bool
  | .literal _ :: _ => true
  | .word text :: _ => text == "true".toList || text == "false".toList
  | .mark c _ :: .literal text :: _ => c == '-' && isNumber text
  | _ => false

theorem run_seesConstant (tokens : List Token) :
    seesConstant.run tokens = some (isConstantNext tokens, tokens) := by
  rcases tokens with _ | ⟨t, _ | ⟨t', tokens⟩⟩
  · rfl
  · cases t <;> rfl
  · cases t <;> cases t' <;> rfl

theorem isConstantNext_append_comma (tokens : List Token) (joint : Bool) :
    isConstantNext (tokens ++ [comma joint]) = isConstantNext tokens := by
  rcases tokens with _ | ⟨t, _ | ⟨t', tokens⟩⟩
  · rfl
  · cases t <;> rfl
  · cases t <;> cases t' <;> rfl

instance : Regular seesConstant := regular_of_look run_seesConstant isConstantNext_append_comma

/-- Any word can be the name of a lifetime. -/
instance : Regular (readToken fun t => match t with
    | .word _ => true
    | _ => false) := regular_readToken fun _ => rfl

instance : Regular readLifetime := by
  unfold readLifetime
  infer_instance

instance : Regular readLifetime? := by
  unfold readLifetime?
  infer_instance

instance : Regular readConstant := by
  have hvalue : Regular (readToken fun t => t.isLiteral || t.isWord "true" || t.isWord "false") :=
    regular_readToken fun _ => rfl
  unfold readConstant
  infer_instance

/-! ## Brackets -/

/-- A comma after the closing bracket is not part of what stands between the brackets. -/
theorem splitClosing_append_comma (depth : Nat) (joint : Bool) :
    splitClosing depth (tokens ++ [comma joint]) =
      (splitClosing depth tokens).map fun p => (p.1, p.2 ++ [comma joint]) := by
  induction tokens generalizing depth with
  | nil => rfl
  | cons t tokens ih =>
      cases t with
      | opening b => simp only [List.cons_append, splitClosing, ih, Option.map_map]; rfl
      | closing b =>
          cases depth with
          | zero => rfl
          | succ depth => simp only [List.cons_append, splitClosing, ih, Option.map_map]; rfl
      | _ => simp only [List.cons_append, splitClosing, ih, Option.map_map]; rfl

/-- What is answered when what stands between brackets is read. -/
def insideOf (r : Reading α) (tokens : List Token) : Option (α × List Token) :=
  (splitClosing 0 tokens).bind fun p =>
    match r.run p.1 with
    | some (a, []) => some (a, p.2)
    | _ => none

theorem run_inside (b : Bracket) (r : Reading α) (tokens : List Token) :
    (inside b r).run tokens =
      ((readToken (· == .opening b)).run tokens).bind fun p => insideOf r p.2 := by
  refine (StateT.run_bind _ _ _).trans ?_
  congr 1
  funext p
  refine (run_get_bind _ _).trans ?_
  rw [insideOf]
  cases splitClosing 0 p.2 with
  | none => rfl
  | some q =>
      obtain ⟨content, rest⟩ := q
      dsimp only [Option.bind_some]
      rcases r.run content with _ | ⟨a, _ | ⟨t, left⟩⟩ <;> rfl

theorem insideOf_append_comma (r : Reading α) (joint : Bool) :
    insideOf r (tokens ++ [comma joint]) =
      (insideOf r tokens).map fun p => (p.1, p.2 ++ [comma joint]) := by
  rw [insideOf, insideOf, splitClosing_append_comma]
  cases splitClosing 0 tokens with
  | none => rfl
  | some q =>
      rw [Option.map_some, Option.bind_some, Option.bind_some]
      rcases r.run q.1 with _ | ⟨a, _ | ⟨t, left⟩⟩ <;> rfl

theorem suffix_of_insideOf {r : Reading α} {a : α} (h : insideOf r tokens = some (a, rest)) :
    rest <:+ tokens := by
  obtain ⟨⟨content, after⟩, hsplit, hrun⟩ := Option.bind_eq_some_iff.1 h
  obtain ⟨b, rfl⟩ := eq_of_splitClosing hsplit
  split at hrun
  · cases hrun
    exact (List.suffix_cons _ _).trans (List.suffix_append _ _)
  · cases hrun

/-- **A group is regular,** whatever it contains. -/
instance regular_inside (b : Bracket) (r : Reading α) : Regular (inside b r) where
  suffix {tokens rest a} h := by
    rw [run_inside] at h
    obtain ⟨p, hopening, hinside⟩ := Option.bind_eq_some_iff.1 h
    have hfirst : Regular (readToken (· == Token.opening b)) := regular_readToken fun _ => rfl
    exact (suffix_of_insideOf hinside).trans (hfirst.suffix hopening)
  append_comma tokens joint := by
    have hfirst : Regular (readToken (· == Token.opening b)) := regular_readToken fun _ => rfl
    rw [run_inside, run_inside, hfirst.append_comma]
    cases (readToken (· == Token.opening b)).run tokens with
    | none => rfl
    | some p => exact insideOf_append_comma r joint

instance (b : Bracket) (r : Reading (List Token)) : Regular (readGroup b r) := by
  unfold readGroup
  infer_instance

instance : Regular readAnyGroup := by
  unfold readAnyGroup
  infer_instance

/-! ## Indices -/

/-- The index or two that a literal is; does a point wait for a member? -/
def indices? (text : List Char) : Option (List Token × Bool) :=
  match indexTexts? text with
  | some [a, []] => some ([.literal a, .mark '.' false], true)
  | some [a, b] => some ([.literal a, .mark '.' false, .literal b], false)
  | some [a] => some ([.literal a], false)
  | _ => none

theorem run_readIndices_literal (text : List Char) (tokens : List Token) :
    readIndices.run (.literal text :: tokens) = (indices? text).map fun p => (p, tokens) := by
  have hrun : readIndices.run (.literal text :: tokens) = (match indexTexts? text with
      | some [a, []] => do set tokens; return ([.literal a, .mark '.' false], true)
      | some [a, b] => do set tokens; return ([.literal a, .mark '.' false, .literal b], false)
      | some [a] => do set tokens; return ([.literal a], false)
      | _ => failure : Reading (List Token × Bool)).run (.literal text :: tokens) := rfl
  rw [hrun, indices?]
  rcases indexTexts? text with _ | ⟨_ | ⟨a, _ | ⟨_ | ⟨c, b⟩, _ | ⟨b', l⟩⟩⟩⟩ <;> rfl

/-- Before any other token, no index is taken. -/
theorem run_readIndices {t : Token} (h : t.isLiteral = false) (tokens : List Token) :
    readIndices.run (t :: tokens) = some (([], true), t :: tokens) := by
  cases t with
  | literal text => cases h
  | _ => rfl

instance : Regular readIndices where
  suffix {tokens rest a} h := by
    rcases tokens with _ | ⟨t, tokens⟩
    · cases h
      exact List.suffix_refl _
    · cases ht : t.isLiteral with
      | false =>
          rw [run_readIndices ht] at h
          cases h
          exact List.suffix_refl _
      | true =>
          cases t with
          | literal text =>
              rw [run_readIndices_literal] at h
              obtain ⟨p, -, heq⟩ := Option.map_eq_some_iff.1 h
              cases heq
              exact List.suffix_cons _ _
          | _ => cases ht
  append_comma tokens joint := by
    rcases tokens with _ | ⟨t, tokens⟩
    · rfl
    · cases t with
      | literal text =>
          rw [List.cons_append, run_readIndices_literal, run_readIndices_literal, Option.map_map]
          rfl
      | _ => rfl

instance : Regular readIndex := by
  unfold readIndex
  infer_instance

end Declaration
end Determinization
