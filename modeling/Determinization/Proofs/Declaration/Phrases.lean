import Determinization.Proofs.Declaration.Regular
import Mathlib.Data.List.Find
import Mathlib.Tactic.SplitIfs

/-!
# Types, expressions and attributes are read regularly

All readings of the grammar are regular (`regularUpTo`): wherever a type, an expression or
attributes end, they end in the same place if nothing follows and if only a comma follows.  The
readings call each other with a lower limit, and the proof is by induction on the limit for all of
them at once.  Most steps are found from the instances for their parts.  Three readings look for a
comma themselves and need a closer look.

* Between arguments in angle brackets a comma is taken.  If it was the last token, then the closing
  bracket is missing, as it was without the comma (`regular_comma_bind`).
* A range may have no end before a comma, nor before the end of the list.
* An operator that comes next is one of the table, and none of these has a comma.
-/

namespace Determinization
namespace Declaration

variable {α : Type} {tokens rest : List Token}

/-! ## Signs of the grammar -/

instance : HasNoComma ":" := ⟨by decide⟩

instance : HasNoComma "::" := ⟨by decide⟩

instance : HasNoComma "<" := ⟨by decide⟩

instance : HasNoComma ">" := ⟨by decide⟩

instance : HasNoComma "<=" := ⟨by decide⟩

instance : HasNoComma "<<=" := ⟨by decide⟩

instance : HasNoComma "=" := ⟨by decide⟩

instance : HasNoComma "&" := ⟨by decide⟩

instance : HasNoComma "*" := ⟨by decide⟩

instance : HasNoComma "!" := ⟨by decide⟩

instance : HasNoComma "!=" := ⟨by decide⟩

instance : HasNoComma "#" := ⟨by decide⟩

instance : HasNoComma "?" := ⟨by decide⟩

instance : HasNoComma "." := ⟨by decide⟩

instance : HasNoComma ".." := ⟨by decide⟩

instance : HasNoComma "..=" := ⟨by decide⟩

instance : HasNoComma "..." := ⟨by decide⟩

instance : HasNoComma ";" := ⟨by decide⟩

/-- No operator has a comma. -/
theorem hasNoComma_of_mem_operators {o : String × Level} (h : o ∈ operators) : HasNoComma o.1 := by
  have hall : ∀ o ∈ operators, ',' ∉ o.1.toList := by decide
  exact ⟨hall o h⟩

/-! ## What comes next -/

/-- Do a double colon and a token of this kind come next? -/
def areColonsAndNext (p : Token → Bool) (tokens : List Token) : Bool :=
  beginsWithMarks [':', ':'] tokens && ((tokens.drop 2).head?.map p).getD false

theorem areColonsAndNext_append_comma {p : Token → Bool} (h : ∀ joint, p (comma joint) = false)
    (tokens : List Token) (joint : Bool) :
    areColonsAndNext p (tokens ++ [comma joint]) = areColonsAndNext p tokens := by
  unfold areColonsAndNext
  rw [beginsWithMarks_append_comma (by decide)]
  cases hbegins : beginsWithMarks [':', ':'] tokens with
  | false => rfl
  | true =>
      have hlength : 2 ≤ tokens.length := length_le_of_beginsWithMarks hbegins
      rw [List.drop_append_of_le_length hlength, head?_any_append_comma h]

theorem regular_seesColonsAnd {p : Token → Bool} (h : ∀ joint, p (comma joint) = false) :
    Regular (seesColonsAnd p) :=
  regular_of_look (fun _ => rfl) (areColonsAndNext_append_comma h)

instance (inType : Bool) : Regular (seesArguments inType) := by
  have hcolons : Regular (seesColonsAnd fun t => match t with
      | .mark c _ => c == '<'
      | _ => false) := regular_seesColonsAnd fun _ => rfl
  unfold seesArguments
  infer_instance

instance : Regular (seesColonsAnd (· == .opening .round)) := regular_seesColonsAnd fun _ => rfl

/-- What comes next after an operand. -/
def continuation (tokens : List Token) : Continuation :=
  match operators.find? fun o => beginsWithMarks o.1.toList tokens with
  | some (sign, level) => .operator sign level
  | none =>
      if beginsWithMarks ['='] tokens && !beginsWithMarks ['=', '>'] tokens then .assignment
      else if beginsWithMarks ['.', '.'] tokens then .range
      else if (tokens.head?.map (Token.isWord "as")).getD false then .cast
      else .nothing

theorem run_seeContinuation (tokens : List Token) :
    seeContinuation.run tokens = some (continuation tokens, tokens) := by
  have hrun : seeContinuation.run tokens =
      (match operators.find? fun o => beginsWithMarks o.1.toList tokens with
        | some (sign, level) => return .operator sign level
        | none =>
            if beginsWithMarks ['='] tokens && !beginsWithMarks ['=', '>'] tokens then
              return .assignment
            else if beginsWithMarks ['.', '.'] tokens then return .range
            else if (tokens.head?.map (Token.isWord "as")).getD false then return .cast
            else return .nothing : Reading Continuation).run tokens := rfl
  rw [hrun, continuation]
  cases operators.find? fun o => beginsWithMarks o.1.toList tokens with
  | some o => rfl
  | none =>
      simp only
      split_ifs <;> rfl

theorem continuation_append_comma (tokens : List Token) (joint : Bool) :
    continuation (tokens ++ [comma joint]) = continuation tokens := by
  have hoperators : (operators.find? fun o =>
      beginsWithMarks o.1.toList (tokens ++ [comma joint])) =
        operators.find? fun o => beginsWithMarks o.1.toList tokens := by
    refine List.find?_congr fun o ho => ?_
    exact beginsWithMarks_append_comma (hasNoComma_of_mem_operators ho).not_mem joint
  rw [continuation, continuation, hoperators, beginsWithMarks_append_comma (by decide),
    beginsWithMarks_append_comma (by decide), beginsWithMarks_append_comma (by decide),
    head?_any_append_comma fun _ => rfl]

instance : Regular seeContinuation :=
  regular_of_look run_seeContinuation continuation_append_comma

/-- An operator that comes next is one of the table. -/
theorem hasNoComma_of_seeContinuation {sign : String} {level : Level}
    (h : seeContinuation.run tokens = some (.operator sign level, rest)) : HasNoComma sign := by
  rw [run_seeContinuation, Option.some.injEq, Prod.mk.injEq] at h
  have hnext := h.1
  unfold continuation at hnext
  split at hnext
  · rename_i sign' level' hfind
    cases hnext
    exact hasNoComma_of_mem_operators (List.mem_of_find?_eq_some hfind)
  · split_ifs at hnext

/-! ## Commas that are looked for -/

theorem suffix_of_readSign {sign : String} {a : List Token}
    (h : (readSign sign).run tokens = some (a, rest)) : rest <:+ tokens := by
  rw [run_readSign] at h
  split at h
  · cases h
    exact List.drop_suffix _ _
  · cases h

/-- Whether a comma is first does not depend on what else there is. -/
theorem beginsWithComma_append {tokens : List Token} (h : tokens ≠ []) (more : List Token) :
    beginsWithMarks [','] (tokens ++ more) = beginsWithMarks [','] tokens := by
  obtain ⟨t, tokens, rfl⟩ := List.exists_cons_of_ne_nil h
  cases t <;> rfl

theorem run_readComma (tokens : List Token) :
    (readSign ",").run tokens =
      if beginsWithMarks [','] tokens then some (tokens.take 1, tokens.drop 1) else none := by
  exact run_readSign "," tokens

/-- A reading after a comma that needs a token is as good as one after another sign: a comma at the
end is taken in vain. -/
theorem regular_comma_bind {r : Reading α} (hr : Regular r) (hnil : r.run [] = none) :
    Regular (readSign "," >>= fun _ => r) where
  suffix h := by
    obtain ⟨a, middle, hfirst, hsecond⟩ := exists_run_of_bind h
    exact (hr.suffix hsecond).trans (suffix_of_readSign hfirst)
  append_comma tokens joint := by
    rw [StateT.run_bind, StateT.run_bind, run_readComma, run_readComma]
    cases tokens with
    | nil => exact hnil
    | cons t tokens =>
        rw [beginsWithComma_append (List.cons_ne_nil t tokens)]
        split
        · exact hr.append_comma tokens joint
        · rfl

/-- Is this the end of the list, or of a range without an end? -/
def isRangeEnd (tokens : List Token) : Bool :=
  tokens.isEmpty || beginsWithMarks [','] tokens || beginsWithMarks [';'] tokens

theorem isRangeEnd_append_comma (tokens : List Token) (joint : Bool) :
    isRangeEnd (tokens ++ [comma joint]) = isRangeEnd tokens := by
  unfold isRangeEnd
  have hsemicolon : ',' ∉ [';'] := by decide
  rw [beginsWithMarks_append_comma hsemicolon]
  cases tokens with
  | nil => rfl
  | cons t tokens =>
      rw [beginsWithComma_append (List.cons_ne_nil t tokens)]
      rfl

instance : Regular seesRangeEnd := regular_of_look (fun _ => rfl) isRangeEnd_append_comma

/-- Is there an exclamation mark or a double colon after the first token? -/
def isSignAfterWord (tokens : List Token) : Bool :=
  beginsWithMarks ['!'] (tokens.drop 1) || beginsWithMarks [':', ':'] (tokens.drop 1)

theorem isSignAfterWord_append_comma (tokens : List Token) (joint : Bool) :
    isSignAfterWord (tokens ++ [comma joint]) = isSignAfterWord tokens := by
  unfold isSignAfterWord
  cases tokens with
  | nil => rfl
  | cons t tokens =>
      rw [List.cons_append, List.drop_one, List.drop_one, List.tail_cons, List.tail_cons,
        beginsWithMarks_append_comma (by decide), beginsWithMarks_append_comma (by decide)]

instance : Regular seesSignAfterWord := regular_of_look (fun _ => rfl) isSignAfterWord_append_comma

/-! ## Nothing is read at the end -/

theorem run_readPath_nil (limit : Nat) : (readPath limit true).run [] = none := by
  cases limit with
  | zero => rfl
  | succ limit =>
      have hleading : (readSign? "::").run [] = some ([], []) := by decide
      rw [readPath, StateT.run_bind, hleading]
      cases limit <;> rfl

theorem run_readType_nil (limit : Nat) : (readType limit).run [] = none := by
  cases limit with
  | zero => rfl
  | succ limit =>
      have hamp : (seesSign "&").run [] = some (false, []) := by decide
      have hstar : (seesSign "*").run [] = some (false, []) := by decide
      have hnever : (seesSign "!").run [] = some (false, []) := by decide
      have hround : (seesBracket .round).run [] = some (false, []) := rfl
      have hsquare : (seesBracket .square).run [] = some (false, []) := rfl
      have hhole : (seesWord "_").run [] = some (false, []) := rfl
      rw [readType]
      simp only [StateT.run_bind, hround, hsquare, hamp, hstar, hnever, hhole, run_readPath_nil,
        Option.bind_eq_bind, Option.bind_some, Option.bind_none, Bool.false_eq_true, if_false]

theorem run_readArgument_nil (limit : Nat) : (readArgument limit).run [] = none := by
  cases limit with
  | zero => rfl
  | succ limit =>
      have hlifetime : seesLifetime.run [] = some (false, []) := rfl
      have hconstant : seesConstant.run [] = some (false, []) := rfl
      rw [readArgument]
      simp only [StateT.run_bind, hlifetime, hconstant, run_readType_nil, Option.bind_eq_bind,
        Option.bind_some, Option.bind_none, Bool.false_eq_true, if_false]

theorem run_readArguments_nil (limit : Nat) : (readArguments limit).run [] = none := by
  cases limit with
  | zero => rfl
  | succ limit =>
      have hclosing : (seesSign ">").run [] = some (false, []) := by decide
      rw [readArguments]
      simp only [StateT.run_bind, hclosing, run_readArgument_nil, Option.bind_eq_bind,
        Option.bind_some, Option.bind_none, Bool.false_eq_true, if_false]

/-! ## All readings at once -/

/-- The readings with this limit are regular. -/
class RegularUpTo (limit : Nat) : Prop where
  argument : Regular (readArgument limit)
  arguments : Regular (readArguments limit)
  segment (inType : Bool) (further : List String) : Regular (readSegment limit inType further)
  segments (inType : Bool) : Regular (readSegments limit inType)
  path (inType : Bool) : Regular (readPath limit inType)
  type : Regular (readType limit)
  attributes : Regular (readAttributes limit)
  expression : Regular (readExpression limit)
  continued (lowest : Level) (left : Phrase ExpressionForm) :
    Regular (readContinued limit lowest left)
  operand (level : Level) : Regular (readOperand limit level)
  tighter (level : Level) (operand : Phrase ExpressionForm) :
    Regular (readTighter limit level operand)
  range : Regular (readRange limit)
  prefixed : Regular (readPrefixed limit)
  suffixes (e : List Token) : Regular (readSuffixes limit e)
  atom : Regular (readAtom limit)

attribute [instance] RegularUpTo.argument RegularUpTo.arguments RegularUpTo.segment
  RegularUpTo.segments RegularUpTo.path RegularUpTo.type RegularUpTo.attributes
  RegularUpTo.expression RegularUpTo.continued RegularUpTo.operand RegularUpTo.tighter
  RegularUpTo.range RegularUpTo.prefixed RegularUpTo.suffixes RegularUpTo.atom

theorem regularUpTo_zero : RegularUpTo 0 := by
  constructor <;> intros <;> exact regular_failure

/-- A reading that looks first and then goes on in one of two ways. -/
theorem regular_choice {look : Reading Bool} {r r' : Reading α} [Regular look] (hr : Regular r)
    (hr' : Regular r') : Regular (look >>= fun b => if b = true then r else r') :=
  inferInstance

section Step

variable {limit : Nat} [RegularUpTo limit]

/-- After an argument comes the end, or a comma and further arguments. -/
instance regular_afterArgument (a : Phrase ArgumentKind) : Regular (do
    if ← seesSign ">" then return [⟨a.form, a.tokens, false⟩]
    let _ ← readSign ","
    let more ← readArguments limit
    return ⟨a.form, a.tokens, true⟩ :: more) := by
  refine regular_choice inferInstance (regular_comma_bind inferInstance ?_)
  rw [StateT.run_bind, run_readArguments_nil]
  rfl

theorem regular_readArguments : Regular (readArguments (limit + 1)) := by
  rw [readArguments]
  exact regular_choice inferInstance inferInstance

theorem regular_readContinued (lowest : Level) (left : Phrase ExpressionForm) :
    Regular (readContinued (limit + 1) lowest left) := by
  rw [readContinued]
  dsimp only
  refine regular_bind_of inferInstance fun next tokens rest hnext => ?_
  split
  · infer_instance
  cases next with
  | operator sign level =>
      have hsign : HasNoComma sign := hasNoComma_of_seeContinuation hnext
      infer_instance
  | _ => infer_instance

theorem regular_readSuffixes (e : List Token) : Regular (readSuffixes (limit + 1) e) := by
  rw [readSuffixes]
  dsimp only
  refine regular_choice inferInstance (regular_choice inferInstance ?_)
  refine regular_choice inferInstance ?_
  refine regular_bind_of inferInstance fun _ _ _ _ => ?_
  refine regular_bind_of inferInstance fun _ _ _ _ => ?_
  split
  · refine regular_bind_of inferInstance fun _ _ _ _ => ?_
    refine regular_bind_of inferInstance fun _ _ _ _ => ?_
    split
    · infer_instance
    refine regular_choice inferInstance (regular_choice inferInstance ?_)
    infer_instance
  · infer_instance

theorem regularUpTo_succ : RegularUpTo (limit + 1) where
  argument := by
    rw [readArgument]
    dsimp only
    refine regular_choice inferInstance (regular_choice inferInstance ?_)
    infer_instance
  arguments := regular_readArguments
  segment inType further := by
    rw [readSegment]
    dsimp only
    infer_instance
  segments inType := by
    rw [readSegments]
    infer_instance
  path inType := by
    rw [readPath]
    dsimp only
    infer_instance
  type := by
    rw [readType]
    refine regular_choice inferInstance (regular_choice inferInstance ?_)
    refine regular_choice inferInstance (regular_choice inferInstance ?_)
    infer_instance
  attributes := by
    rw [readAttributes]
    infer_instance
  expression := by
    rw [readExpression]
    infer_instance
  continued := regular_readContinued
  operand level := by
    rw [readOperand]
    infer_instance
  tighter level operand := by
    rw [readTighter]
    infer_instance
  range := by
    rw [readRange]
    infer_instance
  prefixed := by
    rw [readPrefixed]
    refine regular_bind_of inferInstance fun _ _ _ _ => ?_
    refine regular_choice inferInstance ?_
    infer_instance
  suffixes := regular_readSuffixes
  atom := by
    rw [readAtom]
    refine regular_choice inferInstance (regular_choice inferInstance ?_)
    refine regular_choice inferInstance (regular_choice inferInstance ?_)
    infer_instance

end Step

/-- **All readings of the grammar are regular.** -/
instance regularUpTo : ∀ limit, RegularUpTo limit
  | 0 => regularUpTo_zero
  | limit + 1 =>
      have := regularUpTo limit
      regularUpTo_succ

end Declaration
end Determinization
