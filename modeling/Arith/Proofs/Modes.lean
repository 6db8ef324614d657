import Arith.Command.Run
import Arith.Proofs.Inorder
import Arith.Proofs.Readback
import Arith.Proofs.RoundTrip

/-! The modes of the command against each other.

A source is given as it is or in a file, its tokens are listed or not, and either its tree
is asked for or its value. Where there is no tree there is no value, for the same reason.
Where there is a value, the printed tree has it over the unbounded integers, and a tree
without a value fails at one of the operators of the source.
-/

set_option autoImplicit false

namespace Arith

def IsLine (text : String) : Prop :=
  ∃ content : String, '\n' ∉ content.toList ∧ text = content ++ "\n"

theorem newline_not_mem_repr (value : Nat) : '\n' ∉ value.repr.toList := by
  intro member
  rw [Nat.toList_repr] at member
  have digit := Nat.isDigit_of_mem_toDigits (by decide) (by decide) member
  exact absurd digit (by decide)

theorem newline_not_mem_toString (value : Int) : '\n' ∉ (toString value).toList := by
  rw [Int.toString_eq_repr, Int.repr_eq_if]
  split
  · exact newline_not_mem_repr _
  · have sign : "-".toList = ['-'] := by decide
    rw [String.toList_append, sign, List.singleton_append, List.mem_cons, not_or]
    exact ⟨by decide, newline_not_mem_repr _⟩

theorem toString_inj {first second : Int} (same : toString first = toString second) :
    first = second := by
  have readFirst := readInt_toString first endsNumeral_nil
  have readSecond := readInt_toString second endsNumeral_nil
  rw [same, readSecond] at readFirst
  exact (Prod.mk.inj readFirst).1.symm

theorem Expr.newline_not_mem_prefixForm (expr : Expr) : '\n' ∉ expr.prefixForm.toList := by
  induction expr with
  | literal value position => exact newline_not_mem_toString value.toInt
  | operation op left right position ihl ihr =>
      have symbol : '\n' ≠ op.symbol := by cases op <;> decide
      have spelled := toList_prefixForm_operation op left right position []
      rw [List.append_nil] at spelled
      simp [spelled, symbol, ihl, ihr]

theorem Token.newline_not_mem_kindName (token : Token) : '\n' ∉ token.kindName.toList := by
  cases token with
  | operator op => cases op <;> decide
  | _ => simp only [kindName]; decide

namespace Command

theorem isLine_tokenLine (tokens : List Token) : IsLine (tokenLine tokens) := by
  refine ⟨_, ?_, rfl⟩
  induction tokens with
  | nil => decide
  | cons token rest ih =>
      rw [List.map_cons]
      cases rest with
      | nil =>
          rw [List.map_nil, String.intercalate_singleton]
          exact token.newline_not_mem_kindName
      | cons next others =>
          rw [String.intercalate_cons_of_ne_nil (by simp), String.toList_append,
            String.toList_append, List.mem_append, List.mem_append, not_or, not_or]
          exact ⟨⟨token.newline_not_mem_kindName, by decide⟩, ih⟩

def listing (listTokens : Bool) (source : String) : String :=
  if listTokens then tokenLine (lex source) else ""

def Options.source? (options : Options) (file : Except ReadError String) :
    Except ReadError String :=
  if options.file then file else .ok options.contents

theorem run_of_source {options : Options} {file : Except ReadError String} {source : String}
    (given : options.source? file = .ok source) :
    run options file = runSource options.tree options.tokens source := by
  simp only [Options.source?] at given
  rw [run, given]

structure Output.Settled (before : String) (output : Output) : Prop where
  code : output.exitCode = 0 ∨ output.exitCode = 2
  quiet : output.exitCode = 0 ↔ output.stderr = ""
  answered : output.exitCode = 0 → ∃ line, IsLine line ∧ output.stdout = before ++ line
  unanswered : output.exitCode = 2 → output.stdout = before

/-- How what is printed for the tree of a sequence and for its value go together. What is
printed for the tree is read back, so it is the text alone that has the value. -/
structure ModesAgree (tokens : List Token) (before : String) (ofTree ofValue : Output) :
    Prop where
  rejected : ofTree.exitCode = 2 → ofValue.exitCode = 2 ∧ ofValue.stderr = ofTree.stderr
  printed : ofValue.exitCode = 0 →
    ∃ value : Int, ofValue.stdout = before ++ toString value ++ "\n"
  valued : ∀ value : Int, ofValue.stdout = before ++ toString value ++ "\n" →
    ofTree.exitCode = 0 ∧ ∃ text expr, ofTree.stdout = before ++ text ++ "\n" ∧
      Expr.readPrefix text.toList = some (expr, []) ∧ expr.tree.Evaluates value
  failed : ofTree.exitCode = 0 → ofValue.exitCode = 2 → ∃ text expr cause index,
    ofTree.stdout = before ++ text ++ "\n" ∧
      Expr.readPrefix text.toList = some (expr, []) ∧
      ofValue.stderr = (ParseError.evaluation cause).message ++ "\n" ∧
      tokens[cause.position]? = some (.operator cause.operator) ∧
      expr.tree.FailsAt index (cause.mapPosition fun _ => 0)

inductive Answers (tokens : List Token) :
    Except ParseError String → Except ParseError String → Prop where
  | rejected (cause : ParseError) : Answers tokens (.error cause) (.error cause)
  | valued {expr : Expr} {value : Int64} :
      expr.evaluate = .ok value →
      Answers tokens (.ok expr.prefixForm) (.ok (toString value.toInt))
  | failed {expr : Expr} {cause : EvalError} :
      expr.evaluate = .error cause → tokens[cause.position]? = some (.operator cause.operator) →
      Answers tokens (.ok expr.prefixForm) (.error (.evaluation cause))

def Output.ofAnswer (before : String) : Except ParseError String → Output
  | .ok text => ⟨0, before ++ text ++ "\n", ""⟩
  | .error cause => ⟨2, before, cause.message ++ "\n"⟩

theorem runSource_eq (tree listTokens : Bool) (source : String) :
    runSource tree listTokens source =
      .ofAnswer (listing listTokens source) (answer tree (lex source)) := by
  rfl

theorem line_ne_empty (text : String) : text ++ "\n" ≠ "" := by
  intro same
  have chars := congrArg String.toList same
  simp at chars

theorem before_ne_answered (before text : String) : before ≠ before ++ text ++ "\n" := by
  intro same
  have lengths := congrArg String.length same
  simp only [String.length_append] at lengths
  have feed : "\n".length = 1 := by decide
  omega

theorem Output.settled_ofAnswer (before : String) {result : Except ParseError String}
    (plain : ∀ text, result = .ok text → '\n' ∉ text.toList) :
    (Output.ofAnswer before result).Settled before := by
  cases result with
  | ok text =>
      refine ⟨.inl rfl, ⟨fun _ => rfl, fun _ => rfl⟩, fun _ => ?_, nofun⟩
      exact ⟨text ++ "\n", ⟨text, plain text rfl, rfl⟩, String.append_assoc⟩
  | error cause =>
      refine ⟨.inr rfl, ⟨nofun, ?_⟩, nofun, fun _ => rfl⟩
      intro silent
      exact absurd silent (line_ne_empty _)

theorem Output.ofAnswer_listed (before : String) (result : Except ParseError String) :
    Output.ofAnswer before result =
      { Output.ofAnswer "" result with stdout := before ++ (Output.ofAnswer "" result).stdout } := by
  cases result with
  | ok text => simp only [ofAnswer, String.empty_append, String.append_assoc]
  | error cause => simp only [ofAnswer, String.append_empty]

theorem operator_of_failed {tokens : List Token} {expr : Expr} {cause : EvalError}
    (accepted : parseTree tokens = .ok expr) (failed : expr.evaluate = .error cause) :
    tokens[cause.position]? = some (.operator cause.operator) := by
  obtain ⟨phrase, rfl⟩ := parseTree_ok accepted
  have same := ((parseTree_eq_ok_iff_phrase phrase expr).mp accepted).2
  exact ((phrase.inSourceOrder same).operations _ _).mp (Expr.mem_inorder_of_error failed)

theorem answers (tokens : List Token) :
    Answers tokens (answer true tokens) (answer false tokens) := by
  simp only [answer, if_true, Bool.false_eq_true, if_false]
  cases accepted : parseTree tokens with
  | error cause =>
      rw [parse, accepted]
      exact .rejected cause
  | ok expr =>
      rw [parse_of_parseTree accepted]
      cases result : expr.evaluate with
      | ok value => exact .valued result
      | error cause => exact .failed result (operator_of_failed accepted result)

theorem Answers.plain {tokens : List Token} {ofTree ofValue : Except ParseError String}
    (answers : Answers tokens ofTree ofValue) :
    (∀ text, ofTree = .ok text → '\n' ∉ text.toList) ∧
    ∀ text, ofValue = .ok text → '\n' ∉ text.toList := by
  cases answers with
  | rejected cause => exact ⟨nofun, nofun⟩
  | @valued expr value evaluated =>
      refine ⟨?_, ?_⟩
      · rintro _ ⟨⟩
        exact expr.newline_not_mem_prefixForm
      · rintro _ ⟨⟩
        exact newline_not_mem_toString value.toInt
  | @failed expr cause failed located =>
      refine ⟨?_, nofun⟩
      rintro _ ⟨⟩
      exact expr.newline_not_mem_prefixForm

theorem newline_not_mem_answer {tree : Bool} {tokens : List Token} {text : String}
    (answered : answer tree tokens = .ok text) : '\n' ∉ text.toList := by
  cases tree with
  | true => exact (answers tokens).plain.1 text answered
  | false => exact (answers tokens).plain.2 text answered

theorem readPrefix_printed (expr : Expr) :
    Expr.readPrefix expr.prefixForm.toList = some (expr.mapPositions fun _ => 0, []) := by
  have read := expr.readPrefix_prefixForm endsNumeral_nil
  rwa [List.append_nil] at read

theorem Answers.agree {tokens : List Token} {ofTree ofValue : Except ParseError String}
    (answers : Answers tokens ofTree ofValue) (before : String) :
    ModesAgree tokens before (.ofAnswer before ofTree) (.ofAnswer before ofValue) := by
  cases answers with
  | rejected cause =>
      refine ⟨fun _ => ⟨rfl, rfl⟩, nofun, ?_, nofun⟩
      intro value printed
      exact absurd printed (before_ne_answered before (toString value))
  | @valued expr word evaluated =>
      refine ⟨nofun, fun _ => ⟨_, rfl⟩, ?_, nofun⟩
      intro value printed
      rw [Output.ofAnswer, String.append_left_inj, String.append_right_inj] at printed
      obtain rfl := toString_inj printed
      refine ⟨rfl, _, _, rfl, readPrefix_printed expr, ?_⟩
      rw [expr.tree_mapPositions, Tree.evaluates_mapPositions]
      exact (expr.evaluate_eq_ok_iff word).mp evaluated
  | @failed expr cause failed located =>
      refine ⟨nofun, nofun, ?_, ?_⟩
      · intro value printed
        exact absurd printed (before_ne_answered before (toString value))
      · intro _ _
        obtain ⟨index, failsAt⟩ := (expr.evaluate_eq_error_iff_failsAt cause).mp failed
        refine ⟨_, _, cause, index, rfl, readPrefix_printed expr, rfl, located, ?_⟩
        rw [expr.tree_mapPositions]
        exact failsAt.mapPositions

/-- Where the source comes from makes no difference, a listing of the tokens only comes in
front, and the answers for the tree and for the value belong together. -/
theorem modes_exact (options : Options) (file : Except ReadError String) :
    (∀ cause, options.source? file = .error cause →
      run options file =
        ⟨1, "", s!"Failed to read the input file '{options.contents}': {cause.reason}\n"⟩) ∧
    ∀ source, options.source? file = .ok source →
      (∀ other, run options file = run ⟨false, options.tree, options.tokens, source⟩ other) ∧
      (run options file).Settled (listing options.tokens source) ∧
      IsLine (tokenLine (lex source)) ∧
      (run { options with tokens := true } file =
        { run { options with tokens := false } file with
          stdout := tokenLine (lex source) ++
            (run { options with tokens := false } file).stdout }) ∧
      ModesAgree (lex source) (listing options.tokens source)
        (run { options with tree := true } file) (run { options with tree := false } file) := by
  refine ⟨?_, ?_⟩
  · intro cause unread
    simp only [Options.source?] at unread
    rw [run, unread]
  · intro source given
    -- what is to be read does not depend on what is asked for
    have runs (tree tokens : Bool) :
        run { options with tree := tree, tokens := tokens } file =
          runSource tree tokens source := by
      have asked : Options.source? { options with tree := tree, tokens := tokens } file =
          .ok source := given
      exact run_of_source asked
    refine ⟨?_, ?_, isLine_tokenLine _, ?_, ?_⟩
    · intro other
      exact run_of_source given
    · rw [run_of_source given, runSource_eq]
      exact Output.settled_ofAnswer _ fun _ => newline_not_mem_answer
    · rw [runs options.tree true, runs options.tree false, runSource_eq, runSource_eq]
      exact Output.ofAnswer_listed _ _
    · rw [runs true options.tokens, runs false options.tokens, runSource_eq, runSource_eq]
      exact (answers (lex source)).agree _

theorem modes_failing_quotient :
    Options.source? ⟨true, false, true, "missing"⟩ (.error .notFound) = .error .notFound ∧
    run ⟨true, false, true, "missing"⟩ (.error .notFound) =
      ⟨1, "", "Failed to read the input file 'missing': No such file or directory (os error 2)\n"⟩ ∧
    Options.source? ⟨true, true, false, "quotient"⟩ (.ok "(8/0)*12") = .ok "(8/0)*12" ∧
    run ⟨true, true, false, "quotient"⟩ (.ok "(8/0)*12") = ⟨0, "(* (/ 8 0) 12)\n", ""⟩ ∧
    run ⟨true, false, false, "quotient"⟩ (.ok "(8/0)*12") =
      ⟨2, "", "Error at token 2: Division by zero.\n"⟩ ∧
    (∃ text expr cause index, "(* (/ 8 0) 12)\n" = "" ++ text ++ "\n" ∧
      Expr.readPrefix text.toList = some (expr, []) ∧
      "Error at token 2: Division by zero.\n" =
        (ParseError.evaluation cause).message ++ "\n" ∧
      (lex "(8/0)*12")[cause.position]? = some (.operator cause.operator) ∧
      expr.tree.FailsAt index (cause.mapPosition fun _ => 0)) ∧
    Options.source? ⟨false, false, false, "2*(7+1)"⟩ (.error .notFound) = .ok "2*(7+1)" ∧
    (run ⟨false, false, false, "2*(7+1)"⟩ (.error .notFound)).stdout =
      "" ++ toString (16 : Int) ++ "\n" ∧
    ∃ text expr, (run ⟨false, true, false, "2*(7+1)"⟩ (.error .notFound)).stdout =
        "" ++ text ++ "\n" ∧
      Expr.readPrefix text.toList = some (expr, []) ∧ expr.tree.Evaluates 16 := by
  have unread := (modes_exact ⟨true, false, true, "missing"⟩ (.error .notFound)).1 _ rfl
  have printed : run ⟨true, true, false, "quotient"⟩ (.ok "(8/0)*12") =
      ⟨0, "(* (/ 8 0) 12)\n", ""⟩ := by decide +kernel
  have refused : run ⟨true, false, false, "quotient"⟩ (.ok "(8/0)*12") =
      ⟨2, "", "Error at token 2: Division by zero.\n"⟩ := by decide +kernel
  obtain ⟨-, -, -, -, quotient⟩ :=
    (modes_exact ⟨true, true, false, "quotient"⟩ (.ok "(8/0)*12")).2 _ rfl
  rw [printed, refused] at quotient
  have sixteen : (run ⟨false, false, false, "2*(7+1)"⟩ (.error .notFound)).stdout =
      "" ++ toString (16 : Int) ++ "\n" := by decide +kernel
  obtain ⟨-, -, -, -, product⟩ :=
    (modes_exact ⟨false, false, false, "2*(7+1)"⟩ (.error .notFound)).2 _ rfl
  exact ⟨rfl, unread, rfl, printed, refused, quotient.failed rfl rfl, rfl, sixteen,
    (product.valued 16 sixteen).2⟩

end Command

end Arith
