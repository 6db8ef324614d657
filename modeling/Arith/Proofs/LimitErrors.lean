import Arith.Proofs.Faults.Limits
import Arith.Proofs.Parser.Answers

/-! Which limit is reported, and where: of the limits that are exceeded the one whose
place is found first.
-/

set_option autoImplicit false

namespace Arith

theorem parseTree_eq_error_iff_head (phrase : Phrase .expression) (cause : ParseError) :
    parseTree phrase.tokens = .error cause ↔
      ∃ fault others, phrase.faults 0 0 = fault :: others ∧ fault.cause = cause := by
  rw [parseTree_tokens]
  cases phrase.faults 0 0 with
  | nil => simp
  | cons fault others => simp

/-- The error is among the faults of whatever part is read first. -/
theorem parseTree_of_faults {phrase : Phrase .expression} {first others : List Fault}
    (split : phrase.faults 0 0 = first ++ others) (faulty : first ≠ []) :
    ∃ fault ∈ first, parseTree phrase.tokens = .error fault.cause := by
  obtain ⟨fault, more, rfl⟩ := List.exists_cons_of_ne_nil faulty
  refine ⟨fault, List.mem_cons_self, ?_⟩
  rw [parseTree_eq_error_iff_head]
  exact ⟨fault, more ++ others, split, rfl⟩

/-- Of the limits that an expression exceeds, the one is reported that is found first. -/
theorem parseTree_eq_error_iff (phrase : Phrase .expression) (cause : ParseError) :
    parseTree phrase.tokens = .error cause ↔
      ∃ limit point, Limit.Detected phrase limit cause point ∧
        ∀ other, other ≠ limit → ∀ otherCause otherPoint,
          Limit.Detected phrase other otherCause otherPoint → point < otherPoint := by
  rw [parseTree_eq_error_iff_head]
  constructor
  · intro reported
    obtain ⟨fault, others, here, same⟩ := reported
    subst same
    obtain ⟨limit, first⟩ := Limit.detected_of_head here
    refine ⟨limit, fault.point, first, ?_⟩
    intro other different otherCause otherPoint detected
    exact detected.later here first different
  · intro firstDetected
    obtain ⟨limit, point, detected, earliest⟩ := firstDetected
    have faulty := List.ne_nil_of_mem detected.mem_faults
    obtain ⟨fault, others, here⟩ := List.exists_cons_of_ne_nil faulty
    obtain ⟨actual, first⟩ := Limit.detected_of_head here
    refine ⟨fault, others, here, ?_⟩
    by_cases same : actual = limit
    · subst same
      exact first.cause_unique detected
    · -- Then either would have been found before the other.
      have before := earliest actual same _ _ first
      have after := detected.later here first (Ne.symm same)
      omega

theorem parseTree_of_only {phrase : Phrase .expression} {limit : Limit} {cause : ParseError}
    {point : Nat} (detected : Limit.Detected phrase limit cause point)
    (only : ∀ other, Limit.Violated phrase other → other = limit) :
    parseTree phrase.tokens = .error cause := by
  apply (parseTree_eq_error_iff phrase cause).mpr
  refine ⟨limit, point, detected, ?_⟩
  intro other different otherCause otherPoint otherDetected
  exact absurd (only other otherDetected.violated) different

theorem parseTree_nestingTooDeep {tokens : List Token} {position : Nat}
    (error : parseTree tokens = .error (.nestingTooDeep position)) :
    OpensTooDeepAt tokens position ∧
      ∀ earlier, earlier < position → ¬ OpensTooDeepAt tokens earlier := by
  obtain ⟨read, ahead, rfl, clean, rejected⟩ := parseTree_error error
  cases rejected with
  | stuck stuck =>
      cases stuck with
      | tooNested awaits full =>
          refine ⟨⟨look_middle, ?_⟩, ?_⟩
          · rw [List.take_left]
            exact full
          · intro earlier less
            rw [opensTooDeepAt_append less]
            exact clean.nesting earlier

theorem parseTree_literalTooLarge {tokens : List Token} {start : Nat}
    (error : parseTree tokens = .error (.literalTooLarge start)) :
    TooLargeAt tokens start ∧ ∀ earlier, earlier < start → ¬ TooLargeAt tokens earlier := by
  obtain ⟨read, ahead, rfl, clean, rejected⟩ := parseTree_error error
  cases rejected with
  | stuck stuck =>
      cases stuck with
      | @tooLarge behind digits awaits ends large =>
          simp only [tooLargeAt_append awaits]
          refine ⟨.inr ⟨0, rfl, digits, digitRun_ahead ?_ ends, large⟩, ?_⟩
          · rintro rfl
            exact absurd large (Nat.not_lt.mpr (Nat.zero_le _))
          · intro earlier less tooLarge
            rcases tooLarge with before | ⟨offset, rfl, -⟩
            · exact clean.literals earlier before
            · omega

theorem parseTree_expressionTooDeep {phrase : Phrase .expression} {position : Nat}
    (error : parseTree phrase.tokens = .error (.expressionTooDeep position)) :
    ∃ node, (phrase.tree 0).subtrees.find? Tree.isTooDeep = some node ∧
      node.position = position ∧ node.height = maxTreeDepth + 1 := by
  obtain ⟨limit, point, detected, -⟩ := (parseTree_eq_error_iff phrase _).mp error
  cases detected with
  | @depth node stop first =>
      have inTree := phrase.find?_subtrees 0
      rw [first, Option.map_some] at inTree
      exact ⟨node, inTree, rfl, Tree.height_of_find? inTree⟩

/-- A limit error names the first place where its limit is exceeded, and it is given just
where no other limit is found to be exceeded earlier. -/
theorem limit_errors_exact (tokens : List Token) :
    (∀ position, parseTree tokens = .error (.nestingTooDeep position) →
      OpensTooDeepAt tokens position ∧
        ∀ earlier, earlier < position → ¬ OpensTooDeepAt tokens earlier) ∧
    (∀ start, parseTree tokens = .error (.literalTooLarge start) →
      TooLargeAt tokens start ∧ ∀ earlier, earlier < start → ¬ TooLargeAt tokens earlier) ∧
    ∀ phrase : Phrase .expression, phrase.tokens = tokens →
      (∀ position, parseTree tokens = .error (.expressionTooDeep position) →
        ∃ node, (phrase.tree 0).subtrees.find? Tree.isTooDeep = some node ∧
          node.position = position ∧ node.height = maxTreeDepth + 1) ∧
      (∀ limit, Limit.Violated phrase limit →
        (∀ other, Limit.Violated phrase other → other = limit) →
          ∃ cause point, Limit.Detected phrase limit cause point ∧
            parseTree tokens = .error cause) ∧
      ∀ cause, parseTree tokens = .error cause ↔
        ∃ limit point, Limit.Detected phrase limit cause point ∧
          ∀ other, other ≠ limit → ∀ otherCause otherPoint,
            Limit.Detected phrase other otherCause otherPoint → point < otherPoint := by
  refine ⟨fun _ => parseTree_nestingTooDeep, fun _ => parseTree_literalTooLarge, ?_⟩
  intro phrase same
  subst same
  refine ⟨fun _ => parseTree_expressionTooDeep, ?_, parseTree_eq_error_iff phrase⟩
  intro limit violated only
  obtain ⟨cause, point, detected⟩ := Limit.detected_of_violated violated
  exact ⟨cause, point, detected, parseTree_of_only detected only⟩

end Arith
