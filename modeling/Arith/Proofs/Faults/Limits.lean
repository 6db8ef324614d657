import Arith.Proofs.Faults.Meaning
import Mathlib.Data.Nat.Find

/-! The three limits, and the first place where an expression exceeds each.

That is the first run of digits that is too large, the first parenthesis that opens too
far in, the first node that is too deep. The first fault is one of these places, and
every other of them is found later.
-/

set_option autoImplicit false

namespace Arith

inductive Limit where
  | literals
  | nesting
  | depth
  deriving DecidableEq, Repr

namespace Limit

def Violated (phrase : Phrase .expression) : Limit → Prop
  | .literals => ∃ start, TooLargeAt phrase.tokens start
  | .nesting => ∃ position, OpensTooDeepAt phrase.tokens position
  | .depth => maxTreeDepth < (phrase.tree 0).height

/-- The error for the first place where the limit is exceeded, and the index at which
that is found: at the digit that is one too many, at the parenthesis, or right behind
the right operand of the node. -/
inductive Detected (phrase : Phrase .expression) : Limit → ParseError → Nat → Prop where
  | literals {start i : Nat} {digits : List UInt8} (run : DigitRun phrase.tokens start digits)
      (grows : GrowsTooLargeAt digits i)
      (first : ∀ earlier, earlier < start → ¬ TooLargeAt phrase.tokens earlier) :
      Detected phrase .literals (.literalTooLarge start) (start + i)
  | nesting {position : Nat} (deep : OpensTooDeepAt phrase.tokens position)
      (first : ∀ earlier, earlier < position → ¬ OpensTooDeepAt phrase.tokens earlier) :
      Detected phrase .nesting (.nestingTooDeep position) position
  | depth {node : Tree} {stop : Nat}
      (first : (phrase.nodes 0).find? (fun node => node.1.isTooDeep) = some (node, stop)) :
      Detected phrase .depth (.expressionTooDeep node.position) stop

end Limit

def ParseError.limit? : ParseError → Option Limit
  | .literalTooLarge _ => some .literals
  | .nestingTooDeep _ => some .nesting
  | .expressionTooDeep _ => some .depth
  | _ => none

theorem Tree.height_of_find? {tree node : Tree}
    (first : tree.subtrees.find? isTooDeep = some node) : node.height = maxTreeDepth + 1 := by
  induction tree with
  | literal value position =>
      have deep := List.find?_some first
      have same := List.mem_singleton.mp (List.mem_of_find?_eq_some first)
      rw [same] at deep
      cases deep
  | operation op left right position ihl ihr =>
      simp only [subtrees, List.find?_append, Option.or_eq_some_iff] at first
      rcases first with (inLeft | ⟨noneLeft, inRight⟩) | ⟨noneInside, self⟩
      · exact ihl inLeft
      · exact ihr inRight
      · -- No operand is too deep, so the node exceeds the limit by its own level only.
        obtain ⟨noneLeft, noneRight⟩ := Option.or_eq_none_iff.mp noneInside
        have shallowLeft := List.find?_eq_none.mp noneLeft _ left.mem_subtrees_self
        have shallowRight := List.find?_eq_none.mp noneRight _ right.mem_subtrees_self
        have deep := List.find?_some self
        have same := List.mem_singleton.mp (List.mem_of_find?_eq_some self)
        subst same
        rw [isTooDeep_iff] at shallowLeft shallowRight deep
        unfold height at deep ⊢
        omega

namespace Limit

variable {phrase : Phrase .expression} {limit : Limit} {cause : ParseError} {point : Nat}

theorem Detected.mem_faults (detected : Detected phrase limit cause point) :
    ⟨cause, point⟩ ∈ phrase.faults 0 0 := by
  cases detected with
  | literals run grows first =>
      exact (phrase.mem_faults_literal_iff _ _).mpr ⟨_, _, run, grows, rfl⟩
  | nesting deep first => exact (phrase.mem_faults_nesting_iff _ _).mpr ⟨rfl, deep⟩
  | depth first =>
      have found := phrase.find?_faults_depth 0 0
      rw [first, Option.map_some] at found
      exact List.mem_of_find?_eq_some found

theorem detected_of_head {fault : Fault} {others : List Fault}
    (here : phrase.faults 0 0 = fault :: others) :
    ∃ limit, Detected phrase limit fault.cause fault.point := by
  have sorted := phrase.faults_pairwise 0 0
  have member : fault ∈ phrase.faults 0 0 := by
    rw [here]
    exact List.mem_cons_self
  rw [here] at sorted
  have precedes := (List.pairwise_cons.mp sorted).1
  -- No fault is found earlier.
  have least : ∀ other ∈ phrase.faults 0 0, fault.point ≤ other.point := by
    intro other inFaults
    rw [here] at inFaults
    rcases List.mem_cons.mp inFaults with rfl | behind
    · exact Nat.le_refl _
    · rcases precedes other behind with less | ⟨same, -⟩
      · exact Nat.le_of_lt less
      · exact Nat.le_of_eq same
  obtain ⟨cause, point⟩ := fault
  -- Whatever exceeded the same limit before would be a fault found earlier.
  rcases Phrase.faults_cause member with ⟨start, rfl⟩ | ⟨position, rfl⟩ | depth
  · obtain ⟨digits, i, run, grows, rfl⟩ := (phrase.mem_faults_literal_iff start point).mp member
    refine ⟨.literals, .literals run grows ?_⟩
    intro earlier less tooLarge
    obtain ⟨others, otherRun, large⟩ := tooLarge
    obtain ⟨j, otherGrows⟩ := exists_growsTooLarge large
    have apart := otherRun.lt_of_start_lt run less
    have bound := otherGrows.bound
    have notBefore := least _
      ((phrase.mem_faults_literal_iff earlier _).mpr ⟨others, j, otherRun, otherGrows, rfl⟩)
    simp only at notBefore
    omega
  · obtain ⟨rfl, deep⟩ := (phrase.mem_faults_nesting_iff position point).mp member
    refine ⟨.nesting, .nesting deep ?_⟩
    intro earlier less otherDeep
    have notBefore := least _ ((phrase.mem_faults_nesting_iff earlier _).mpr ⟨rfl, otherDeep⟩)
    simp only at notBefore
    omega
  · have found := phrase.find?_faults_depth 0 0
    rw [here, List.find?_cons_of_pos depth, eq_comm, Option.map_eq_some_iff] at found
    obtain ⟨⟨node, stop⟩, first, same⟩ := found
    cases same
    exact ⟨.depth, .depth first⟩

theorem detected_of_violated (violated : limit.Violated phrase) :
    ∃ cause point, Detected phrase limit cause point := by
  classical
  cases limit with
  | literals =>
      obtain ⟨start, ⟨digits, run, large⟩, first⟩ := Nat.findX violated
      obtain ⟨i, grows⟩ := exists_growsTooLarge large
      exact ⟨_, _, .literals run grows fun earlier less => first earlier less⟩
  | nesting =>
      obtain ⟨position, deep, first⟩ := Nat.findX violated
      exact ⟨_, _, .nesting deep fun earlier less => first earlier less⟩
  | depth =>
      have inTree := phrase.find?_subtrees 0
      cases found : (phrase.nodes 0).find? fun node => node.1.isTooDeep with
      | none =>
          rw [found, Option.map_none, List.find?_eq_none] at inTree
          have shallow := inTree _ (phrase.tree 0).mem_subtrees_self
          exact absurd ((phrase.tree 0).isTooDeep_iff.mpr violated) shallow
      | some node => exact ⟨_, _, .depth found⟩

theorem Detected.violated (detected : Detected phrase limit cause point) :
    limit.Violated phrase := by
  cases detected with
  | literals run grows first => exact ⟨_, _, run, grows.too_large⟩
  | nesting deep first => exact ⟨_, deep⟩
  | @depth node stop first =>
      have inTree := phrase.find?_subtrees 0
      rw [first, Option.map_some] at inTree
      have bound := Tree.height_le_of_mem (List.mem_of_find?_eq_some inTree)
      have deep := Tree.height_of_find? inTree
      unfold Violated
      omega

theorem Detected.cause_unique {otherCause : ParseError} {otherPoint : Nat}
    (detected : Detected phrase limit cause point)
    (other : Detected phrase limit otherCause otherPoint) : cause = otherCause := by
  cases detected with
  | @literals start i digits run grows first =>
      cases other with
      | @literals otherStart j others otherRun otherGrows otherFirst =>
          rcases Nat.lt_trichotomy start otherStart with less | same | greater
          · exact absurd ⟨digits, run, grows.too_large⟩ (otherFirst start less)
          · rw [same]
          · exact absurd ⟨others, otherRun, otherGrows.too_large⟩ (first otherStart greater)
  | nesting deep first =>
      cases other with
      | nesting otherDeep otherFirst =>
          rcases Nat.lt_trichotomy point otherPoint with less | same | greater
          · exact absurd deep (otherFirst point less)
          · rw [same]
          · exact absurd otherDeep (first otherPoint greater)
  | depth first =>
      cases other with
      | depth otherFirst =>
          rw [first] at otherFirst
          cases otherFirst
          rfl

theorem Detected.limit?_cause (detected : Detected phrase limit cause point) :
    cause.limit? = some limit := by
  cases detected with
  | literals | nesting | depth => rfl

theorem Detected.later {fault : Fault} {others : List Fault} {other : Limit}
    (detected : Detected phrase other cause point) (here : phrase.faults 0 0 = fault :: others)
    (first : Detected phrase limit fault.cause fault.point) (different : other ≠ limit) :
    fault.point < point := by
  have sorted := phrase.faults_pairwise 0 0
  have member := detected.mem_faults
  have ownLimit := first.limit?_cause
  have otherLimit := detected.limit?_cause
  rw [here] at sorted member
  rcases List.mem_cons.mp member with same | behind
  · rw [← same, otherLimit] at ownLimit
    exact absurd (Option.some.inj ownLimit) different
  · rcases (List.pairwise_cons.mp sorted).1 _ behind with less | ⟨-, depth, otherDepth⟩
    · exact less
    · have bothDeep : ∀ fault : Fault, fault.isDepth = true → fault.cause.limit? = some .depth := by
        intro fault isDepth
        unfold Fault.isDepth at isDepth
        split at isDepth
        · rfl
        · cases isDepth
      rw [bothDeep _ depth] at ownLimit
      have otherDeep := bothDeep _ otherDepth
      rw [otherLimit, ownLimit] at otherDeep
      exact absurd (Option.some.inj otherDeep) different

end Limit

/-- A phrase has no fault exactly when it keeps all limits. -/
theorem Phrase.faults_eq_nil_iff (phrase : Phrase .expression) :
    phrase.faults 0 0 = [] ↔ ∀ limit, ¬ Limit.Violated phrase limit := by
  constructor
  · intro faultless limit violated
    obtain ⟨cause, point, detected⟩ := Limit.detected_of_violated violated
    have member := detected.mem_faults
    rw [faultless] at member
    cases member
  · intro kept
    cases here : phrase.faults 0 0 with
    | nil => rfl
    | cons fault others =>
        obtain ⟨limit, detected⟩ := Limit.detected_of_head here
        exact absurd detected.violated (kept limit)

end Arith
