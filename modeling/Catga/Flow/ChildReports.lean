import Catga.Flow.Suspension
import Mathlib.Data.List.Induction
import Mathlib.Data.List.Nodup
import Mathlib.Data.List.Perm.Subperm

/-!
# Reports of children

A wait on children records the first report of each of them.  Where all reports of a child say the
same, neither their order nor their number matters, and a wait that is decided stays decided.
-/

namespace Catga.Flow

open List

/-- What a flow may do with a wait, without the error. -/
inductive WaitClass where
  | pending
  | ready
  | failed

def WaitEvaluation.toClass : WaitEvaluation → WaitClass
  | .pending => .pending
  | .ready => .ready
  | .failed _ => .failed

namespace WaitCondition

/-- The loop of `for_children`. -/
def collectChildren : List FlowChildLaunch → List String → CatgaResult (List FlowChildLaunch)
  | children, [] => .ok children
  | children, childId :: childIds =>
    if childId.isEmpty || children.any (·.childId == childId) then
      .error ⟨.validation, "flow child identities must be non-empty and unique"⟩
    else if children.length = maxWaitChildren then
      .error ⟨.validation, "flow child wait exceeds the supported child limit"⟩
    else collectChildren (children ++ [⟨childId, .pending⟩]) childIds

def forChildren (correlationId : String) (policy : WaitPolicy) (childIds : List String)
    (createdAt timeout : Nat) : CatgaResult WaitCondition := do
  let childLaunches ← collectChildren [] childIds
  if childLaunches.isEmpty then
    .error ⟨.validation, "a durable child wait requires at least one child identity"⟩
  else .ok { correlationId, policy, expectedCount := childLaunches.length, results := [],
             createdAt, timeout, childLaunches }

/-- What decides a wait that has not expired. -/
def verdict (wait : WaitCondition) : WaitClass :=
  match wait.policy with
  | .all =>
    if wait.results.any (·.error.isSome) then .failed
    else if wait.expectedCount ≤ wait.results.length then .ready else .pending
  | .any =>
    if wait.results.any (·.isSuccess) then .ready
    else if wait.expectedCount ≤ wait.results.length then .failed else .pending

def recordAll (wait : WaitCondition) (reports : List (String × ChildReport)) : WaitCondition :=
  reports.foldl (fun wait report => wait.record report.1 report.2) wait

/-- All reports of a child say the same. -/
def Consistent (reports : List (String × ChildReport)) : Prop :=
  ∀ one ∈ reports, ∀ other ∈ reports, one.1 = other.1 → one = other

/-- A wait on children of its own, before the first report. -/
structure Fanned (wait : WaitCondition) : Prop where
  unreported : wait.results = []
  expected : wait.expectedCount = wait.childLaunches.length
  within : wait.childLaunches.length ≤ maxWaitChildren
  nonempty : wait.childLaunches.isEmpty = false

/-- The results are those of the reports that are in bounds and from an expected child, one for each
child. -/
structure Tells (wait : WaitCondition) (reports : List (String × ChildReport))
    (results : List WaitResult) : Prop where
  distinct : (results.map (·.childId)).Nodup
  mem_iff : ∀ result, result ∈ results ↔ ∃ report ∈ reports, report.2.fits = true ∧
    report.1 ∈ wait.childLaunches.map (·.childId) ∧ report.2.toResult report.1 = result

variable {wait current : WaitCondition} {reports : List (String × ChildReport)}
  {report : String × ChildReport} {childId : String} {results : List WaitResult} {now later : Nat}

lemma childId_toResult (said : ChildReport) : (said.toResult childId).childId = childId := by
  cases said <;> rfl

lemma length_collectChildren {childIds children collected}
    (within : children.length ≤ maxWaitChildren)
    (ok : collectChildren children childIds = .ok collected) :
    collected.length ≤ maxWaitChildren := by
  induction childIds generalizing children with
  | nil =>
    cases ok
    exact within
  | cons childId childIds ih =>
    simp only [collectChildren] at ok
    split_ifs at ok with refused full
    refine ih ?_ ok
    rw [length_append, length_singleton]
    omega

lemma fanned_of_forChildren {correlationId policy}
    {childIds createdAt timeout}
    (built : forChildren correlationId policy childIds createdAt timeout = .ok wait) :
    wait.Fanned := by
  obtain ⟨children, collected, built⟩ := bind_eq_ok.mp built
  split_ifs at built with empty
  cases built
  exact ⟨rfl, rfl, length_collectChildren (Nat.zero_le _) collected, by simpa using empty⟩

lemma recordAll_append {more} :
    wait.recordAll (reports ++ more) = (wait.recordAll reports).recordAll more := foldl_append

lemma recordAll_concat :
    wait.recordAll (reports ++ [report]) = (wait.recordAll reports).record report.1 report.2 :=
  recordAll_append

lemma record_eq (wait : WaitCondition) (said : ChildReport) :
    wait.record childId said = { wait with results := (wait.record childId said).results } := by
  unfold record
  split <;> rfl

lemma recordAll_eq (wait : WaitCondition) (reports : List (String × ChildReport)) :
    wait.recordAll reports = { wait with results := (wait.recordAll reports).results } := by
  induction reports using reverseRecOn with
  | nil => rfl
  | append_singleton reports report ih =>
    rw [recordAll_concat, record_eq, ih]

/-- Expected children that have not reported leave room for their results. -/
lemma Tells.hasRoom (tells : Tells wait reports results) (fanned : wait.Fanned)
    (listed : childId ∈ wait.childLaunches.map (·.childId))
    (fresh : childId ∉ results.map (·.childId)) :
    hasRoom { wait with results } = true := by
  have known : childId :: results.map (·.childId) ⊆ wait.childLaunches.map (·.childId) := by
    rintro other (_ | ⟨_, told⟩)
    · exact listed
    · obtain ⟨result, member, rfl⟩ := mem_map.mp told
      obtain ⟨report, -, -, expected, rfl⟩ := (tells.mem_iff result).mp member
      rwa [childId_toResult]
  have fewer := (subperm_of_subset (nodup_cons.mpr ⟨fresh, tells.distinct⟩) known).length_le
  have := fanned.within
  simp only [length_cons, length_map] at fewer
  simp only [WaitCondition.hasRoom, fanned.expected, Bool.and_eq_true, decide_eq_true_eq]
  omega

lemma Tells.record (tells : Tells wait reports results) (fanned : wait.Fanned)
    (consistent : Consistent (reports ++ [report])) :
    Tells wait (reports ++ [report])
      (WaitCondition.record { wait with results } report.1 report.2).results := by
  have skips (same : ∀ result, report.2.fits = true →
      report.1 ∈ wait.childLaunches.map (·.childId) →
      report.2.toResult report.1 = result → result ∈ results) :
      Tells wait (reports ++ [report]) results := by
    refine ⟨tells.distinct, fun result => ?_⟩
    simp only [mem_append, mem_singleton, or_and_right, exists_or, exists_eq_left,
      ← tells.mem_iff]
    exact ⟨.inl, fun told => told.elim id fun ⟨fits, listed, said⟩ => same result fits listed said⟩
  have accepts : acceptsChild { wait with results } report.1 = true ↔
      report.1 ∈ wait.childLaunches.map (·.childId) := by
    simp [acceptsChild, fanned.nonempty]
  simp only [WaitCondition.record]
  split_ifs with refused
  · refine skips fun result fits listed said => ?_
    by_contra missing
    have fresh : report.1 ∉ results.map (·.childId) := by
      intro told
      obtain ⟨known, member, same⟩ := mem_map.mp told
      obtain ⟨other, reported, -, -, rfl⟩ := (tells.mem_iff known).mp member
      rw [childId_toResult] at same
      cases consistent other (by simp [reported]) report (by simp) same
      exact missing (said ▸ member)
    simp only [fits, tells.hasRoom fanned listed fresh, accepts.mpr listed, Bool.not_true,
      Bool.false_or, hasResult, any_eq_true, beq_iff_eq] at refused
    exact fresh (mem_map.mpr refused)
  · simp only [Bool.or_eq_true, Bool.not_eq_true', not_or, Bool.not_eq_false, hasResult,
      any_eq_true, beq_iff_eq] at refused
    obtain ⟨⟨⟨fits, -⟩, accepted⟩, fresh⟩ := refused
    refine ⟨?_, fun result => ?_⟩
    · rw [map_append, map_singleton, childId_toResult, nodup_append_comm, singleton_append,
        nodup_cons]
      exact ⟨fun told => fresh (mem_map.mp told), tells.distinct⟩
    · simp only [mem_append, mem_singleton, or_and_right, exists_or, exists_eq_left,
        ← tells.mem_iff, fits, accepts.mp accepted, true_and, @eq_comm _ result]

lemma Fanned.tells (fanned : wait.Fanned) (consistent : Consistent reports) :
    Tells wait reports (wait.recordAll reports).results := by
  induction reports using reverseRecOn with
  | nil => exact ⟨by simp [recordAll, fanned.unreported], by simp [recordAll, fanned.unreported]⟩
  | append_singleton reports report ih =>
    have earlier := ih fun one member other other_member =>
      consistent one (mem_append_left _ member) other (mem_append_left _ other_member)
    rw [recordAll_concat, recordAll_eq]
    exact earlier.record fanned consistent

lemma toClass_evaluateWait (live : wait.isExpiredAt now = false) :
    (evaluateWait wait now).toClass = wait.verdict := by
  simp only [evaluateWait, live, Bool.false_eq_true, if_false, completedCount, verdict]
  cases wait.policy with
  | all =>
    dsimp only
    cases failed : wait.results.findSome? (·.error) with
    | some =>
      obtain ⟨result, member, reported⟩ := exists_of_findSome?_eq_some failed
      rw [if_pos (any_eq_true.mpr ⟨result, member, by rw [reported]; rfl⟩)]
      rfl
    | none =>
      rw [if_neg (by simpa using findSome?_eq_none_iff.mp failed)]
      exact apply_ite ..
  | any =>
    dsimp only
    split
    · rfl
    · exact apply_ite ..

lemma verdict_of_perm (same : current = { wait with results := current.results })
    (perm : wait.results ~ current.results) : current.verdict = wait.verdict := by
  rw [same]
  simp [verdict, perm.length_eq, perm.any_eq]

/-- A decided wait stays decided. -/
lemma verdict_record (said : ChildReport) (decided : wait.verdict ≠ .pending) :
    (wait.record childId said).verdict = wait.verdict := by
  unfold record
  split_ifs with taken
  · rfl
  · simp only [Bool.or_eq_true, Bool.not_eq_true', not_or, Bool.not_eq_false,
      WaitCondition.hasRoom, Bool.and_eq_true, decide_eq_true_eq] at taken
    obtain ⟨⟨⟨-, -, short⟩, -⟩, -⟩ := taken
    simp only [verdict, if_neg (not_le.mpr short)] at decided ⊢
    cases policy : wait.policy <;> simp only [policy] at decided ⊢ <;>
      · split_ifs at decided with known
        · simp [known]
        · exact absurd rfl decided

lemma verdict_recordAll (decided : wait.verdict ≠ .pending) :
    (wait.recordAll reports).verdict = wait.verdict := by
  induction reports using reverseRecOn with
  | nil => rfl
  | append_singleton reports report ih =>
    rw [recordAll_concat, verdict_record _ (ih ▸ decided), ih]

end WaitCondition

open WaitCondition

/-- Reports that say the same of each child leave the same results, one for each expected child that
has reported, and decide the wait alike; what is decided stays so until the wait expires. -/
theorem reports_order_independent {correlationId : String} {policy : WaitPolicy}
    {childIds : List String} {createdAt timeout : Nat} {wait : WaitCondition}
    (built : forChildren correlationId policy childIds createdAt timeout = .ok wait)
    {reports others : List (String × ChildReport)} (consistent : Consistent reports)
    (same : ∀ report, report ∈ reports ↔ report ∈ others) :
    (∀ result, result ∈ (wait.recordAll reports).results ↔
      result ∈ (wait.recordAll others).results) ∧
    ((wait.recordAll reports).results.map (·.childId)).Nodup ∧
    (∀ result ∈ (wait.recordAll reports).results,
      result.childId ∈ wait.childLaunches.map (·.childId)) ∧
    ∀ now, wait.isExpiredAt now = false →
      (evaluateWait (wait.recordAll reports) now).toClass =
        (evaluateWait (wait.recordAll others) now).toClass ∧
      ((evaluateWait (wait.recordAll reports) now).toClass ≠ .pending →
        ∀ more later, wait.isExpiredAt later = false →
          (evaluateWait (wait.recordAll (reports ++ more)) later).toClass =
            (evaluateWait (wait.recordAll reports) now).toClass) := by
  have fanned := fanned_of_forChildren built
  have tells := fanned.tells consistent
  have tells_others := fanned.tells fun one member other other_member =>
    consistent one ((same one).mpr member) other ((same other).mpr other_member)
  have agree : ∀ result, result ∈ (wait.recordAll reports).results ↔
      result ∈ (wait.recordAll others).results := by
    simp [tells.mem_iff, tells_others.mem_iff, same]
  have perm := (perm_ext_iff_of_nodup (.of_map _ tells.distinct)
    (.of_map _ tells_others.distinct)).mpr agree
  have live : ∀ reports now, wait.isExpiredAt now = false →
      (evaluateWait (wait.recordAll reports) now).toClass = (wait.recordAll reports).verdict := by
    intro reports now unexpired
    refine toClass_evaluateWait ?_
    rw [recordAll_eq]
    exact unexpired
  refine ⟨agree, tells.distinct, fun result member => ?_, fun now unexpired => ⟨?_, ?_⟩⟩
  · obtain ⟨report, -, -, listed, rfl⟩ := (tells.mem_iff result).mp member
    rwa [childId_toResult]
  · rw [live _ _ unexpired, live _ _ unexpired]
    refine (verdict_of_perm ?_ perm).symm
    rw [recordAll_eq wait others, recordAll_eq wait reports]
  · intro decided more later still
    rw [live _ _ unexpired] at decided ⊢
    rw [live _ _ still, recordAll_append, verdict_recordAll decided]

/-- A child that reports twice, and one that the flow does not wait on. -/
theorem reports_repeated_and_unknown :
    let said : ChildReport := .success [1]
    ∃ wait, forChildren "batch" .all ["a", "b"] 0 10 = .ok wait ∧
      (evaluateWait (wait.recordAll [("b", said), ("a", said), ("x", said)]) 5).toClass =
        (evaluateWait (wait.recordAll [("x", said), ("a", said), ("b", said), ("a", said)])
          5).toClass := by
  intro said
  have consistent : Consistent [("b", said), ("a", said), ("x", said)] := by
    unfold Consistent
    decide
  have built : forChildren "batch" .all ["a", "b"] 0 10 = .ok _ := rfl
  have same : ∀ report, report ∈ [("b", said), ("a", said), ("x", said)] ↔
      report ∈ [("x", said), ("a", said), ("b", said), ("a", said)] := by
    grind
  exact ⟨_, built, ((reports_order_independent built consistent same).2.2.2 5 rfl).1⟩

end Catga.Flow
