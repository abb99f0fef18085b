import CampusAuth.Login.HttpLogin

/- The variables of a flow and their budget (`login/http_login.rs`, `run_flow_once`).

   A rule counts the bytes it adds and the bytes it overwrites. `Extraction.Counted` says that
   the running count is the sum over the variables the rules so far would leave, in whatever
   order they write a name; `Budgeted` is what every step of a flow keeps. -/
namespace CampusAuth.Login
open Lib Bridge

/-! ## Variables in the order of their names -/

namespace Vars

/-- A `BTreeMap` holds a name once. -/
def Sorted (vars : Vars) : Prop := vars.Pairwise fun v w => v.1 < w.1

variable {vars : Vars} {name value : Text}

@[simp] theorem totalLen_nil : totalLen [] = 0 := rfl

@[simp] theorem totalLen_cons (v : Text × Text) (vars : Vars) :
    totalLen (v :: vars) = byteLen v.2 + totalLen vars := by
  rw [totalLen, totalLen, List.map_cons, List.sum_cons]

theorem totalLen_append (vars values : Vars) :
    totalLen (vars ++ values) = totalLen vars + totalLen values := by
  induction vars with
  | nil => simp
  | cons v vars ih =>
    rw [List.cons_append, totalLen_cons, totalLen_cons, ih]
    omega

theorem mem_insert {v : Text × Text} (h : v ∈ vars.insert name value) :
    v = (name, value) ∨ v ∈ vars := by
  induction vars with
  | nil => exact .inl (List.mem_singleton.mp h)
  | cons w vars ih =>
    unfold insert at h
    split at h
    · exact (List.mem_cons.mp h).imp_right (List.mem_cons_of_mem w)
    · split at h
      · exact List.mem_cons.mp h
      · rcases List.mem_cons.mp h with rfl | h
        · exact .inr List.mem_cons_self
        · exact (ih h).imp_right (List.mem_cons_of_mem w)

theorem sorted_insert (h : vars.Sorted) : (vars.insert name value).Sorted := by
  induction vars with
  | nil => exact List.pairwise_singleton _ _
  | cons w vars ih =>
    obtain ⟨hw, hvars⟩ := List.pairwise_cons.mp h
    unfold insert
    split
    next heq => exact List.pairwise_cons.mpr ⟨fun v hv => heq ▸ hw v hv, hvars⟩
    next hne =>
      split
      next hlt =>
        refine List.pairwise_cons.mpr ⟨fun v hv => ?_, h⟩
        rcases List.mem_cons.mp hv with rfl | hv
        · exact hlt
        · exact lt_trans hlt (hw v hv)
      next hnlt =>
        refine List.pairwise_cons.mpr ⟨fun v hv => ?_, ih hvars⟩
        rcases mem_insert hv with rfl | hv
        · exact lt_of_le_of_ne (not_lt.mp hnlt) (Ne.symm hne)
        · exact hw v hv

theorem get_cons (w : Text × Text) (vars : Vars) (name : Text) :
    get (w :: vars) name = if name = w.1 then some w.2 else get vars name := by
  unfold get
  rw [List.lookup_cons]
  by_cases h : name = w.1
  · rw [if_pos h, beq_iff_eq.mpr h]
  · rw [if_neg h, beq_eq_false_iff_ne.mpr h]

/-- A name in front of all others is not there. -/
theorem get_of_lt (h : ∀ v ∈ vars, name < v.1) : get vars name = none := by
  induction vars with
  | nil => rfl
  | cons w vars ih =>
    rw [get_cons, if_neg (ne_of_lt (h w List.mem_cons_self))]
    exact ih fun v hv => h v (List.mem_cons_of_mem w hv)

theorem get_insert (h : vars.Sorted) (other : Text) :
    get (vars.insert name value) other = if other = name then some value else get vars other := by
  induction vars with
  | nil => exact get_cons (name, value) [] other
  | cons w vars ih =>
    obtain ⟨hw, hvars⟩ := List.pairwise_cons.mp h
    unfold insert
    split
    next heq =>
      rw [get_cons, get_cons, ← heq]
      split <;> rfl
    next hne =>
      split
      · exact get_cons (name, value) (w :: vars) other
      · rw [get_cons, get_cons, ih hvars]
        by_cases hother : other = name
        · rw [if_pos hother, if_pos hother, if_neg (hother ▸ hne)]
        · rw [if_neg hother, if_neg hother]

/-- The bytes of the value a name has. -/
def lenOf (vars : Vars) (name : Text) : Nat := ((get vars name).map byteLen).getD 0

theorem lenOf_le (vars : Vars) (name : Text) : lenOf vars name ≤ totalLen vars := by
  induction vars with
  | nil => exact Nat.zero_le _
  | cons w vars ih =>
    unfold lenOf at ih ⊢
    rw [get_cons, totalLen_cons]
    split
    · exact Nat.le_add_right _ _
    · exact Nat.le_add_left_of_le ih

/-- Writing a name replaces the bytes of its value. -/
theorem totalLen_insert (h : vars.Sorted) (name value : Text) :
    totalLen (vars.insert name value) + lenOf vars name = totalLen vars + byteLen value := by
  induction vars with
  | nil => simp [insert, lenOf, get]
  | cons w vars ih =>
    obtain ⟨hw, hvars⟩ := List.pairwise_cons.mp h
    have hcons : lenOf (w :: vars) name = if name = w.1 then byteLen w.2 else lenOf vars name := by
      unfold lenOf
      rw [get_cons]
      split <;> rfl
    unfold insert
    rw [hcons]
    split
    next =>
      rw [totalLen_cons, totalLen_cons]
      dsimp only
      omega
    next =>
      split
      next hlt =>
        have hnone : lenOf vars name = 0 := by
          rw [lenOf, get_of_lt fun v hv => lt_trans hlt (hw v hv)]
          rfl
        rw [totalLen_cons, hnone]
        dsimp only
        omega
      next =>
        have := ih hvars
        rw [totalLen_cons, totalLen_cons]
        omega

theorem extend_snoc (vars values : Vars) (v : Text × Text) :
    vars.extend (values ++ [v]) = (vars.extend values).insert v.1 v.2 := by
  rw [extend, List.foldl_append]
  rfl

theorem sorted_extend (h : vars.Sorted) (values : Vars) : (vars.extend values).Sorted := by
  induction values using List.reverseRecOn with
  | nil => exact h
  | append_singleton values v ih =>
    rw [extend_snoc]
    exact sorted_insert ih

theorem mem_extend {values : Vars} {v : Text × Text} (h : v ∈ vars.extend values) :
    v ∈ values ∨ v ∈ vars := by
  induction values using List.reverseRecOn with
  | nil => exact .inr h
  | append_singleton values w ih =>
    rw [extend_snoc] at h
    rcases mem_insert h with rfl | h
    · exact .inl (List.mem_append_right values (List.mem_singleton.mpr rfl))
    · exact (ih h).imp_left (List.mem_append_left [w])

theorem totalLen_extend_le (h : vars.Sorted) (values : Vars) :
    totalLen (vars.extend values) ≤ totalLen vars + totalLen values := by
  induction values using List.reverseRecOn with
  | nil => exact Nat.le_add_right _ _
  | append_singleton values v ih =>
    have hinsert := totalLen_insert (sorted_extend h values) v.1 v.2
    rw [extend_snoc, totalLen_append, totalLen_cons, totalLen_nil]
    omega

end Vars

/-- What the rules so far wrote comes before what was there. -/
theorem previousLen_eq {vars : Vars} (h : vars.Sorted) (pending : Vars) (name : Text) :
    previousLen vars pending name = Vars.lenOf (vars.extend pending) name := by
  induction pending using List.reverseRecOn with
  | nil => rfl
  | append_singleton pending v ih =>
    unfold previousLen Vars.lenOf at ih ⊢
    rw [Vars.extend_snoc, Vars.get_insert (Vars.sorted_extend h pending), List.reverse_append,
      List.reverse_singleton, List.singleton_append, List.find?_cons]
    by_cases hname : v.1 = name
    · simp [hname]
    · rw [if_neg (Ne.symm hname), ← ih]
      simp [hname]

/-! ## The rules of one step -/

/-- The rules of a step start from the variables as they are. -/
def FlowState.extraction (st : FlowState) : Extraction :=
  { variableBytes := st.vars.totalLen, secrets := st.secrets }

/-- The running count is the sum over the variables the rules so far would leave. -/
structure Extraction.Counted (vars : Vars) (x : Extraction) : Prop where
  count : x.variableBytes = (vars.extend x.pending).totalLen
  bounded : x.variableBytes ≤ max vars.totalLen maxFlowVariableBytes
  small : ∀ v ∈ x.pending, byteLen v.2 ≤ maxExtractValueBytes

theorem FlowState.extraction_counted (st : FlowState) : st.extraction.Counted st.vars :=
  ⟨rfl, Nat.le_max_left _ _, nofun⟩

theorem previousLen_le {vars : Vars} {x : Extraction} (hvars : vars.Sorted) (h : x.Counted vars)
    (name : Text) : previousLen vars x.pending name ≤ x.variableBytes := by
  rw [previousLen_eq hvars, h.count]
  exact Vars.lenOf_le _ _

/-- A rule that reads a value within the limits. -/
theorem Extraction.Counted.takes {vars : Vars} {x : Extraction} {name value : Text}
    {secrets : List Text} {bytes : Nat} (hvars : vars.Sorted) (h : x.Counted vars)
    (hbytes : bytes = x.variableBytes - previousLen vars x.pending name + byteLen value)
    (hsmall : byteLen value ≤ maxExtractValueBytes) (hbudget : bytes ≤ maxFlowVariableBytes) :
    Counted vars { x with pending := x.pending ++ [(name, value)], variableBytes := bytes,
                          secrets := secrets } := by
  have hle := previousLen_le hvars h name
  have hinsert := Vars.totalLen_insert (Vars.sorted_extend hvars x.pending) name value
  refine ⟨?_, hbudget.trans (Nat.le_max_right _ _), fun v hv => ?_⟩
  · rw [previousLen_eq hvars] at hbytes hle
    rw [Vars.extend_snoc]
    have := h.count
    dsimp only
    omega
  · rcases List.mem_append.mp hv with hv | hv
    · exact h.small v hv
    · rw [List.mem_singleton.mp hv]
      exact hsmall

theorem extractRules_counted {X : Extractors} {vars : Vars} {response : HttpResponse}
    (hvars : vars.Sorted) (rules : List HttpExtractRule) {x : Extraction} (h : x.Counted vars) :
    (extractRules X vars response rules x).Counted vars := by
  induction rules generalizing x with
  | nil => exact h
  | cons rule rules ih =>
    unfold extractRules
    split
    next value _ =>
      dsimp only
      split
      · exact ⟨h.count, h.bounded, h.small⟩
      next hfits =>
        rw [not_or, not_lt, not_lt] at hfits
        exact ih (h.takes hvars rfl hfits.1 hfits.2)
    · exact ⟨h.count, h.bounded, h.small⟩

/-! ## Steps -/

/-- What every step keeps of the variables a flow starts with. -/
structure Budgeted (vars₀ : Vars) (vars : Vars) : Prop where
  sorted : vars.Sorted
  sum : vars.totalLen ≤ max vars₀.totalLen maxFlowVariableBytes
  values : ∀ v ∈ vars, v ∈ vars₀ ∨ byteLen v.2 ≤ maxExtractValueBytes

section
variable {X : Extractors} {vars₀ : Vars} {st : FlowState} {step : HttpFlowStep}
  {response : HttpResponse}

theorem Budgeted.extend {vars values : Vars} (h : Budgeted vars₀ vars)
    (hsum : (vars.extend values).totalLen ≤ max vars₀.totalLen maxFlowVariableBytes)
    (hsmall : ∀ v ∈ values, byteLen v.2 ≤ maxExtractValueBytes) :
    Budgeted vars₀ (vars.extend values) := by
  refine ⟨Vars.sorted_extend h.sorted values, hsum, fun v hv => ?_⟩
  rcases Vars.mem_extend hv with hv | hv
  · exact .inr (hsmall v hv)
  · exact h.values v hv

/-- Values that fit beside all variables fit in their place. -/
theorem Budgeted.extend_of_fits {vars : Vars} (h : Budgeted vars₀ vars) (values : Vars)
    (hfits : vars.totalLen + values.totalLen ≤ maxFlowVariableBytes)
    (hsmall : ∀ v ∈ values, byteLen v.2 ≤ maxExtractValueBytes) :
    Budgeted vars₀ (vars.extend values) := by
  refine h.extend ?_ hsmall
  have := Vars.totalLen_extend_le h.sorted values
  omega

theorem takeValues_budgeted (h : Budgeted vars₀ st.vars) :
    Budgeted vars₀ (takeValues X st step response).st.vars := by
  unfold takeValues
  split
  · have hcounted : (extractRules X st.vars response step.extracts st.extraction).Counted st.vars :=
      extractRules_counted h.sorted _ st.extraction_counted
    dsimp only
    split
    · exact h
    · refine h.extend ?_ hcounted.small
      have hcount := hcounted.count
      have hbounded := hcounted.bounded
      have hsum := h.sum
      rw [hcount] at hbounded
      have hmax : max st.vars.totalLen maxFlowVariableBytes ≤
          max vars₀.totalLen maxFlowVariableBytes := max_le hsum (Nat.le_max_right _ _)
      exact hbounded.trans hmax
  · split
    · dsimp only
      split
      next value _ =>
        split
        · exact h
        next hfits =>
          rw [not_or, not_lt, not_lt] at hfits
          refine h.extend_of_fits [(_, value)] ?_ fun v hv => ?_
          · simpa using hfits.2
          · rw [List.mem_singleton.mp hv]
            exact hfits.1
      · exact h
    · exact h

/-- A step whose extraction reports an issue takes nothing. -/
theorem takeValues_issue (h : (takeValues X st step response).issue ≠ none) :
    (takeValues X st step response).st.vars = st.vars := by
  unfold takeValues at h ⊢
  split at h
  next hextracts =>
    rw [if_pos hextracts]
    dsimp only at h ⊢
    split
    · rfl
    next hnone => simp only [hnone] at h; exact absurd rfl h
  next hextracts =>
    rw [if_neg hextracts]
    split at h
    next hextract =>
      rw [if_pos hextract]
      dsimp only at h ⊢
      split
      next heq =>
        split
        · rfl
        next hfits =>
          simp only [heq, if_neg hfits] at h
          exact absurd rfl h
      · rfl
    · exact absurd rfl h

/-- A request step leaves the variables as its extraction leaves them. -/
theorem requestStep_vars {resultId : Text} {answer : StepAnswer}
    (hresponse : answer.response = .ok response) :
    (requestStep X resultId st step answer).1.vars = (takeValues X st step response).st.vars := by
  unfold requestStep
  simp only [hresponse]
  split
  · rfl
  · split <;> rfl

theorem flowStep_budgeted {resultId : Text} {answer : StepAnswer} (h : Budgeted vars₀ st.vars) :
    Budgeted vars₀ (flowStep X resultId st step answer).1.vars := by
  unfold flowStep
  split
  · exact h
  · split
    · -- transform
      unfold transformStep
      split
      next values _ =>
        split
        · exact h
        next hfits =>
          rw [not_or, not_lt] at hfits
          refine h.extend_of_fits _ hfits.2 fun v hv => ?_
          have hall := hfits.1
          rw [List.any_eq_true] at hall
          exact not_lt.mp fun hlarge => hall ⟨v, hv, decide_eq_true hlarge⟩
      · exact h
    · -- request
      cases hresponse : answer.response with
      | error e =>
        unfold requestStep
        simp only [hresponse]
        split <;> exact h
      | ok response =>
        rw [requestStep_vars hresponse]
        exact takeValues_budgeted h

theorem flowSteps_budgeted {resultId : Text} {answers : Nat → StepAnswer} {i : Nat}
    {steps : List HttpFlowStep} (h : Budgeted vars₀ st.vars) :
    Budgeted vars₀ (flowSteps X resultId answers i steps st).1.vars := by
  induction steps generalizing i st with
  | nil => exact h
  | cons step steps ih =>
    have hstep : Budgeted vars₀ (flowStep X resultId st step (answers i)).1.vars :=
      flowStep_budgeted h
    unfold flowSteps
    split
    next heq => rw [heq] at hstep; exact hstep
    next heq => rw [heq] at hstep; exact ih hstep

end

/-! ## The budget of a flow -/

theorem initialVars_sorted (req : HttpLoginRequest) : (initialVars req).Sorted := by
  have hnames : ((initialVars req).map (·.1)).Pairwise (· < ·) := by
    show ["auth_url".toList, "isp".toList, "local_ip".toList, "local_mac".toList,
      "password".toList, "username".toList].Pairwise (· < ·)
    decide
  exact List.pairwise_map.mp hnames

theorem flowStart_budgeted (req : HttpLoginRequest) :
    Budgeted (initialVars req) (flowStart req).vars :=
  ⟨initialVars_sorted req, Nat.le_max_left _ _, fun _ hv => .inl hv⟩

/-- What holds of step `step`, taken in `st`, when it gets the response. -/
structure StepBudget (X : Extractors) (resultId : Text) (st : FlowState) (step : HttpFlowStep)
    (answer : StepAnswer) (response : HttpResponse) : Prop where
  /-- In front of every rule the running count is the sum over the variables so far. -/
  counted : ∀ k, (extractRules X st.vars response (step.extracts.take k) st.extraction).Counted
    st.vars
  /-- A rule never takes more off the running count than there is. -/
  noUnderflow : ∀ k name,
    let x := extractRules X st.vars response (step.extracts.take k) st.extraction
    previousLen st.vars x.pending name ≤ x.variableBytes
  /-- Without an issue the step ends with the variables that were counted. -/
  agrees : step.extracts ≠ [] → (takeValues X st step response).issue = none →
    (extractRules X st.vars response step.extracts st.extraction).variableBytes =
      (flowStep X resultId st step answer).1.vars.totalLen
  kept : (takeValues X st step response).issue ≠ none →
    (flowStep X resultId st step answer).1.vars = st.vars

theorem stepBudget {X : Extractors} {resultId : Text} {st : FlowState} {step : HttpFlowStep}
    {answer : StepAnswer} {response : HttpResponse} (hsorted : st.vars.Sorted)
    (hkind : step.kind = .request) (hlate : answer.late = false)
    (hresponse : answer.response = .ok response) :
    StepBudget X resultId st step answer response := by
  have hvars : (flowStep X resultId st step answer).1.vars =
      (takeValues X st step response).st.vars := by
    rw [← requestStep_vars hresponse, flowStep, if_neg (by simp [hlate]), hkind]
  have hcounted : ∀ rules,
      (extractRules X st.vars response rules st.extraction).Counted st.vars :=
    fun rules => extractRules_counted hsorted rules st.extraction_counted
  refine ⟨fun k => hcounted _, fun k name => previousLen_le hsorted (hcounted _) name, ?_, ?_⟩
  · intro hextracts hissue
    have hsome : (!step.extracts.isEmpty) = true := by
      rw [Bool.not_eq_true', List.isEmpty_eq_false_iff]
      exact hextracts
    rw [hvars, (hcounted step.extracts).count]
    unfold takeValues at hissue ⊢
    rw [if_pos hsome] at hissue ⊢
    dsimp only at hissue ⊢
    split
    next heq => simp only [heq] at hissue; cases hissue
    next => rfl
  · intro hissue
    rw [hvars]
    exact takeValues_issue hissue

/-- **The variable budget** of every flow, after each of its steps. -/
theorem flow_variable_budget (X : Extractors) (req : HttpLoginRequest)
    (addr : Option LocalAddress) (answers : HttpAnswers) (n : Nat) :
    let bound := bindAddress req addr
    let resultId := resultStep bound
    let st := (flowSteps X resultId answers.steps 0 (bound.steps.take n) (flowStart bound)).1
    Budgeted (initialVars bound) st.vars ∧
      ∀ step response, bound.steps[n]? = some step → step.kind = .request →
        (answers.steps n).late = false → (answers.steps n).response = .ok response →
        StepBudget X resultId st step (answers.steps n) response := by
  intro bound resultId st
  have hst : Budgeted (initialVars bound) st.vars := flowSteps_budgeted (flowStart_budgeted bound)
  exact ⟨hst, fun step response _ hkind hlate hresponse =>
    stepBudget hst.sorted hkind hlate hresponse⟩

end CampusAuth.Login
