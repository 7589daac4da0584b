import ScriptLint.Proofs.Rule.Recursion

/-!
# Functions that pass their parameters back

A recursive function makes no progress if it calls itself with its own parameters.  The arguments
of the call are compared one by one, but not with all parameters: the ones that are no plain names,
such as patterns, are left out before.  So the places of the arguments may differ from the places
of the parameters.

* `NamesParam`, `paramName?_eq_some_iff`: a parameter that is a plain name, or a plain name with a
  default value.
* `Repeats`, `areNames_iff_repeats`: arguments that are the given parameters, one by one.
* `PassesBack`: a call in the body repeats the parameters.
* `keepsParameters_iff`: which parameters are compared, and when they are all of them.
-/

namespace ScriptLint.Recursion

open Ast (Node Slot Index Field Construct)

/-! ### Parameters with a name -/

/-- A name, written as `t`. -/
def IsName (t : Text) (n : Node) : Prop :=
  n.is .identifier = true ∧ n.slot .name = .value (.str t)

/-- A parameter **with the name** `t`, with or without a default value. -/
def NamesParam (t : Text) (param : Node) : Prop :=
  IsName t param ∨
    (param.is .assignmentPattern = true ∧ ∃ left, param.slot .left = .node left ∧ IsName t left)

theorem paramName?_eq_some_iff {t : Text} {param : Node} :
    Node.paramName? param = some (.value (.str t)) ↔ NamesParam t param := by
  unfold Node.paramName? NamesParam IsName
  by_cases hName : param.is .identifier = true
  · have hPattern : ¬ param.is .assignmentPattern = true := by
      intro hPattern
      cases (Node.kind_of_is hName).symm.trans (Node.kind_of_is hPattern)
    rw [if_pos hName, Option.some.injEq]
    simp [hName, hPattern]
  · rw [if_neg hName]
    by_cases hPattern : param.is .assignmentPattern = true
    · rw [if_pos hPattern, Option.map_eq_some_iff]
      simp only [as?_eq_some_iff, hName, hPattern]
      simp [and_assoc]
    · simp [hName, hPattern]

/-- The name of a parameter of a well-typed function is a text. -/
theorem TypedFunction.exists_namesParam {f : Node} {params : List Node} {body : Slot}
    (h : TypedFunction f params body) {param : Node} (hMem : param ∈ params) {s : Slot}
    (hs : Node.paramName? param = some s) : ∃ t, s = .value (.str t) ∧ NamesParam t param := by
  have hParam : param ∈ f.preorder := by
    refine Node.mem_preorder_of_mem_children (Node.mem_children_of_mem_slot (f := .params) ?_)
    rwa [Node.slot, h.hasParams, Option.getD_some]
  have hText : ∃ t, s = .value (.str t) := by
    unfold Node.paramName? at hs
    split at hs
    · rename_i hName
      obtain ⟨t, ht⟩ := h.typed.name hParam hName
      exact ⟨t, by rw [← Option.some.inj hs, ht]⟩
    · split at hs
      · obtain ⟨left, hLeft, rfl⟩ := Option.map_eq_some_iff.mp hs
        obtain ⟨hSlot, hName⟩ := as?_eq_some_iff.mp hLeft
        exact h.typed.name (Node.slot_node hParam hSlot) hName
      · cases hs
  obtain ⟨t, rfl⟩ := hText
  exact ⟨t, rfl, paramName?_eq_some_iff.mp hs⟩

/-! ### Arguments that repeat parameters -/

/-- The arguments are, **place by place**, the names of the parameters. -/
def Repeats (args params : List Node) : Prop :=
  List.Forall₂ (fun arg param => ∃ t, IsName t arg ∧ NamesParam t param) args params

/-- Arguments can only repeat parameters that **have** names. -/
theorem Repeats.exists_namesParam {args params : List Node} (h : Repeats args params) :
    ∀ param ∈ params, ∃ t, NamesParam t param := by
  intro param hMem
  induction h with
  | nil => cases hMem
  | cons hHead _ ih =>
    rcases List.mem_cons.mp hMem with rfl | hMem
    · obtain ⟨t, -, hName⟩ := hHead
      exact ⟨t, hName⟩
    · exact ih hMem

/-- The parameters that are plain names, with or without a default value. -/
def plainParams (params : List Node) : List Node :=
  params.filter fun param => (Node.paramName? param).isSome

theorem areNames_iff_repeats {params : List Node}
    (h : ∀ param ∈ params, ∀ s, Node.paramName? param = some s →
      ∃ t, s = .value (.str t) ∧ NamesParam t param) {args : List Node} :
    AreNames args (params.filterMap Node.paramName?) ↔ Repeats args (plainParams params) := by
  unfold AreNames Repeats plainParams
  induction params generalizing args with
  | nil => rw [List.filterMap_nil, List.filter_nil, List.forall₂_nil_right_iff,
      List.forall₂_nil_right_iff]
  | cons param params ih =>
    rw [List.forall_mem_cons] at h
    cases hParam : Node.paramName? param with
    | none =>
      rw [List.filterMap_cons_none hParam, List.filter_cons_of_neg (by simp [hParam])]
      exact ih h.2
    | some s =>
      obtain ⟨t, rfl, hName⟩ := h.1 s hParam
      rw [List.filterMap_cons_some hParam, List.filter_cons_of_pos (by simp [hParam]),
        List.forall₂_cons_right_iff, List.forall₂_cons_right_iff]
      have hHead (arg : Node) :
          (arg.is .identifier = true ∧ (arg.slot .name).equal (.value (.str t)) = true) ↔
            ∃ u, IsName u arg ∧ NamesParam u param := by
        rw [Slot.equal_text_iff]
        constructor
        · exact fun hArg => ⟨t, hArg, hName⟩
        · rintro ⟨u, hArg, hu⟩
          rw [← paramName?_eq_some_iff, hParam] at hu
          cases hu
          exact hArg
      simp only [hHead, ih h.2]

/-! ### Calls that repeat the parameters -/

/-- A call of the function in its body **repeats** the parameters. -/
def PassesBack (name : Text) (params : List Node) (body : Slot) : Prop :=
  ∃ call ∈ body.subtree, Calls (some name) call ∧
    ∃ args, call.slot .arguments = .nodes args ∧ Repeats args params

namespace TypedFunction

variable {f : Node} {params : List Node} {body : Slot}

/-- The function hands on its parameters if it has a name and a call **repeats the plain ones**. -/
theorem handsOn_iff (h : TypedFunction f params body) {name : Slot} :
    (name.isNull = false ∧ HandsOn name (params.filterMap Node.paramName?) body) ↔
      ∃ t, name = .value (.str t) ∧ plainParams params ≠ [] ∧
        PassesBack t (plainParams params) body := by
  have hNames {args : List Node} :
      AreNames args (params.filterMap Node.paramName?) ↔ Repeats args (plainParams params) :=
    areNames_iff_repeats fun param hMem s hs => h.exists_namesParam hMem hs
  have hNil : params.filterMap Node.paramName? = [] ↔ plainParams params = [] := by
    rw [List.filterMap_eq_nil_iff, plainParams, List.filter_eq_nil_iff]
    simp
  constructor
  · rintro ⟨hNull, hSome, call, hCall, hSelf, args, hArgs, hAre⟩
    have hMem := h.isPartOf.subtree_subset hCall
    obtain ⟨known, rfl⟩ := exists_ofName_of_isSelfCall h.typed hMem hSelf
    rw [isSelfCall_ofName_iff] at hSelf
    cases known with
    | none => cases hNull
    | some t =>
      exact ⟨t, rfl, mt hNil.mpr hSome, call, hCall, hSelf, args, hArgs, hNames.mp hAre⟩
  · rintro ⟨t, rfl, hSome, call, hCall, hCalls, args, hArgs, hRepeats⟩
    refine ⟨rfl, mt hNil.mp hSome, call, hCall, ?_, args, hArgs, hNames.mpr hRepeats⟩
    show isSelfCall (ofName (some t)) call = true
    rwa [isSelfCall_ofName_iff]

end TypedFunction

/-- **Only the parameters that are plain names are compared.**  A well-typed function is said to
keep its parameters if and only if some of them are plain names, and a call of its name in the body
repeats these, place by place.  Then a call repeats all parameters, place by place, if and only if
all of them are plain names. -/
theorem keepsParameters_iff (f : Node) (params : List Node) (body : Slot)
    (h : TypedFunction f params body) (ix : Option Index) :
    ∃ r, ofFunction f ix = .ok r ∧
      (r.keepsParameters = true ↔ ∃ name, f.functionName ix = .value (.str name) ∧
        plainParams params ≠ [] ∧ PassesBack name (plainParams params) body) ∧
      (r.keepsParameters = true →
        ((∃ name, f.functionName ix = .value (.str name) ∧ PassesBack name params body) ↔
          ∀ param ∈ params, ∃ t, NamesParam t param)) := by
  obtain ⟨r, hr, hName, -, hKeeps, -⟩ := h.exists_ofFunction ix
  rw [hName, h.handsOn_iff] at hKeeps
  refine ⟨r, hr, hKeeps, fun hTrue => ⟨?_, fun hPlain => ?_⟩⟩
  · rintro ⟨name, -, call, -, -, args, -, hRepeats⟩
    exact hRepeats.exists_namesParam
  · obtain ⟨name, hEq, -, hBack⟩ := hKeeps.mp hTrue
    have hAll : plainParams params = params := by
      refine List.filter_eq_self.mpr fun param hMem => ?_
      obtain ⟨t, ht⟩ := hPlain param hMem
      rw [paramName?_eq_some_iff.mpr ht, Option.isSome_some]
    rw [hAll] at hBack
    exact ⟨name, hEq, hBack⟩

/-- The parameters `a, b = a`. -/
def defaultParams : List Node :=
  [sampleName 2 "a", sample 3 (.known .assignmentPattern)
    [(.left, .node (sampleName 4 "b")), (.right, .node (sampleName 5 "a"))]]

/-- The body of `function f(a, b = a) { f(a, b) }`. -/
def defaultBody : Node :=
  sampleBlock 6 [sampleCall 7 [sampleName 9 "a", sampleName 10 "b"]]

theorem keepsParameters_iff_defaultParams :
    TypedFunction (sampleFunction defaultParams defaultBody) defaultParams (.node defaultBody) ∧
      ∃ r, ofFunction (sampleFunction defaultParams defaultBody) none = .ok r ∧
        r.keepsParameters = true := by
  have hTyped : TypedFunction (sampleFunction defaultParams defaultBody) defaultParams
      (.node defaultBody) := ⟨rfl, by decide +kernel, rfl, rfl, .inr ⟨_, rfl⟩⟩
  have hRepeats : Repeats [sampleName 9 "a", sampleName 10 "b"] defaultParams := by
    refine .cons ⟨"a", ⟨rfl, rfl⟩, .inl ⟨rfl, rfl⟩⟩ (.cons ⟨"b", ⟨rfl, rfl⟩, .inr ?_⟩ .nil)
    exact ⟨rfl, sampleName 4 "b", rfl, rfl, rfl⟩
  have hBack : PassesBack "f" defaultParams (.node defaultBody) := by
    refine ⟨sampleCall 7 _, ?_, calls_sampleCall 7 _, _, rfl, hRepeats⟩
    rw [Slot.subtree_node]
    exact Node.mem_preorder_of_mem_children List.mem_cons_self
  obtain ⟨r, hr, hKeeps, -⟩ := keepsParameters_iff _ _ _ hTyped none
  exact ⟨hTyped, r, hr, hKeeps.mpr ⟨"f", rfl, List.cons_ne_nil _ _, hBack⟩⟩

/-- The parameters `{ a }, b`. -/
def patternParams : List Node :=
  [sample 2 (.other (.str "ObjectPattern"))
    [(.children, .nodes [sample 3 (.known .property)
      [(.key, .node (sampleName 4 "a")), (.value, .node (sampleName 5 "a"))]])],
    sampleName 6 "b"]

/-- The body of `function f({ a }, b) { return b ? f(b) : b }`. -/
def patternBody : Node :=
  sampleBlock 7 [sampleReturn 8 (sample 9 (.known .conditionalExpression)
    [(.test, .node (sampleName 10 "b")), (.consequent, .node (sampleCall 11 [sampleName 13 "b"])),
      (.alternate, .node (sampleName 14 "b"))])]

/-- The call `f(b)` of `function f({ a }, b) { return b ? f(b) : b }` has one argument, in the place
of the pattern.  The function is said to keep its parameters all the same. -/
theorem keepsParameters_patternParams :
    TypedFunction (sampleFunction patternParams patternBody) patternParams (.node patternBody) ∧
      (∃ r, ofFunction (sampleFunction patternParams patternBody) none = .ok r ∧
        r.keepsParameters = true) ∧
      ¬ ∃ name, (sampleFunction patternParams patternBody).functionName none
          = .value (.str name) ∧ PassesBack name patternParams (.node patternBody) := by
  have hTyped : TypedFunction (sampleFunction patternParams patternBody) patternParams
      (.node patternBody) := ⟨rfl, by decide +kernel, rfl, rfl, .inr ⟨_, rfl⟩⟩
  refine ⟨hTyped, ?_, ?_⟩
  · have hRepeats : Repeats [sampleName 13 "b"] (plainParams patternParams) :=
      .cons ⟨"b", ⟨rfl, rfl⟩, .inl ⟨rfl, rfl⟩⟩ .nil
    have hBack : PassesBack "f" (plainParams patternParams) (.node patternBody) := by
      refine ⟨sampleCall 11 _, ?_, calls_sampleCall 11 _, _, rfl, hRepeats⟩
      rw [Slot.subtree_node]
      -- below the return statement, and there below the conditional
      apply Node.mem_preorder_trans (Node.mem_preorder_of_mem_children List.mem_cons_self)
      apply Node.mem_preorder_trans (Node.mem_preorder_of_mem_children List.mem_cons_self)
      apply Node.mem_preorder_of_mem_children
      exact List.mem_cons_of_mem _ List.mem_cons_self
    obtain ⟨r, hr, hName, -, hKeeps, -⟩ := hTyped.exists_ofFunction none
    rw [hName, hTyped.handsOn_iff] at hKeeps
    exact ⟨r, hr, hKeeps.mpr ⟨"f", rfl, List.cons_ne_nil _ _, hBack⟩⟩
  · -- a pattern has no name that an argument could repeat
    rintro ⟨name, -, call, -, -, args, -, hRepeats⟩
    obtain ⟨t, ht⟩ := hRepeats.exists_namesParam _ List.mem_cons_self
    rw [← paramName?_eq_some_iff] at ht
    cases ht

end ScriptLint.Recursion
