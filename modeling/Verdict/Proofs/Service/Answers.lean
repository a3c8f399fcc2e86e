import Mathlib
import Verdict.Proofs.Failure.Overlong
import Verdict.Proofs.Failure.Rule
import Verdict.Proofs.Service.Reading
import Verdict.Proofs.Service.Surrogates

/-!
# Answers

Under the default settings a request in the form of its endpoint is answered with the status 200,
413 or 422, unless a run of digits in the rule or in the list of assignments is too long to be read,
or the list has surrogates in it and so has the answer.
-/

namespace Verdict

open Text

namespace Service

/-! ### Requests -/

/-- The rule and the list of assignments of a body in the form of a request. -/
def Endpoint.texts (endpoint : Endpoint) (body : Json) : Except Report (String × Json.Chars) :=
  match endpoint with
  | .evaluate => ((Form.fields body).bind Form.evaluation).map fun e => (e.rule, e.assignments)
  | .health => .error []
  | _ => ((Form.fields body).bind Form.rule).map fun rule => (rule, "")

/-- The request reaches the endpoint, and its body has the form that the endpoint asks for, with
this rule and this list of assignments. -/
structure Request.Asks (r : Request) (endpoint : Endpoint) (rule : String) (list : Json.Chars) :
    Prop where
  path : ∃ path, Target.ofReference r.target = .ok path ∧ Endpoint.ofPath? path = some endpoint
  method : r.method.toUpper = endpoint.method
  finite : r.body.isFinite = true
  body : ∃ j, readBody r.body = .ok j ∧ endpoint.texts j = .ok (rule, list)
  proper : list.IsProper

/-- The response to a program one of whose conditions has too many levels. -/
def tooDeep (settings : Settings) (levels : Nat) : Response :=
  .detail 413 ("Condition tree is " ++ toString levels ++ " levels deep (limit "
    ++ toString settings.maxConditionDepth ++ ").")

/-- Under settings that allow no condition with too many levels to be written, such a condition is
refused. -/
theorem showProgram_of_lt {settings : Settings} (h : settings.maxConditionDepth < unwritableDepth)
    (p : Program) :
  showProgram settings p =
    .ok (if settings.maxConditionDepth < p.depth then tooDeep settings p.depth
      else .reply 200 (.object [("program", p.toJson)]))
  := by
  rw [showProgram]
  by_cases hdeep : settings.maxConditionDepth < p.depth
  · rw [if_pos hdeep, if_pos hdeep, tooDeep]
  · have hwritable : ¬ unwritableDepth ≤ p.depth := by omega
    rw [if_neg hdeep, if_neg hwritable, if_neg hdeep]

theorem showProgram_default (p : Program) :
  showProgram .default p =
    .ok (if Settings.default.maxConditionDepth < p.depth then tooDeep .default p.depth
      else .reply 200 (.object [("program", p.toJson)]))
  := by
  apply showProgram_of_lt
  decide

/-- There is a response of one of the three kinds. Otherwise a run of digits in one of the texts is
too long, or the list of assignments is no text and the response cannot be written. -/
def Answered (rule : String) (list : Json.Chars) : Except Crash Response → Prop
  | .ok response => response.status ∈ [200, 413, 422]
  | .error (.failure f) => f.IsOverlong rule.toList ∨ f.IsOverlong (removeBlanks list.characters)
  | .error (.surrogates _) => ∃ codes, list = .broken codes
  | .error _ => False

/-- The failure is a fault, or a run of digits in one of the texts is too long. -/
def Accounts (rule : String) (list : Json.Chars) (f : Failure) : Prop :=
  (∃ g : Fault, f = .fault g) ∨ f.IsOverlong rule.toList
    ∨ f.IsOverlong (removeBlanks list.characters)

section

variable {rule : String} {list : Json.Chars}

theorem answered_refuse {f : Failure} (h : Accounts rule list f) :
  Answered rule list (refuse f)
  := by
  rcases h with ⟨g, rfl⟩ | hlong | hlong
  · simp [refuse, Answered, Response.status]
  · obtain ⟨ds, -, -, -, rfl⟩ := id hlong
    exact Or.inl hlong
  · obtain ⟨ds, -, -, -, rfl⟩ := id hlong
    exact Or.inr hlong

theorem answered_answer {α : Type} {x : Except Failure α} {k : α → Except Crash Response}
    (h : FailsOnly (Accounts rule list) x) (hk : ∀ a, Answered rule list (k a)) :
  Answered rule list (answer x k)
  := by
  cases x with
  | error f => exact answered_refuse h
  | ok a => exact hk a

theorem answered_withinLength {settings : Settings} {x : Except Crash Response}
    (h : Answered rule list x) :
  Answered rule list (withinLength settings rule x)
  := by
  rw [withinLength, refuseLength?]
  by_cases hlong : settings.maxRuleLength < rule.length
  · rw [if_pos hlong]
    simp [Answered, Response.detail, Response.status]
  · rw [if_neg hlong]
    exact h

theorem answered_tokenize :
  Answered rule list (tokenize rule)
  := by
  apply answered_answer
  · apply (Rule.failsOnly_tokens rule).mono
    rintro f ⟨g, hg, -⟩
    exact Or.inl ⟨g, hg⟩
  · intro ts
    simp [Answered, Response.status]

theorem answered_parse :
  Answered rule list (parse .default rule)
  := by
  apply answered_answer
  · apply (Rule.failsOnly_canonical rule).mono
    rintro f (⟨g, hg, -⟩ | hf)
    · exact Or.inl ⟨g, hg⟩
    · exact Or.inr (Or.inl hf)
  · intro p
    rw [showProgram_default]
    split
    · simp [Answered, tooDeep, Response.detail, Response.status]
    · simp [Answered, Response.status]

end

/-! ### Requests to evaluate -/

theorem answered_evaluateWith {settings : Settings} {e : Evaluation} (h : e.bindings.IsWritable)
    {assignments : String} :
  Answered e.rule (.text assignments) (evaluateWith settings e assignments)
  := by
  have henv : FailsOnly (Accounts e.rule (.text assignments)) (e.environment assignments) := by
    rw [Evaluation.environment]
    split
    · trivial
    · apply FailsOnly.map
      apply (Environment.failsOnly_ofAssignments assignments).mono
      rintro f (⟨g, hg, -⟩ | hf)
      · exact Or.inl ⟨g, hg⟩
      · rw [← characters_text assignments] at hf
        exact Or.inr (Or.inr hf)
  rw [evaluateWith]
  cases hread : e.environment assignments with
  | error f => exact answered_refuse (henv.of_error hread)
  | ok env =>
    change Answered _ _ (evaluateIn settings e env)
    rw [evaluateIn]
    apply answered_answer
    · apply (Rule.failsOnly_evaluate e.rule (isWritable_environment h hread)).mono
      rintro f (⟨g, hg, -⟩ | hf)
      · exact Or.inl ⟨g, hg⟩
      · exact Or.inr (Or.inl hf)
    · intro d
      simp [Answered, Response.status]

/-- The fields of a fault are texts and integers. -/
theorem isFinite_withLine (line : List Nat) (f : Fault) :
  Json.isFinite (.object (withLine line f.fields)) = true
  := by
  cases f
  all_goals
    simp [withLine, Fault.fields, Fault.context, Json.isFinite, Json.fieldsFinite, Json.nat,
      Json.int]

/-- A response that shows a list with surrogates may have surrogates too. -/
theorem answered_refuseBroken {rule : String} {codes : List Nat}
    (h : (Json.Chars.broken codes).IsProper) :
  Answered rule (.broken codes) (refuseBroken codes)
  := by
  rcases refuseBroken_eq h with ⟨f, hf, heq⟩ | ⟨f, line, heq⟩
  · rw [heq]
    apply answered_refuse
    rcases hf with ⟨g, hg, -⟩ | hlong
    · exact Or.inl ⟨g, hg⟩
    · exact Or.inr (Or.inr hlong)
  · rw [heq, writable, isFinite_withLine]
    cases Utf8.firstSurrogates? 0 (Json.object (withLine line f.fields)).codes with
    | none => simp [Except.map, Answered, Response.status]
    | some s => exact ⟨codes, rfl⟩

theorem answered_evaluate {settings : Settings} {e : Evaluation} (h : e.assignments.IsProper)
    (hbindings : e.bindings.IsWritable) :
  Answered e.rule e.assignments (evaluate settings e)
  := by
  rw [evaluate]
  cases hlist : e.assignments with
  | text s => exact answered_evaluateWith hbindings
  | broken codes =>
    rw [hlist] at h
    exact answered_refuseBroken h

/-! ### All requests -/

theorem answered_respondTo {endpoint : Endpoint} {body : Json} {rule : String} {list : Json.Chars}
    (h : endpoint.texts body = .ok (rule, list)) (hlist : list.IsProper)
    (hlegible : body.isLegible = true) :
  Answered rule list (respondTo .default endpoint body)
  := by
  unfold Endpoint.texts at h
  cases endpoint with
  | evaluate =>
    obtain ⟨e, hform, heq⟩ := exists_of_map_eq_ok h
    cases heq
    rw [respondTo, hform]
    exact answered_withinLength (answered_evaluate hlist (isWritable_of_evaluation hlegible hform))
  | parse =>
    obtain ⟨text, hform, heq⟩ := exists_of_map_eq_ok h
    cases heq
    rw [respondTo, hform]
    exact answered_withinLength answered_parse
  | tokenize =>
    obtain ⟨text, hform, heq⟩ := exists_of_map_eq_ok h
    cases heq
    rw [respondTo, hform]
    exact answered_withinLength answered_tokenize
  | health => cases h

/-- A request that reaches an endpoint with a body is answered by the endpoint. -/
theorem respond_eq_respondTo {r : Request} {path : List UInt8} {endpoint : Endpoint} {body : Json}
    (hpath : Target.ofReference r.target = .ok path)
    (hendpoint : Endpoint.ofPath? path = some endpoint) (hpost : endpoint.method = "POST")
    (hmethod : r.method.toUpper = "POST") (hfinite : r.body.isFinite = true)
    (hbody : readBody r.body = .ok body) (settings : Settings) :
  respond settings r = respondTo settings endpoint body
  := by
  simp only [respond, hpath, hfinite, hmethod, respondAt, hendpoint, hpost, hbody]
  cases endpoint with
  | health => exact absurd hpost (by decide)
  | _ => rfl

/-- A request that asks an endpoint is answered by it. -/
theorem Request.Asks.respond_eq {r : Request} {endpoint : Endpoint} {rule : String}
    {list : Json.Chars} (h : r.Asks endpoint rule list) (settings : Settings) :
  ∃ body, readBody r.body = .ok body ∧ endpoint.texts body = .ok (rule, list)
    ∧ respond settings r = respondTo settings endpoint body
  := by
  obtain ⟨path, hpath, hendpoint⟩ := h.path
  obtain ⟨body, hbody, htexts⟩ := h.body
  have hpost : endpoint.method = "POST" := by
    cases endpoint with
    | health => cases htexts
    | _ => rfl
  have hmethod : r.method.toUpper = "POST" := by rw [h.method, hpost]
  use body, hbody, htexts
  exact respond_eq_respondTo hpath hendpoint hpost hmethod h.finite hbody settings

/-! ### Everything that can fail -/

/-- No text of a rule or of a list of assignments fails in any way but with a fault, unless a run
of digits in it is too long to be read. Neither does a request under the default settings, whose
response has one of three statuses, unless the list of assignments is no text and the response
cannot be written. -/
theorem failures_of_texts (rule list : String) :
  FailsOnly (fun f => f.IsFault ["lex_error", "syntax_error"] ∨ f.IsOverlong rule.toList)
      (Rule.canonical rule)
    ∧ FailsOnly
        (fun f => f.IsFault ["assignment_error"] ∨ f.IsOverlong (removeBlanks list.toList))
        (Environment.ofAssignments list)
    ∧ FailsOnly
        (fun f =>
          f.IsFault ["lex_error", "syntax_error", "assignment_error", "undefined_variable"]
            ∨ f.IsOverlong rule.toList ∨ f.IsOverlong (removeBlanks list.toList))
        ((Environment.ofAssignments list).bind fun env => (Rule.evaluate rule env).result)
    ∧ ∀ (r : Request) (endpoint : Endpoint) (rule : String) (list : Json.Chars),
        r.Asks endpoint rule list → Answered rule list (respond .default r)
  := by
  have hlist := Environment.failsOnly_ofAssignments list
  refine ⟨Rule.failsOnly_canonical rule, hlist, ?_, ?_⟩
  · apply FailsOnly.bind
    · apply hlist.mono
      rintro f (hf | hf)
      · exact Or.inl (hf.mono (by simp))
      · exact Or.inr (Or.inr hf)
    · intro env henv
      apply (Rule.failsOnly_evaluate rule (Environment.isWritable_of_ofAssignments henv)).mono
      rintro f (hf | hf)
      · exact Or.inl (hf.mono (by simp))
      · exact Or.inr (Or.inl hf)
  · intro r endpoint rule list h
    obtain ⟨body, hbody, htexts, hrespond⟩ := h.respond_eq .default
    rw [hrespond]
    apply answered_respondTo htexts h.proper (isLegible_of_readBody hbody)

/-- A request to evaluate a rule with a list of assignments. -/
def assignedRequest : Request where
  method := "POST"
  target := "/evaluate"
  body := .value (.object [("rule", .string eitherRule), ("assignments", .string "a=1")])

theorem failures_of_texts_assignedRequest :
  assignedRequest.Asks .evaluate eitherRule "a=1"
    ∧ Answered eitherRule "a=1" (respond .default assignedRequest)
  := by
  have hpath : Target.ofReference assignedRequest.target = .ok "/evaluate".toUTF8.toList := by cbv
  have hendpoint : Endpoint.ofPath? "/evaluate".toUTF8.toList = some .evaluate := by cbv
  have hmethod : assignedRequest.method.toUpper = Endpoint.evaluate.method := by cbv
  have hasks : assignedRequest.Asks .evaluate eitherRule "a=1" :=
    ⟨⟨_, hpath, hendpoint⟩, hmethod, rfl, ⟨_, rfl, rfl⟩, trivial⟩
  exact ⟨hasks, (failures_of_texts eitherRule "a=1").2.2.2 _ _ _ _ hasks⟩

/-! ### Numerals that are too long -/

/-- A request with a rule that compares with a numeral is not answered if the numeral is too long to
be read, although the rule is not too long. -/
theorem respond_overlong {digits : String} (h : IsNumeral digits.toList)
    (hlong : Integer.maxDigits < digits.length) (hshort : digits.length ≤ 9000) :
  respondTo .default .parse (.object [("rule", .string (comparingRule digits))]) =
    .error (.failure (.integer (.tooLong digits.length)))
  := by
  have hne : (comparingRule digits).isEmpty = false := by
    simp [comparingRule]
  have hform : (Form.fields (.object [("rule", .string (comparingRule digits))])).bind Form.rule =
      .ok (comparingRule digits) := by
    have hlookup : Json.lookup [("rule", .string (comparingRule digits))] "rule" =
        some (.string (comparingRule digits)) := rfl
    rw [Form.fields, Except.bind, Form.rule, hlookup]
    simp only [hne]
    rfl
  have hlength : ¬ Settings.default.maxRuleLength < (comparingRule digits).length := by
    have hbegin : "IF (x > ".length = 8 := rfl
    have hend : ") RETURN 1 ELSE RETURN 0".length = 24 := rfl
    rw [comparingRule, String.length_append, String.length_append, hbegin, hend,
      show Settings.default.maxRuleLength = 10000 from rfl]
    omega
  rw [respondTo, hform]
  change withinLength _ _ _ = _
  rw [withinLength, refuseLength?, if_neg hlength, parse, canonical_comparingRule h hlong]
  rfl

end Service

end Verdict
