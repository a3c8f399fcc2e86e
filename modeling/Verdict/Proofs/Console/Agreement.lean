import Verdict.Console.Basic
import Verdict.Proofs.Console.Options
import Verdict.Proofs.Evaluation.Layout
import Verdict.Proofs.Service.Answers

/-!
# Agreement of the console and the service

A rule can be evaluated by a command or by a request to the service. Under the default settings the
command writes the number that the request is answered with, and it stops with the fault that the
request is refused with. In the same way a command finds a rule to be in order if the service shows
its program, or refuses to show it because a condition has too many levels. Texts of two hyphens are
excluded, for on a command line they count as no value, and so are texts with surrogates, which are
not made of characters: a response that shows a part of one cannot be written.
-/

namespace Verdict

open Text

/-! ### What both compute -/

/-- The decision that a rule makes with a list of assignments, which is read first. -/
def Rule.decision (rule list : String) : Except Failure Decision :=
  (Environment.ofAssignments list).bind fun env => (evaluate rule env).result

/-- The kinds of faults. -/
def Fault.kinds : List String :=
  ["lex_error", "syntax_error", "undefined_variable", "malformed_clause", "assignment_error"]

theorem Fault.kind_mem_kinds (f : Fault) :
  f.kind ∈ kinds
  := by
  cases f
  all_goals simp [kinds, kind]

/-- The result is a failure with a fault of the kind, with the message. -/
def HasFault {α : Type} (r : Except Failure α) (kind message : String) : Prop :=
  ∃ f : Fault, r = .error (.fault f) ∧ f.kind = kind ∧ f.message = message

theorem hasFault_map {α β : Type} (r : Except Failure α) (k : α → β) (kind message : String) :
  HasFault (r.map k) kind message ↔ HasFault r kind message
  := by
  cases r with
  | ok a => simp [HasFault, Except.map]
  | error f => simp [HasFault, Except.map]

theorem isEmpty_of_isBlankText {text : String} (h : isBlankText text = false) :
  text.isEmpty = false
  := by
  rw [Bool.eq_false_iff]
  intro hempty
  rw [String.isEmpty_iff.mp hempty] at h
  exact absurd h (by decide)

/-! ### The console -/

namespace Console

/-- Whatever there is to be read, the command line writes the output. -/
def Writes (settings : Settings) (args : List String) (output : Output) : Prop :=
  ∃ i, readArguments args = .run i ∧ ∀ bytes, i.run settings bytes = .ok output

/-- The command line stops with a fault of the kind, with the message. -/
def Stops (settings : Settings) (args : List String) (kind message : String) : Prop :=
  Writes settings args ⟨1, "", "Błąd: [" ++ kind ++ "] " ++ message ++ "\n"⟩

/-- The command line that evaluates a rule with a list of assignments and shows the value only. -/
def evaluationArguments (rule list : String) : List String :=
  ["eval", "--rule=" ++ rule, "--vars=" ++ list, "--quiet"]

/-- The command line that checks that a rule can be read. -/
def checkArguments (rule : String) : List String :=
  ["check", "--rule=" ++ rule]

/-- The output of a command with these lines, or with the failure that there is instead. -/
def conclude : Except Failure (List String) → Except Crash Output
  | .ok lines => .ok (.success lines)
  | .error (.fault f) => .ok (.stop ("[" ++ f.kind ++ "] " ++ f.message))
  | .error f => .error (.failure f)

/-- A command that has a rule writes its lines about the rule, or why there are none, behind the
records of its log. -/
theorem run_of_ruleText {i : Invocation} {bytes : Except ReadFault ByteArray} {rule : String}
    (h : i.ruleText bytes = .ok rule) (settings : Settings) :
  i.run settings bytes =
    (conclude (i.lines settings rule)).map (Output.logged (i.log settings rule))
  := by
  simp only [Invocation.run, h]
  rcases i.lines settings rule with f | lines
  · cases f
    all_goals rfl
  · rfl

theorem Output.logged_nil (output : Output) :
  output.logged [] = output
  := by
  rw [logged, unlines]
  exact congrArg (Output.mk output.code output.out) String.empty_append

/-- Nothing is logged at the levels that do not show steps. -/
theorem Invocation.log_eq_nil {settings : Settings} (h : settings.logLevel.showsSteps = false)
    (i : Invocation) (rule : String) :
  i.log settings rule = []
  := by
  unfold log
  rw [h]
  split
  all_goals rfl

/-- A command with a rule that is not blank reads nothing else. -/
theorem run_of_rule {i : Invocation} (hfile : i.file = "") (hblank : isBlankText i.rule = false)
    (bytes : Except ReadFault ByteArray) :
  i.run .default bytes = conclude (i.lines .default i.rule)
  := by
  have hne := isEmpty_of_isBlankText hblank
  have htext : i.ruleText bytes = .ok i.rule := by
    simp [Invocation.ruleText, Invocation.source, hfile, hne, nonBlank, hblank]
  have hlogged : Output.logged [] = id := funext Output.logged_nil
  rw [run_of_ruleText htext, Invocation.log_eq_nil rfl, hlogged, Except.map_id]
  rfl

theorem writes_iff {args : List String} {i : Invocation} (hargs : readArguments args = .run i)
    (hfile : i.file = "") (hblank : isBlankText i.rule = false) (output : Output) :
  Writes .default args output ↔ conclude (i.lines .default i.rule) = .ok output
  := by
  constructor
  · rintro ⟨i', hargs', hrun⟩
    rw [hargs] at hargs'
    cases hargs'
    rw [← run_of_rule hfile hblank (.error .missing), hrun]
  · intro h
    refine ⟨i, hargs, ?_⟩
    intro bytes
    rw [run_of_rule hfile hblank, h]

theorem conclude_success_iff (r : Except Failure (List String)) (out : String) :
  conclude r = .ok ⟨0, out, ""⟩ ↔ ∃ lines, r = .ok lines ∧ unlines lines = out
  := by
  rcases r with f | lines
  · cases f
    all_goals simp [conclude, Output.stop]
  · simp [conclude, Output.success]

/-- Equal texts have the same part in front of the first occurrence of a character, and the same
part behind it. -/
theorem append_cons_inj {s s' t t' : List Char} {c : Char} (h : c ∉ s) (h' : c ∉ s') :
  s ++ c :: t = s' ++ c :: t' ↔ s = s' ∧ t = t'
  := by
  induction s generalizing s' with
  | nil =>
    cases s' with
    | nil => simp
    | cons d s' => grind
  | cons d s ih =>
    cases s' with
    | nil => grind
    | cons d' s' =>
      rw [List.mem_cons, not_or] at h h'
      rw [List.cons_append, List.cons_append, List.cons.injEq, ih h.2 h'.2, List.cons.injEq,
        and_assoc]

/-- The kind of a fault and the message behind it are told apart by the bracket between them. -/
theorem bracketed_inj {kind kind' : String} (h : ']' ∉ kind.toList) (h' : ']' ∉ kind'.toList)
    (message message' : String) :
  "Błąd: [" ++ kind ++ "] " ++ message ++ "\n" = "Błąd: [" ++ kind' ++ "] " ++ message' ++ "\n" ↔
    kind = kind' ∧ message = message'
  := by
  have hchars : ∀ k m : String, ("Błąd: [" ++ k ++ "] " ++ m ++ "\n").toList =
      "Błąd: [".toList ++ (k.toList ++ ']' :: ' ' :: (m.toList ++ ['\n'])) := by
    intro k m
    simp
  rw [← String.toList_inj, hchars, hchars, List.append_cancel_left_eq,
    append_cons_inj h h', String.toList_inj]
  simp [String.toList_inj]

theorem conclude_stop_iff (r : Except Failure (List String)) {kind : String}
    (hkind : kind ∈ Fault.kinds) (message : String) :
  conclude r = .ok ⟨1, "", "Błąd: [" ++ kind ++ "] " ++ message ++ "\n"⟩ ↔
    HasFault r kind message
  := by
  have hbracket : ∀ k ∈ Fault.kinds, ']' ∉ k.toList := by decide
  rcases r with f | lines
  · cases f with
    | fault f =>
      have htext : unlines ["Błąd: " ++ ("[" ++ f.kind ++ "] " ++ f.message)] =
          "Błąd: [" ++ f.kind ++ "] " ++ f.message ++ "\n" := by
        rw [← String.toList_inj]
        simp [unlines]
      have hinj := bracketed_inj (hbracket f.kind f.kind_mem_kinds) (hbracket kind hkind) f.message
        message
      rw [conclude, Output.stop, htext]
      simpa [HasFault] using hinj
    | integer f => simp [conclude, HasFault]
    | invalid => simp [conclude, HasFault]
  · simp [conclude, Output.success, HasFault]

theorem readArguments_evaluation {rule list : String} (hrule : rule ≠ "--") (hlist : list ≠ "--") :
  readArguments (evaluationArguments rule list) = .run ⟨.evaluate, rule, "", list, false, true⟩
  := by
  have hvalues : AreValues Command.evaluate.options [(.rule, rule), (.vars, list)] := by
    simp [AreValues, Command.options, Switch.takesValue, hrule, hlist]
  have hquiet : hasAmbiguous Command.evaluate.options ["--quiet"] = false := by rfl
  exact readArguments_longOptions hvalues hquiet

theorem readArguments_check {rule : String} (hrule : rule ≠ "--") :
  readArguments (checkArguments rule) = .run ⟨.check, rule, "", "", false, false⟩
  := by
  have hvalues : AreValues Command.check.options [(.rule, rule)] := by
    simp [AreValues, Command.options, Switch.takesValue, hrule]
  have hnone : hasAmbiguous Command.check.options [] = false := by rfl
  exact readArguments_longOptions hvalues hnone

/-- The command that evaluates a rule writes the value of its decision. -/
theorem writes_evaluation_iff {rule list : String} (hblank : isBlankText rule = false)
    (hrule : rule ≠ "--") (hlist : list ≠ "--") (output : Output) :
  Writes .default (evaluationArguments rule list) output ↔
    conclude ((Rule.decision rule list).map fun d => [toString d.value]) = .ok output
  := by
  rw [writes_iff (readArguments_evaluation hrule hlist) rfl hblank]
  have hlines : Invocation.lines .default ⟨.evaluate, rule, "", list, false, true⟩ rule =
      (Rule.decision rule list).map fun d => [toString d.value] := by
    rw [Invocation.lines, Rule.decision]
    cases Environment.ofAssignments list with
    | error f => rfl
    | ok env => rfl
  rw [hlines]

/-- The command that checks a rule reads its program. -/
theorem writes_check_iff {rule : String} (hblank : isBlankText rule = false) (hrule : rule ≠ "--")
    (output : Output) :
  Writes .default (checkArguments rule) output ↔
    conclude ((Rule.canonical rule).map fun p =>
      ["OK: " ++ toString p.clauses.length ++ " klauzul IF + ELSE."]) = .ok output
  := by
  rw [writes_iff (readArguments_check hrule) rfl hblank]
  rfl

end Console

/-! ### The service -/

namespace Service

/-- The service answers the request with the number. -/
def AnswersWith (settings : Settings) (r : Request) (n : Int) : Prop :=
  ∃ fields, respond settings r = .ok (.reply 200 (.object fields))
    ∧ Json.lookup fields "result" = some (.int n)

/-- The service refuses the request with a fault of the kind, with the message. -/
def RefusesWith (settings : Settings) (r : Request) (kind message : String) : Prop :=
  ∃ fields, respond settings r = .ok (.reply 422 (.object fields))
    ∧ Json.lookup fields "error" = some (.string kind)
    ∧ Json.lookup fields "message" = some (.string message)

/-- The request to evaluate a rule with a list of assignments. -/
def evaluationRequest (rule list : String) : Request where
  method := "POST"
  target := "/evaluate"
  body := .value (.object [("rule", .string rule), ("assignments", .string list)])

/-- The request to parse a rule. -/
def parseRequest (rule : String) : Request where
  method := "POST"
  target := "/parse"
  body := .value (.object [("rule", .string rule)])

theorem lookup_fields (f : Fault) :
  Json.lookup f.fields "error" = some (.string f.kind)
    ∧ Json.lookup f.fields "message" = some (.string f.message)
  := by
  cases f
  all_goals exact ⟨rfl, rfl⟩

/-- A request is refused with the fault that there is, if what it is answered with otherwise is no
refusal. -/
theorem refusesWith_iff {α : Type} {settings : Settings} {r : Request} {result : Except Failure α}
    {k : α → Except Crash Response} (hrespond : respond settings r = answer result k)
    (hk : ∀ a response, k a = .ok response → response.status ≠ 422) (kind message : String) :
  RefusesWith settings r kind message ↔ HasFault result kind message
  := by
  rw [RefusesWith, hrespond]
  rcases result with f | a
  · cases f with
    | fault f =>
      obtain ⟨hkind, hmessage⟩ := lookup_fields f
      simp [answer, refuse, HasFault, hkind, hmessage]
    | integer f => simp [answer, refuse, HasFault]
    | invalid => simp [answer, refuse, HasFault]
  · constructor
    · rintro ⟨fields, hresponse, -⟩
      exact absurd rfl (hk a _ hresponse)
    · rintro ⟨f, hf, -⟩
      cases hf

/-- Without other variables, the environment of a request is that of its list of assignments. -/
theorem environment_of_list (rule list : String) (trace : Bool) :
  (Evaluation.mk rule .empty list trace).environment list = Environment.ofAssignments list
  := by
  rw [Evaluation.environment]
  by_cases hempty : list.isEmpty = true
  · rw [if_pos hempty, String.isEmpty_iff.mp hempty]
    rfl
  · rw [if_neg hempty]
    cases Environment.ofAssignments list with
    | error f => rfl
    | ok env => rfl

theorem withinLength_of_le {settings : Settings} {rule : String}
    (h : (rule.length : Int) ≤ settings.maxRuleLength) (x : Except Crash Response) :
  withinLength settings rule x = x
  := by
  rw [withinLength, refuseLength?, if_neg (Int.not_lt.mpr h)]

/-- A value that is sent to an endpoint is answered by it. -/
theorem respond_post {endpoint : Endpoint} (hpost : endpoint.method = "POST") {j : Json}
    (hfinite : j.isFinite = true) (hbody : readBody (.value j) = .ok j) (settings : Settings) :
  respond settings ⟨"POST", endpoint.path, .value j⟩ = respondTo settings endpoint j
  := by
  have hpath : Target.ofReference endpoint.path = .ok endpoint.path.toUTF8.toList := by
    cases endpoint
    all_goals cbv
  have hendpoint : Endpoint.ofPath? endpoint.path.toUTF8.toList = some endpoint := by
    cases endpoint
    all_goals cbv
  have hmethod : "POST".toUpper = "POST" := by cbv
  exact respond_eq_respondTo (r := ⟨"POST", endpoint.path, .value j⟩) hpath hendpoint hpost
    hmethod hfinite hbody settings

/-- A rule that is not blank and not too long is evaluated. -/
theorem respond_evaluation {rule : String} (hblank : isBlankText rule = false)
    (hlength : (rule.length : Int) ≤ Settings.default.maxRuleLength) (list : String) :
  respond .default (evaluationRequest rule list) =
    answer (Rule.decision rule list) fun d => .ok (.reply 200 (.object
      [("result", .int d.value), ("selected", d.selectedJson),
       ("outcomes", .array (d.outcomes.map Outcome.toJson)), ("steps", .texts [])]))
  := by
  have hrespond : respond .default (evaluationRequest rule list) = respondTo .default .evaluate
      (.object [("rule", .string rule), ("assignments", .string list)]) := by
    have hpost : Endpoint.evaluate.method = "POST" := rfl
    apply respond_post hpost
    all_goals rfl
  have hne := isEmpty_of_isBlankText hblank
  have hform : (Form.fields (.object [("rule", .string rule), ("assignments", .string list)])).bind
      Form.evaluation = .ok ⟨rule, .empty, list, false⟩ := by
    have hlookup : Json.lookup [("rule", .string rule), ("assignments", .string list)] "rule" =
        some (.string rule) := rfl
    rw [Form.fields, Except.bind, Form.evaluation, Form.rule, hlookup]
    simp only [hne]
    rfl
  rw [hrespond, respondTo, hform, formed, withinLength_of_le hlength]
  change evaluateWith _ _ list = _
  rw [evaluateWith, environment_of_list, Rule.decision]
  cases Environment.ofAssignments list with
  | error f => rfl
  | ok env => rfl

/-- A request to parse a rule that is not too long reads its program. -/
theorem Request.Asks.respond_parse {settings : Settings} {r : Request} {rule : String}
    {list : Json.Chars} (h : r.Asks .parse rule list)
    (hlength : (rule.length : Int) ≤ settings.maxRuleLength) :
  respond settings r = answer (Rule.canonical rule) (showProgram settings)
  := by
  obtain ⟨body, -, htexts, hrespond⟩ := h.respond_eq settings
  obtain ⟨text, hform, heq⟩ := exists_of_map_eq_ok htexts
  cases heq
  rw [hrespond, respondTo, hform, formed, withinLength_of_le hlength, parse]

/-- A rule that is not empty can be asked to be parsed. -/
theorem asks_parseRequest {rule : String} (h : rule.isEmpty = false) :
  (parseRequest rule).Asks .parse rule ""
  := by
  have hpath : Target.ofReference "/parse" = .ok "/parse".toUTF8.toList := by cbv
  have hendpoint : Endpoint.ofPath? "/parse".toUTF8.toList = some .parse := by cbv
  have hmethod : "POST".toUpper = "POST" := by cbv
  have hform : (Form.fields (.object [("rule", .string rule)])).bind Form.rule = .ok rule := by
    have hlookup : Json.lookup [("rule", .string rule)] "rule" = some (.string rule) := rfl
    rw [Form.fields, Except.bind, Form.rule, hlookup]
    simp only [h]
    rfl
  refine ⟨⟨_, hpath, hendpoint⟩, hmethod, rfl, ⟨_, rfl, ?_⟩, trivial⟩
  change ((Form.fields (.object [("rule", .string rule)])).bind Form.rule).map _ = _
  rw [hform]
  rfl

/-- A rule that is not blank and not too long is parsed. -/
theorem respond_parse {rule : String} (hblank : isBlankText rule = false)
    (hlength : (rule.length : Int) ≤ Settings.default.maxRuleLength) :
  respond .default (parseRequest rule) =
    answer (Rule.canonical rule) (showProgram .default)
  := (asks_parseRequest (isEmpty_of_isBlankText hblank)).respond_parse hlength

end Service

/-! ### Agreement -/

section

open Console Service

variable {rule : String} (hblank : isBlankText rule = false)
  (hlength : (rule.length : Int) ≤ Settings.default.maxRuleLength) (hrule : rule ≠ "--")

include hblank hrule in
/-- The command writes the value of the decision, if there is one. -/
theorem writes_value_iff {list : String} (hlist : list ≠ "--") (n : Int) :
  Writes .default (evaluationArguments rule list) ⟨0, toString n ++ "\n", ""⟩ ↔
    ∃ d, Rule.decision rule list = .ok d ∧ d.value = n
  := by
  have htext : ∀ m : Int, unlines [toString m] = toString n ++ "\n" ↔ m = n := by
    intro m
    rw [← String.toList_inj]
    simp [unlines, String.toList_inj]
  rw [writes_evaluation_iff hblank hrule hlist, conclude_success_iff]
  cases Rule.decision rule list with
  | error f => simp [Except.map]
  | ok d => simpa [Except.map] using htext d.value

include hblank hlength in
/-- The request is answered with the value of the decision, if there is one. -/
theorem answersWith_iff (list : String) (n : Int) :
  AnswersWith .default (evaluationRequest rule list) n ↔
    ∃ d, Rule.decision rule list = .ok d ∧ d.value = n
  := by
  rw [AnswersWith, respond_evaluation hblank hlength]
  cases Rule.decision rule list with
  | error f =>
    cases f
    all_goals simp [answer, refuse]
  | ok d =>
    constructor
    · rintro ⟨fields, hresponse, hresult⟩
      cases hresponse
      cases hresult
      exact ⟨d, rfl, rfl⟩
    · rintro ⟨d', hd', rfl⟩
      cases hd'
      exact ⟨_, rfl, rfl⟩

include hblank hrule in
/-- The command that checks a rule succeeds if the rule has a program. -/
theorem writes_check_success_iff :
  (∃ output, output.code = 0 ∧ Writes .default (checkArguments rule) output) ↔
    ∃ p, Rule.canonical rule = .ok p
  := by
  simp only [writes_check_iff hblank hrule]
  cases Rule.canonical rule with
  | error f =>
    cases f
    all_goals simp [Except.map, conclude, Output.stop]
  | ok p => simp [Except.map, conclude, Output.success]

include hblank hlength in
/-- The request to parse a rule is answered, or refused because of levels, if the rule has a
program. -/
theorem shows_iff :
  ((∃ fields, respond .default (parseRequest rule) = .ok (.reply 200 (.object fields)))
      ∨ ∃ levels, respond .default (parseRequest rule) = .ok (tooDeep .default levels)) ↔
    ∃ p, Rule.canonical rule = .ok p
  := by
  rw [respond_parse hblank hlength]
  cases Rule.canonical rule with
  | error f =>
    cases f
    all_goals simp [answer, refuse, tooDeep, Response.detail]
  | ok p =>
    rw [answer, showProgram_default]
    constructor
    · intro _
      exact ⟨p, rfl⟩
    · intro _
      split
      · exact Or.inr ⟨p.depth, rfl⟩
      · exact Or.inl ⟨_, rfl⟩

include hblank hrule in
theorem stops_evaluation_iff {list : String} (hlist : list ≠ "--") {kind : String}
    (hkind : kind ∈ Fault.kinds) (message : String) :
  Stops .default (evaluationArguments rule list) kind message ↔
    HasFault (Rule.decision rule list) kind message
  := by
  rw [Stops, writes_evaluation_iff hblank hrule hlist, conclude_stop_iff _ hkind, hasFault_map]

include hblank hrule in
theorem stops_check_iff {kind : String} (hkind : kind ∈ Fault.kinds) (message : String) :
  Stops .default (checkArguments rule) kind message ↔
    HasFault (Rule.canonical rule) kind message
  := by
  rw [Stops, writes_check_iff hblank hrule, conclude_stop_iff _ hkind, hasFault_map]

include hblank hlength in
theorem refusesWith_evaluation_iff (list kind message : String) :
  RefusesWith .default (evaluationRequest rule list) kind message ↔
    HasFault (Rule.decision rule list) kind message
  := by
  apply refusesWith_iff (respond_evaluation hblank hlength list)
  rintro d response ⟨⟩
  simp [Response.status]

include hblank hlength in
theorem refusesWith_parse_iff (kind message : String) :
  RefusesWith .default (parseRequest rule) kind message ↔
    HasFault (Rule.canonical rule) kind message
  := by
  apply refusesWith_iff (respond_parse hblank hlength)
  intro p response hresponse
  rw [showProgram_default] at hresponse
  cases hresponse
  split
  · simp [tooDeep, Response.detail, Response.status]
  · simp [Response.status]

end

/-- Under the default settings the command line and the service agree on every rule that is not
blank and not too long, and on every list of assignments, unless one of them consists of two
hyphens. The command that evaluates the rule ends with a number if the request is answered with this
number, and with a fault if the request is refused with this fault. The command that checks the rule
succeeds if the program of the rule is shown, or has too many levels to be shown, and ends with a
fault if the request to parse it is refused with this fault. -/
theorem console_agrees_with_service {rule : String} (hblank : isBlankText rule = false)
    (hlength : (rule.length : Int) ≤ Settings.default.maxRuleLength) (hrule : rule ≠ "--") :
  (∀ list : String, list ≠ "--" →
      (∀ n : Int,
        Console.Writes .default (Console.evaluationArguments rule list)
            ⟨0, toString n ++ "\n", ""⟩ ↔
          Service.AnswersWith .default (Service.evaluationRequest rule list) n)
        ∧ ∀ kind ∈ Fault.kinds, ∀ message,
          Console.Stops .default (Console.evaluationArguments rule list) kind message ↔
            Service.RefusesWith .default (Service.evaluationRequest rule list) kind message)
    ∧ ((∃ output, output.code = 0
          ∧ Console.Writes .default (Console.checkArguments rule) output) ↔
        (∃ fields, Service.respond .default (Service.parseRequest rule) =
            .ok (.reply 200 (.object fields)))
          ∨ ∃ levels, Service.respond .default (Service.parseRequest rule) =
            .ok (Service.tooDeep .default levels))
    ∧ ∀ kind ∈ Fault.kinds, ∀ message,
        Console.Stops .default (Console.checkArguments rule) kind message ↔
          Service.RefusesWith .default (Service.parseRequest rule) kind message
  := by
  refine ⟨?_, ?_, ?_⟩
  · intro list hlist
    constructor
    · intro n
      rw [writes_value_iff hblank hrule hlist, answersWith_iff hblank hlength]
    · intro kind hkind message
      rw [stops_evaluation_iff hblank hrule hlist hkind, refusesWith_evaluation_iff hblank hlength]
  · rw [writes_check_success_iff hblank hrule, shows_iff hblank hlength]
  · intro kind hkind message
    rw [stops_check_iff hblank hrule hkind, refusesWith_parse_iff hblank hlength]

/-- The rule `eitherRule` is evaluated to 1 where `a` has the value 1, and a list without an equals
sign is refused. -/
theorem console_agrees_with_service_eitherRule :
  isBlankText eitherRule = false
    ∧ (eitherRule.length : Int) ≤ Settings.default.maxRuleLength
    ∧ eitherRule ≠ "--" ∧ "a=1" ≠ "--" ∧ "a" ≠ "--"
    ∧ Service.AnswersWith .default (Service.evaluationRequest eitherRule "a=1") 1
    ∧ Service.RefusesWith .default (Service.evaluationRequest eitherRule "a") "assignment_error"
        "Niepoprawne przypisanie 'a': brak znaku '='"
    ∧ ∃ output, output.code = 0 ∧ Console.Writes .default (Console.checkArguments eitherRule) output
  := by
  have hblank : isBlankText eitherRule = false := by decide
  have hlength : (eitherRule.length : Int) ≤ Settings.default.maxRuleLength := by decide
  have hrule : eitherRule ≠ "--" := by decide
  have hlist : "a=1" ≠ "--" := by decide
  have hfaulty : "a" ≠ "--" := by decide
  obtain ⟨hevaluate, hcheck, -⟩ := console_agrees_with_service hblank hlength hrule
  refine ⟨hblank, hlength, hrule, hlist, hfaulty, ?_, ?_, ?_⟩
  · rw [← (hevaluate _ hlist).1, writes_value_iff hblank hrule hlist]
    exact ⟨⟨1, some 0, [⟨0, true, 1⟩]⟩, by rfl, rfl⟩
  · rw [← (hevaluate _ hfaulty).2 _ (by decide),
      stops_evaluation_iff hblank hrule hfaulty (by decide)]
    exact ⟨.assignment "a" .equalsSign, by rfl, by rfl, by rfl⟩
  · rw [hcheck, shows_iff hblank hlength]
    exact ⟨eitherProgram, by rfl⟩

/-- A text that is one surrogate, which is a half of a pair and not a character. -/
def loneSurrogate : Json.Chars := .broken [0xDCFF]

namespace Service

/-- A report that shows the lone surrogate cannot be written. -/
theorem respondTo_parse_loneSurrogate :
  ∃ crash, respondTo .default .parse (.object [("rule", .string loneSurrogate)]) = .error crash
  := by
  let report : Report := [⟨.brokenText, ["rule"], .string loneSurrogate⟩]
  have hform : (Form.fields (.object [("rule", .string loneSurrogate)])).bind Form.rule =
      .error report := rfl
  have hpiece : loneSurrogate ∈ report.toJson.addPieces [] := by decide
  have hcode : 0xDCFF ∈ loneSurrogate.codes := by decide
  obtain ⟨crash, hcrash⟩ := exists_writable_eq_error hpiece hcode (by decide)
  rw [respondTo, hform, formed, reject, hcrash]
  exact ⟨crash, rfl⟩

/-- The request to evaluate a rule with the lone surrogate as its list of assignments. -/
def surrogateEvaluation : Request where
  method := "POST"
  target := "/evaluate"
  body := .value (.object
    [("rule", .string Rule.testingRule), ("assignments", .string loneSurrogate)])

/-- The request to parse the lone surrogate. -/
def surrogateParse : Request where
  method := "POST"
  target := "/parse"
  body := .value (.object [("rule", .string loneSurrogate)])

theorem respond_surrogateEvaluation :
  respond .default surrogateEvaluation = .error (.surrogates ⟨98, 0xDCFF, 1⟩)
  := by
  have hpost : Endpoint.evaluate.method = "POST" := rfl
  apply (respond_post hpost rfl rfl .default).trans
  rfl

theorem respond_surrogateParse :
  ∃ crash, respond .default surrogateParse = .error crash
  := by
  have hpost : Endpoint.parse.method = "POST" := rfl
  obtain ⟨crash, hcrash⟩ := respondTo_parse_loneSurrogate
  use crash
  apply (respond_post hpost rfl rfl .default).trans hcrash

end Service

/-- A list of two hyphens is no value for the command line, which evaluates the rule without it,
while the request is refused. A rule of two hyphens is none for the command line either, which reads
the input instead, while the request is refused. A text with a surrogate is refused by the service
too, but what is wrong with it cannot be written, so that there is no response. -/
theorem console_differs_from_service :
  (isBlankText Rule.testingRule = false
      ∧ (Rule.testingRule.length : Int) ≤ Settings.default.maxRuleLength
      ∧ Rule.testingRule.length ≤ Integer.maxDigits
      ∧ ¬ ((Console.Writes .default (Console.evaluationArguments Rule.testingRule "--")
              ⟨0, toString (1 : Int) ++ "\n", ""⟩) ↔
            Service.AnswersWith .default (Service.evaluationRequest Rule.testingRule "--") 1))
    ∧ isBlankText "--" = false
      ∧ ("--".length : Int) ≤ Settings.default.maxRuleLength
      ∧ ¬ (Console.Stops .default (Console.checkArguments "--") "lex_error"
              "Nierozpoznany znak '-' w linii 1, kolumnie 1" ↔
            Service.RefusesWith .default (Service.parseRequest "--") "lex_error"
              "Nierozpoznany znak '-' w linii 1, kolumnie 1")
      ∧ (∃ crash, Service.respond .default Service.surrogateEvaluation = .error crash)
      ∧ ∃ crash, Service.respond .default Service.surrogateParse = .error crash
  := by
  have hblank : isBlankText Rule.testingRule = false := by decide
  have hlength : (Rule.testingRule.length : Int) ≤ Settings.default.maxRuleLength := by decide
  have hargs : Console.readArguments (Console.evaluationArguments Rule.testingRule "--") =
      .run ⟨.evaluate, Rule.testingRule, "", "", false, true⟩ := by rfl
  have hargs' : Console.readArguments (Console.checkArguments "--") =
      .run ⟨.check, "", "", "", false, false⟩ := by rfl
  have hblank' : isBlankText "--" = false := by decide
  have hlength' : ("--".length : Int) ≤ Settings.default.maxRuleLength := by decide
  refine ⟨⟨hblank, hlength, by decide, ?_⟩, hblank', hlength', ?_,
    ⟨_, Service.respond_surrogateEvaluation⟩, Service.respond_surrogateParse⟩
  · -- the list is empty for the command line
    have hwrites : Console.Writes .default (Console.evaluationArguments Rule.testingRule "--")
        ⟨0, toString (1 : Int) ++ "\n", ""⟩ := by
      rw [Console.writes_iff hargs rfl hblank]
      rfl
    rw [iff_true_left hwrites, answersWith_iff hblank hlength]
    have hrefused : Rule.decision Rule.testingRule "--" =
        .error (Fault.assignment "--" .equalsSign) := by rfl
    rw [hrefused]
    rintro ⟨d, ⟨⟩, -⟩
  · have hrefused : Service.RefusesWith .default (Service.parseRequest "--") "lex_error"
        "Nierozpoznany znak '-' w linii 1, kolumnie 1" := by
      rw [refusesWith_parse_iff hblank' hlength']
      exact ⟨.lexical ⟨⟨0, 1, 1⟩, '-'⟩, by rfl, by rfl, by rfl⟩
    rw [iff_true_right hrefused]
    -- the command line has no rule, and there is none on an empty input either
    rintro ⟨i, hi, hrun⟩
    rw [hargs'] at hi
    cases hi
    have hempty := hrun (.ok ByteArray.empty)
    have hnothing : Console.Invocation.run .default ⟨.check, "", "", "", false, false⟩
        (.ok ByteArray.empty) = .ok (.stop "podaj regułę przez --rule, --file lub stdin") := by rfl
    rw [hnothing] at hempty
    have herr := congrArg Console.Output.err (Except.ok.inj hempty)
    exact absurd herr (by decide)

end Verdict
