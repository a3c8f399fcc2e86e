import Verdict.Proofs.Condition.Depth
import Verdict.Proofs.Condition.Groups
import Verdict.Proofs.Console.Agreement

/-!
# The limit on levels

A request to parse a rule is refused if one of the conditions has more levels than the settings
allow. The levels are counted when the groups have been removed, so parentheses that make no
difference to the rule make none here. What is counted is the number of nodes on the longest path
from the whole of a condition to a leaf. -/

namespace Verdict.Service

variable {settings : Settings} {q q' : Program}

/-- The response shows the program if no path from the whole of one of its conditions to a leaf has
more nodes than the settings allow. Otherwise it tells how many nodes the longest path has. -/
structure Gates (settings : Settings) (q : Program) (response : Response) : Prop where
  status_iff : response.status = 200 ↔ ∀ n ∈ q.pathLengths, (n : Int) ≤ settings.maxConditionDepth
  shown : response.status = 200 → response = .reply 200 (.object [("program", q.toJson)])
  refused : response.status ≠ 200 →
    ∃ levels, IsGreatest {n | n ∈ q.pathLengths} levels ∧ response = tooDeep settings levels

/-- A program with clauses is shown or refused because of its longest path. -/
theorem exists_showProgram (hdepth : settings.maxConditionDepth < unwritableDepth)
    (hne : q.clauses ≠ []) :
  ∃ response, showProgram settings q = .ok response ∧ Gates settings q response
  := by
  have hgreatest := Program.isGreatest_depth hne
  rw [showProgram_of_lt hdepth]
  by_cases hdeep : settings.maxConditionDepth < q.depth
  · rw [if_pos hdeep]
    refine ⟨_, rfl, ?_, ?_, ?_⟩
    · apply iff_of_false
      · simp [tooDeep, Response.detail, Response.status]
      · intro hall
        apply Int.not_le.mpr hdeep (hall _ hgreatest.1)
    · simp [tooDeep, Response.detail, Response.status]
    · intro _
      use q.depth
  · rw [if_neg hdeep]
    refine ⟨_, rfl, ?_, ?_, ?_⟩
    · apply iff_of_true rfl
      intro n hn
      have hle := hgreatest.2 hn
      omega
    · intro _
      rfl
    · intro hstatus
      exact absurd rfl hstatus

/-- Programs with the same conditions are shown both, or refused in the same way. -/
theorem showProgram_congr (hdepth : settings.maxConditionDepth < unwritableDepth)
    (h : q.clauses.map (·.condition) = q'.clauses.map (·.condition)) :
  ∃ x x', showProgram settings q = .ok x ∧ showProgram settings q' = .ok x'
    ∧ x.status = x'.status ∧ (x.status ≠ 200 → x = x')
  := by
  rw [showProgram_of_lt hdepth, showProgram_of_lt hdepth, Program.depth_congr h]
  by_cases hdeep : settings.maxConditionDepth < q'.depth
  · rw [if_pos hdeep, if_pos hdeep]
    exact ⟨_, _, rfl, rfl, rfl, fun _ => rfl⟩
  · rw [if_neg hdeep, if_neg hdeep]
    exact ⟨_, _, rfl, rfl, rfl, absurd rfl⟩

/-- A rule that is accepted and not too long is shown if no path in its conditions without groups
has more nodes than the settings allow, and otherwise it is refused with the number of nodes on the
longest one. Rules with the same conditions without groups are shown both, or refused in the same
way. The depth of a well-formed condition is the number of nodes on its longest path, where a group
is a node, and a loop with a stack finds it. When groups are removed, the depth does not grow, and
it decreases by at most the number of groups. The condition of a chain without groups has as many
levels as leaves. -/
theorem depth_gate :
  (∀ (settings : Settings) (r : Request) (rule : String) (list : Json.Chars) (p : Program),
      settings.maxConditionDepth < unwritableDepth → r.Asks .parse rule list →
      (rule.length : Int) ≤ settings.maxRuleLength → Rule.program rule = .ok p →
      ∃ q response, p.reduce = .ok q ∧ respond settings r = .ok response
        ∧ Gates settings q response)
    ∧ (∀ (settings : Settings) (r r' : Request) (rule rule' : String) (list list' : Json.Chars)
        (q q' : Program),
      settings.maxConditionDepth < unwritableDepth →
      r.Asks .parse rule list → (rule.length : Int) ≤ settings.maxRuleLength →
      r'.Asks .parse rule' list' → (rule'.length : Int) ≤ settings.maxRuleLength →
      Rule.canonical rule = .ok q → Rule.canonical rule' = .ok q' →
      q.clauses.map (·.condition) = q'.clauses.map (·.condition) →
      ∃ x x', respond settings r = .ok x ∧ respond settings r' = .ok x'
        ∧ x.status = x'.status ∧ (x.status ≠ 200 → x = x'))
    ∧ (∀ e : Condition, e.WellFormed →
      Descent.step^[e.nodeCount] (.start e) = ⟨[], e.depth⟩
        ∧ IsGreatest {n | n ∈ e.pathLengths} e.depth
        ∧ ∃ e', e.reduce = .ok e' ∧ e'.depth ≤ e.depth ∧ e.depth ≤ e'.depth + e.groupCount)
    ∧ ∀ c : Grammar.Chain, c.condition.GroupFree → c.condition.depth = c.condition.leaves.length
  := by
  refine ⟨?_, ?_, ?_, Grammar.Chain.depth_condition⟩
  · intro settings r rule list p hdepth hasks hlength hp
    obtain ⟨q, hreduce, hq⟩ := Rule.exists_reduce_of_program hp
    obtain ⟨-, hne, -⟩ := Program.reduce_eq_ok hreduce
    obtain ⟨response, hresponse, hgates⟩ := exists_showProgram hdepth hne
    use q, response, hreduce
    rw [hasks.respond_parse hlength, hq]
    use hresponse
  · intro settings r r' rule rule' list list' q q' hdepth hasks hlength hasks' hlength' hq hq' hsame
    rw [hasks.respond_parse hlength, hasks'.respond_parse hlength', hq, hq']
    apply showProgram_congr hdepth hsame
  · intro e he
    obtain ⟨e', hreduce, -⟩ := he.exists_reduce
    use Descent.iterate_step_start e, e.isGreatest_depth, e', hreduce,
      Condition.depth_le_of_reduce hreduce
    apply Condition.depth_le_add_groupCount hreduce

/-- Settings that allow conditions of one level. -/
def shallowSettings : Settings :=
  { Settings.default with maxConditionDepth := 1 }

/-- The rule `eitherRule` with more parentheses. -/
def enclosedRule : String :=
  "IF (((a > 0) OR (b > 0))) RETURN 1 ELSE RETURN 2"

/-- A rule whose condition has two levels is refused with and without more parentheses, and shown
if more levels are allowed. A condition of five levels with four groups has two levels without
them. -/
theorem depth_gate_shallowSettings :
  shallowSettings.maxConditionDepth < unwritableDepth
    ∧ (parseRequest eitherRule).Asks .parse eitherRule ""
    ∧ (parseRequest enclosedRule).Asks .parse enclosedRule ""
    ∧ respond shallowSettings (parseRequest eitherRule) = .ok (tooDeep shallowSettings 2)
    ∧ respond shallowSettings (parseRequest enclosedRule) = .ok (tooDeep shallowSettings 2)
    ∧ respond .default (parseRequest eitherRule) =
      .ok (.reply 200 (.object [("program", eitherProgram.toJson)]))
    ∧ wrapped.WellFormed ∧ Descent.step^[wrapped.nodeCount] (.start wrapped) = ⟨[], 5⟩
    ∧ wrapped.groupCount = 4 ∧ ∃ e', wrapped.reduce = .ok e' ∧ e'.depth = 2
  := by
  obtain ⟨hgate, hsame, hdepth, -⟩ := depth_gate
  have hshallow : shallowSettings.maxConditionDepth < unwritableDepth := by decide
  have hdefault : Settings.default.maxConditionDepth < unwritableDepth := by decide
  have hasks : (parseRequest eitherRule).Asks .parse eitherRule "" := asks_parseRequest (by decide)
  have hasks' : (parseRequest enclosedRule).Asks .parse enclosedRule "" :=
    asks_parseRequest (by decide)
  have hlength : (eitherRule.length : Int) ≤ Settings.default.maxRuleLength := by decide
  have hlength' : (enclosedRule.length : Int) ≤ shallowSettings.maxRuleLength := by decide
  have hprogram : Rule.program eitherRule = .ok eitherProgram := by rfl
  have hcanonical : Rule.canonical eitherRule = .ok eitherProgram := by rfl
  have hreduced : eitherProgram.reduce = .ok eitherProgram := by rfl
  have hpaths : eitherProgram.pathLengths = [2, 2] := by rfl
  have hrefused : respond shallowSettings (parseRequest eitherRule) =
      .ok (tooDeep shallowSettings 2) := by
    obtain ⟨q, response, hreduce, hresponse, hgates⟩ :=
      hgate shallowSettings _ _ _ _ hshallow hasks hlength hprogram
    obtain rfl := Except.ok.inj (hreduced.symm.trans hreduce)
    have hstatus : response.status ≠ 200 := by
      rw [Ne, hgates.status_iff, hpaths]
      decide
    obtain ⟨levels, hlevels, rfl⟩ := hgates.refused hstatus
    have htwo : levels = 2 := by simpa [hpaths] using hlevels.1
    rw [hresponse, htwo]
  have hrefused' : respond shallowSettings (parseRequest enclosedRule) =
      .ok (tooDeep shallowSettings 2) := by
    obtain ⟨q, hq, hconditions⟩ : ∃ q, Rule.canonical enclosedRule = .ok q
        ∧ eitherProgram.clauses.map (·.condition) = q.clauses.map (·.condition) := ⟨_, rfl, rfl⟩
    obtain ⟨x, x', hx, hx', -, hequal⟩ := hsame shallowSettings _ _ _ _ _ _ _ _ hshallow hasks
      hlength hasks' hlength' hcanonical hq hconditions
    rw [hrefused] at hx
    cases hx
    rw [hx', ← hequal (by decide)]
  have hshown : respond .default (parseRequest eitherRule) =
      .ok (.reply 200 (.object [("program", eitherProgram.toJson)])) := by
    obtain ⟨q, response, hreduce, hresponse, hgates⟩ :=
      hgate .default _ _ _ _ hdefault hasks hlength hprogram
    obtain rfl := Except.ok.inj (hreduced.symm.trans hreduce)
    have hstatus : response.status = 200 := by
      rw [hgates.status_iff, hpaths]
      decide
    rw [hresponse, hgates.shown hstatus]
  have hwrapped : wrapped.WellFormed := by decide
  exact ⟨hshallow, hasks, hasks', hrefused, hrefused', hshown, hwrapped, (hdepth _ hwrapped).1, rfl,
    _, rfl, rfl⟩

end Verdict.Service
