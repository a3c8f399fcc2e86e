import Mathlib.Data.List.Induction
import Mathlib.Data.Set.Card
import Mathlib.Tactic.Use
import Verdict.Environment.History
import Verdict.Proofs.Environment.Binding
import Verdict.Service.Basic

/-!
# The last writer prevails

A history of revisions has an effect on the environment only from the last replacement on that was
not rejected. Of the revisions from there on, the latest one that overrides and binds a name gives
the name its binding, and if there is none, the earliest one that completes and binds it. This is
what `Environment.find?` tells after the history, with a name that is bound to no value on the same
footing as any other. The size of an environment is the number of the names that are bound.
-/

namespace Verdict.Environment

/-! ### Size -/

/-- The names that are bound. -/
def boundNames (env : Environment) : List String :=
  env.entries.map (·.1)

theorem nodup_boundNames (env : Environment) :
  env.boundNames.Nodup
  := by
  rw [boundNames, List.nodup_iff_pairwise_ne, List.pairwise_map]
  apply env.sorted.imp
  intro e d hlt heq
  rw [heq] at hlt
  apply String.lt_irrefl _ hlt

theorem mem_boundNames_iff {env : Environment} {name : String} :
  name ∈ env.boundNames ↔ env.find? name ≠ none
  := by
  rw [boundNames, List.mem_map, find?, Ne, Option.map_eq_none_iff, List.find?_eq_none]
  simp

/-- The size of an environment is the number of the names that are bound. -/
theorem size_eq_ncard (env : Environment) :
  env.size = {name | env.find? name ≠ none}.ncard
  := by
  have hnames : {name | env.find? name ≠ none} = (env.boundNames.toFinset : Set String) := by
    ext name
    rw [List.coe_toFinset]
    apply mem_boundNames_iff.symm
  rw [hnames, Set.ncard_coe_finset, List.toFinset_card_of_nodup env.nodup_boundNames, boundNames,
    List.length_map, size]

/-- A name is present if it is bound to a value. -/
theorem contains_iff {env : Environment} {name : String} :
  env.contains name = true ↔ ∃ v, env.find? name = some (some v)
  := by
  rw [contains, value?]
  rcases env.find? name with - | - | v
  · simp
  · simp
  · simp

/-! ### One revision -/

namespace Revision

/-- The binding of a name that a revision brings. A rejected one brings none. -/
def find? (r : Revision) (name : String) : Option (Option Number) :=
  match r.given with
  | .ok new => new.find? name
  | .error _ => none

/-- The revision puts its bindings in the place of all others. -/
def replaces (r : Revision) : Bool :=
  match r.given with
  | .ok _ => r.mode == .replace
  | .error _ => false

/-- The binding of a name that prevails over the current one. -/
def overriding? (r : Revision) (name : String) : Option (Option Number) :=
  if r.mode = .complete then none else r.find? name

/-- The binding of a name over which the current one prevails. -/
def completing? (r : Revision) (name : String) : Option (Option Number) :=
  if r.mode = .complete then r.find? name else none

/-- A binding that a revision brings prevails over the current one, or is prevailed over. -/
theorem find?_eq_none_iff {r : Revision} {name : String} :
  r.find? name = none ↔ r.overriding? name = none ∧ r.completing? name = none
  := by
  rw [overriding?, completing?]
  by_cases hmode : r.mode = .complete
  · simp [hmode]
  · simp [hmode]

/-- A replacement completes nothing. -/
theorem mode_of_replaces {r : Revision} (h : r.replaces = true) :
  r.mode = .replace
  := by
  rw [replaces] at h
  split at h
  · simpa using h
  · cases h

end Revision

/-- The binding of a name after a revision: that of a replacement, and otherwise the first of the
binding that overrides, the current one, and the binding that completes. -/
theorem find?_revise (env : Environment) (r : Revision) (name : String) :
  (env.revise r).find? name =
    if r.replaces then
      r.overriding? name
    else
      (r.overriding? name).or ((env.find? name).or (r.completing? name))
  := by
  rcases r with ⟨mode, f | new⟩
  · simp [revise, Revision.replaces, Revision.overriding?, Revision.completing?, Revision.find?]
  · cases mode with
    | replace => rfl
    | override =>
      simp [revise, combine, find?_merge, Revision.replaces, Revision.overriding?,
        Revision.completing?, Revision.find?]
    | complete =>
      simp [revise, combine, find?_merge, Revision.replaces, Revision.overriding?,
        Revision.completing?, Revision.find?]

/-! ### Histories -/

/-- The revisions from the last replacement on, which is the first of them. -/
def inForce : List Revision → List Revision
  | [] => []
  | r :: rs => if rs.any (·.replaces) then inForce rs else r :: rs

/-- The binding of a name that the latest of the revisions which override gives it, or else the
earliest of those which complete. -/
def prevailing? (rs : List Revision) (name : String) : Option (Option Number) :=
  (rs.reverse.findSome? (·.overriding? name)).or (rs.findSome? (·.completing? name))

theorem inForce_concat (rs : List Revision) (r : Revision) :
  inForce (rs ++ [r]) = if r.replaces then [r] else inForce rs ++ [r]
  := by
  induction rs with
  | nil => simp [inForce]
  | cons s rs ih =>
    rw [List.cons_append, inForce, inForce, ih]
    by_cases hr : r.replaces = true
    · simp [hr]
    · by_cases hrs : rs.any (·.replaces) = true
      · simp [hr, hrs]
      · simp [hr, hrs]

theorem prevailing?_singleton {r : Revision} (h : r.mode = .replace) (name : String) :
  prevailing? [r] name = r.overriding? name
  := by
  simp [prevailing?, Revision.completing?, h]

theorem prevailing?_concat (rs : List Revision) (r : Revision) (name : String) :
  prevailing? (rs ++ [r]) name =
    (r.overriding? name).or ((prevailing? rs name).or (r.completing? name))
  := by
  have hover : (rs ++ [r]).reverse.findSome? (·.overriding? name) =
      (r.overriding? name).or (rs.reverse.findSome? (·.overriding? name)) := by
    rw [List.reverse_concat, List.findSome?_cons]
    cases r.overriding? name with
    | none => rfl
    | some v => rfl
  rw [prevailing?, prevailing?, hover, List.findSome?_append, List.findSome?_singleton,
    Option.or_assoc, Option.or_assoc]

theorem afterHistory_concat (rs : List Revision) (r : Revision) :
  afterHistory (rs ++ [r]) = (afterHistory rs).revise r
  := by
  rw [afterHistory, afterHistory, List.foldl_append, List.foldl_cons, List.foldl_nil]

/-- The binding of a name after a history is the one that prevails among the revisions in force. -/
theorem find?_afterHistory (rs : List Revision) (name : String) :
  (afterHistory rs).find? name = prevailing? (inForce rs) name
  := by
  induction rs using List.reverseRecOn with
  | nil => rfl
  | append_singleton rs r ih =>
    rw [afterHistory_concat, find?_revise, inForce_concat, ih]
    by_cases hr : r.replaces = true
    · rw [if_pos hr, if_pos hr, prevailing?_singleton (Revision.mode_of_replaces hr)]
    · rw [if_neg hr, if_neg hr, prevailing?_concat]

/-- A name has a prevailing binding if one of the revisions binds it. -/
theorem prevailing?_ne_none_iff {rs : List Revision} {name : String} :
  prevailing? rs name ≠ none ↔ ∃ r ∈ rs, r.find? name ≠ none
  := by
  rw [prevailing?, Ne, Option.or_eq_none_iff, List.findSome?_eq_none_iff,
    List.findSome?_eq_none_iff]
  simp only [List.mem_reverse, ← forall₂_and, ← Revision.find?_eq_none_iff]
  rw [not_forall₂]
  simp only [exists_prop]

/-! ### Requests -/

/-- In the environment of a request the variables prevail over the list of assignments. -/
theorem exists_environment_of_list (e : Service.Evaluation) {list : String} {listed : Environment}
    (h : ofAssignments list = .ok listed) :
  ∃ env, e.environment list = .ok env
    ∧ ∀ name, env.find? name = (e.bindings.find? name).or (listed.find? name)
  := by
  rw [Service.Evaluation.environment]
  by_cases hempty : list.isEmpty = true
  · rw [if_pos hempty]
    use e.bindings, rfl
    obtain rfl : listed = empty := by
      rw [String.isEmpty_iff] at hempty
      subst hempty
      exact (Except.ok.inj h).symm
    intro name
    apply Option.or_none.symm
  · rw [if_neg hempty, h]
    use listed.merge e.bindings, rfl
    apply find?_merge

/-- A request whose list of assignments can be read is answered in the environment of the request.
-/
theorem respondTo_of_environment {settings : Settings} {body : Json} {e : Service.Evaluation}
    {list : String} {env : Environment}
    (hform : (Service.Form.fields body).bind Service.Form.evaluation = .ok e)
    (hlength : (e.rule.length : Int) ≤ settings.maxRuleLength) (hlist : e.assignments = .text list)
    (henv : e.environment list = .ok env) :
  Service.respondTo settings .evaluate body = Service.evaluateIn settings e env
  := by
  rw [Service.respondTo, hform, Service.formed, Service.withinLength, Service.refuseLength?,
    if_neg (Int.not_lt.mpr hlength), Service.evaluate, hlist]
  change Service.evaluateWith settings e list = _
  rw [Service.evaluateWith, henv]

/-- The last writer prevails in every history. The binding of a name is the one that the latest of
the revisions in force which override or replace gives it, or else the earliest of those which
complete; so a name is bound if one of the revisions in force binds it. It is present if it is bound
to a value, and the size of the environment is the number of names that are bound. To override a
name with no value makes it absent, and to complete an environment leaves the names that are present
as they are. In the environment of a request the variables prevail over the list of assignments, and
it is this environment in which the service evaluates the rule of the request. -/
theorem latest_binding_prevails (rs : List Revision) (name : String) :
  (afterHistory rs).find? name = prevailing? (inForce rs) name
    ∧ ((afterHistory rs).find? name ≠ none ↔ ∃ r ∈ inForce rs, r.find? name ≠ none)
    ∧ ((afterHistory rs).contains name = true ↔
        ∃ v, (afterHistory rs).find? name = some (some v))
    ∧ (afterHistory rs).value? name = ((afterHistory rs).find? name).join
    ∧ (afterHistory rs).size = {n | (afterHistory rs).find? n ≠ none}.ncard
    ∧ (∀ new, new.find? name = some none →
        (afterHistory (rs ++ [⟨.override, .ok new⟩])).contains name = false)
    ∧ (∀ new, (afterHistory rs).contains name = true →
        (afterHistory (rs ++ [⟨.complete, .ok new⟩])).value? name = (afterHistory rs).value? name)
    ∧ ∀ (e : Service.Evaluation) (list : String) (listed : Environment),
        ofAssignments list = .ok listed →
          ∃ env, e.environment list = .ok env
            ∧ (∀ n, env.find? n = (e.bindings.find? n).or (listed.find? n))
            ∧ ∀ (settings : Settings) (body : Json),
              (Service.Form.fields body).bind Service.Form.evaluation = .ok e →
              (e.rule.length : Int) ≤ settings.maxRuleLength → e.assignments = .text list →
              Service.respondTo settings .evaluate body = Service.evaluateIn settings e env
  := by
  refine ⟨find?_afterHistory rs name, ?_, contains_iff, rfl, size_eq_ncard _, ?_, ?_, ?_⟩
  · rw [find?_afterHistory]
    apply prevailing?_ne_none_iff
  · intro new hnew
    have hrevise : (afterHistory rs).revise ⟨.override, .ok new⟩ =
        (afterHistory rs).merge new := rfl
    rw [afterHistory_concat, hrevise, contains, value?, find?_merge, hnew]
    rfl
  · intro new hpresent
    have hrevise : (afterHistory rs).revise ⟨.complete, .ok new⟩ =
        new.merge (afterHistory rs) := rfl
    obtain ⟨v, hv⟩ := contains_iff.mp hpresent
    rw [afterHistory_concat, hrevise, value?, value?, find?_merge, hv]
    rfl
  · intro e list listed hlisted
    obtain ⟨env, henv, hfind⟩ := exists_environment_of_list e hlisted
    refine ⟨env, henv, hfind, ?_⟩
    intro settings body hform hlength hlist
    exact respondTo_of_environment hform hlength hlist henv

/-- A history with a replacement, an overriding revision, one that completes, and a rejected one. -/
def mixedHistory : List Revision :=
  [⟨.replace, ofAssignments "x=1; y="⟩, ⟨.complete, ofAssignments "x=5; y=6; z=7"⟩,
    ⟨.override, ofAssignments "x=8; z!"⟩, ⟨.override, .ok (empty.set "z" (some (.integer 9)))⟩,
    ⟨.complete, ofAssignments "w=2"⟩]

/-- The body of a request in which a variable without a value overrides the list. -/
def overridingBody : Json :=
  .object [("rule", .string "x"), ("variables", .object [("a", .null)]),
    ("assignments", .string "a=1")]

/-- What the body asks for. -/
def overridingEvaluation : Service.Evaluation :=
  ⟨"x", empty.set "a" none, "a=1", false⟩

theorem latest_binding_prevails_mixedHistory :
  (afterHistory mixedHistory).find? "x" = some (some (.integer 1))
    ∧ (afterHistory mixedHistory).find? "y" = some none
    ∧ (afterHistory mixedHistory).find? "z" = some (some (.integer 9))
    ∧ (afterHistory mixedHistory).find? "w" = some (some (.integer 2))
    ∧ (empty.set "x" none).find? "x" = some none
    ∧ (afterHistory (mixedHistory ++ [⟨.override, .ok (empty.set "x" none)⟩])).contains "x" = false
    ∧ (afterHistory mixedHistory).contains "x" = true
    ∧ (afterHistory (mixedHistory ++ [⟨.complete, .ok (empty.set "x" none)⟩])).value? "x" =
        (afterHistory mixedHistory).value? "x"
    ∧ (Service.Form.fields overridingBody).bind Service.Form.evaluation = .ok overridingEvaluation
    ∧ ∃ listed, ofAssignments "a=1" = .ok listed
      ∧ ∃ env, overridingEvaluation.environment "a=1" = .ok env
        ∧ (∀ n, env.find? n = ((empty.set "a" none).find? n).or (listed.find? n))
        ∧ Service.respondTo .default .evaluate overridingBody =
          Service.evaluateIn .default overridingEvaluation env
  := by
  have hnone : (empty.set "x" none).find? "x" = some none := by rfl
  have hpresent : (afterHistory mixedHistory).contains "x" = true := by decide
  have hx : (afterHistory mixedHistory).find? "x" = some (some (.integer 1)) :=
    (latest_binding_prevails mixedHistory "x").1.trans (by decide)
  have hy : (afterHistory mixedHistory).find? "y" = some none :=
    (latest_binding_prevails mixedHistory "y").1.trans (by decide)
  have hz : (afterHistory mixedHistory).find? "z" = some (some (.integer 9)) :=
    (latest_binding_prevails mixedHistory "z").1.trans (by decide)
  have hw : (afterHistory mixedHistory).find? "w" = some (some (.integer 2)) :=
    (latest_binding_prevails mixedHistory "w").1.trans (by decide)
  have hform : (Service.Form.fields overridingBody).bind Service.Form.evaluation =
      .ok overridingEvaluation := by rfl
  have hlength : (overridingEvaluation.rule.length : Int) ≤ Settings.default.maxRuleLength := by
    decide
  obtain ⟨-, -, -, -, -, hoverride, hcomplete, hrequest⟩ := latest_binding_prevails mixedHistory "x"
  obtain ⟨env, henv, hfind, hrespond⟩ := hrequest overridingEvaluation "a=1" _ rfl
  refine ⟨hx, hy, hz, hw, hnone, hoverride _ hnone, hpresent, hcomplete _ hpresent, hform, _, rfl,
    env, henv, hfind, ?_⟩
  apply hrespond .default overridingBody hform hlength rfl

end Verdict.Environment
