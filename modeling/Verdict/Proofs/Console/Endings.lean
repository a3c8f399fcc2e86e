import Verdict.Proofs.Console.Agreement
import Verdict.Proofs.Console.Drawing
import Verdict.Proofs.Failure.Printable

/-!
# How commands end

A command whose rule can be had either succeeds and writes nothing but lines about the rule, or it
writes one line that tells why it cannot go on, and nothing else. This line has printable characters
only, whatever stands in the rule and in the list of assignments. Runs of digits that are too long
to be read are excluded. Where the settings ask for a log of steps, its records stand in front of
what is written about errors.
-/

namespace Verdict

open Text

/-! ### Runs of digits -/

/-- Without white space there is no run of digits in the text that is too long to be read. -/
def HasShortRuns (s : String) : Prop :=
  ∀ ds, ds <:+: removeBlanks s.toList → (∀ c ∈ ds, isDigit c = true) →
    ds.length ≤ Integer.maxDigits

/-- A run of digits is one when white space is removed. -/
theorem infix_removeBlanks {ds s : List Char} (h : ds <:+: s)
    (hdigits : ∀ c ∈ ds, isDigit c = true) :
  ds <:+: removeBlanks s
  := by
  have hkept : removeBlanks ds = ds := by
    rw [removeBlanks, List.filter_eq_self]
    intro c hc
    rw [isBlank_of_isDigit (hdigits c hc)]
    rfl
  rw [← hkept]
  apply h.filter

theorem hasShortRuns_of_length_le {s : String} (h : s.length ≤ Integer.maxDigits) :
  HasShortRuns s
  := by
  intro ds hds _
  rw [← String.length_toList] at h
  apply (hds.length_le.trans (List.length_filter_le _ _)).trans h

namespace HasShortRuns

variable {s : String} (h : HasShortRuns s) (f : Failure)

include h

theorem not_isOverlong_removeBlanks :
  ¬ f.IsOverlong (removeBlanks s.toList)
  := by
  rintro ⟨ds, hds, hdigits, hlong, -⟩
  apply Nat.not_le.mpr hlong (h ds hds hdigits)

theorem not_isOverlong :
  ¬ f.IsOverlong s.toList
  := by
  rintro ⟨ds, hds, hdigits, hlong, -⟩
  apply Nat.not_le.mpr hlong (h ds (infix_removeBlanks hds hdigits) hdigits)

end HasShortRuns

/-! ### Failures that are told -/

/-- The failure is a fault whose message has printable characters only. -/
def Failure.IsTold (f : Failure) : Prop :=
  ∃ g : Fault, f = .fault g ∧ Printable g.message

theorem Failure.IsFault.isTold {kinds : List String} {f : Failure} (h : f.IsFault kinds)
    (hkinds : "malformed_clause" ∉ kinds) :
  f.IsTold
  := by
  obtain ⟨g, rfl, hkind⟩ := h
  use g, rfl
  apply Fault.printable_message
  rintro typeName rfl
  exact hkinds hkind

namespace FailsOnly

variable {α : Type} {kinds : List String} {s : List Char} {r : Except Failure α}

/-- Faults of texts are told. -/
theorem printable_message (h : FailsOnly (fun f => f.IsFault kinds ∨ f.IsOverlong s) r)
    (hkinds : "malformed_clause" ∉ kinds) {f : Fault} (hr : r = .error (.fault f)) :
  Printable f.message
  := by
  rcases h.of_error hr with hf | ⟨ds, -, -, -, hf⟩
  · obtain ⟨g, hg, hprintable⟩ := hf.isTold hkinds
    cases hg
    exact hprintable
  · cases hf

/-- Without long runs of digits all failures of texts are told. -/
theorem told (h : FailsOnly (fun f => f.IsFault kinds ∨ f.IsOverlong s) r)
    (hkinds : "malformed_clause" ∉ kinds) (hshort : ∀ f : Failure, ¬ f.IsOverlong s) :
  FailsOnly Failure.IsTold r
  := by
  apply h.mono
  rintro f (hf | hlong)
  · apply hf.isTold hkinds
  · exact absurd hlong (hshort f)

end FailsOnly

theorem Rule.failsOnly_tokens_told (rule : String) :
  FailsOnly Failure.IsTold (tokens rule)
  := by
  apply (failsOnly_tokens rule).mono
  intro f hf
  apply hf.isTold (by decide)

section

variable {rule : String} (h : HasShortRuns rule)

include h

theorem Rule.failsOnly_canonical_told :
  FailsOnly Failure.IsTold (canonical rule)
  := (failsOnly_canonical rule).told (by decide) h.not_isOverlong

theorem Rule.failsOnly_evaluate_told {env : Environment} (henv : env.IsWritable) :
  FailsOnly Failure.IsTold (evaluate rule env).result
  := (failsOnly_evaluate rule henv).told (by decide) h.not_isOverlong

/-- The numbers to return of a rule without long runs of digits can be read. -/
theorem HasShortRuns.length_returns_le {p : Program} (hp : Rule.canonical rule = .ok p) :
  ∀ r ∈ p.returns, r.value.text.length ≤ Integer.maxDigits
  := by
  obtain ⟨ts, htokens, hvalues⟩ := Grammar.value_mem_of_canonical hp
  intro r hr
  have hkind := ((Grammar.canonical_of_rule hp).returns r hr).value.kind_eq
  by_contra hlong
  apply h.not_isOverlong
  apply Rule.isOverlong_of_tooLong htokens (hvalues r hr) ⟨hkind, Nat.not_le.mp hlong, rfl⟩

end

theorem Environment.failsOnly_ofAssignments_told {list : String} (h : HasShortRuns list) :
  FailsOnly Failure.IsTold (ofAssignments list)
  := (failsOnly_ofAssignments list).told (by decide) h.not_isOverlong_removeBlanks

/-- The fault is raised by a step of the work on a rule, or on a list of assignments. -/
def Fault.IsRaised (f : Fault) (rule list : String) : Prop :=
  Rule.tokens rule = .error f
    ∨ Rule.canonical rule = .error f
    ∨ Environment.ofAssignments list = .error f
    ∨ ∃ env, Environment.ofAssignments list = .ok env ∧ (Rule.evaluate rule env).result = .error f

/-- What the faults of rules and of lists of assignments tell has printable characters only. -/
theorem Fault.IsRaised.printable_message {f : Fault} {rule list : String}
    (h : f.IsRaised rule list) :
  Printable f.message
  := by
  rcases h with htokens | hcanonical | hlist | ⟨env, henv, hevaluate⟩
  · obtain ⟨g, hg, hprintable⟩ := (Rule.failsOnly_tokens_told rule).of_error htokens
    cases hg
    exact hprintable
  · apply (Rule.failsOnly_canonical rule).printable_message (by decide) hcanonical
  · apply (Environment.failsOnly_ofAssignments list).printable_message (by decide) hlist
  · have hwritable := Environment.isWritable_of_ofAssignments henv
    apply (Rule.failsOnly_evaluate rule hwritable).printable_message (by decide) hevaluate

/-! ### Commands -/

namespace Console

/-- The lines about a rule without long runs of digits are there, or it is told why not. -/
theorem Invocation.failsOnly_lines (settings : Settings) {i : Invocation} {rule : String}
    (hrule : HasShortRuns rule) (hvars : HasShortRuns i.vars) :
  FailsOnly Failure.IsTold (i.lines settings rule)
  := by
  rw [lines]
  cases i.command with
  | evaluate =>
    have henv := Environment.failsOnly_ofAssignments_told hvars
    cases hread : Environment.ofAssignments i.vars with
    | error f => exact henv.of_error hread
    | ok env =>
      apply FailsOnly.map
      apply Rule.failsOnly_evaluate_told hrule (Environment.isWritable_of_ofAssignments hread)
  | parse =>
    apply (Rule.failsOnly_canonical_told hrule).bind
    intro p hp
    have hlength := hrule.length_returns_le hp
    obtain ⟨o, hsaid, -⟩ := (Grammar.canonical_of_rule hp).exists_outline hlength
    rw [hsaid.treeLines_eq]
    trivial
  | tokens =>
    apply FailsOnly.map
    apply Rule.failsOnly_tokens_told
  | check =>
    apply FailsOnly.map
    apply Rule.failsOnly_canonical_told hrule

/-- The command succeeds and nothing is wrong, or it writes one line of printable characters that
tells why it cannot go on, and nothing else. -/
def Output.IsClean (output : Output) : Prop :=
  output.code = 0 ∧ output.err = ""
    ∨ output.code = 1 ∧ output.out = ""
      ∧ ∃ reason, output.err = "Błąd: " ++ reason ++ "\n" ∧ Printable reason

theorem isClean_success (lines : List String) :
  (Output.success lines).IsClean
  := Or.inl ⟨rfl, rfl⟩

theorem isClean_stop {reason : String} (h : Printable reason) :
  (Output.stop reason).IsClean
  := by
  right
  refine ⟨rfl, rfl, reason, ?_, h⟩
  rw [← String.toList_inj]
  simp [Output.stop, unlines]

/-- A command that has its lines, or is told why there are none, ends cleanly. -/
theorem exists_conclude {r : Except Failure (List String)} (h : FailsOnly Failure.IsTold r) :
  ∃ output, conclude r = .ok output ∧ output.IsClean
  := by
  cases r with
  | ok lines => exact ⟨_, rfl, isClean_success lines⟩
  | error f =>
    obtain ⟨g, rfl, hmessage⟩ := h
    have hopen : Printable "[" := printable_of_isCommon rfl
    have hclose : Printable "] " := printable_of_isCommon rfl
    have hkind := (hopen.append g.printable_kind).append hclose
    exact ⟨_, rfl, isClean_stop (hkind.append hmessage)⟩

/-- The rule that comes from the source is the text: it is given on the command line, or the bytes
of the file or of the input are the text. -/
def Source.Gives (source : Source) (bytes : Except ReadFault ByteArray) (rule : String) : Prop :=
  match source with
  | .argument text => text = rule
  | .file path => path.contains '\x00' = false ∧ ∃ bs, bytes = .ok bs ∧ readText bs = .ok rule
  | .input => ∃ bs, bytes = .ok bs ∧ readText bs = .ok rule

/-- A rule that is given is the one that the command has, unless it is blank. -/
theorem ruleText_eq {i : Invocation} {bytes : Except ReadFault ByteArray} {rule : String}
    (h : i.source.Gives bytes rule) :
  i.ruleText bytes = .ok rule ∨ i.ruleText bytes = nonBlank rule
  := by
  cases hsource : i.source with
  | argument text =>
    rw [hsource] at h
    cases h
    simp [Invocation.ruleText, hsource]
  | file path =>
    rw [hsource] at h
    obtain ⟨hpath, bs, rfl, hread⟩ := h
    left
    simp [Invocation.ruleText, hsource, fileRule, hpath, hread, Except.mapError]
  | input =>
    rw [hsource] at h
    obtain ⟨bs, rfl, hread⟩ := h
    right
    simp [Invocation.ruleText, hsource, hread, Except.mapError, Except.bind]

/-- The record in a log is that of a step. -/
def IsStepRecord (record : String) : Prop :=
  ∃ line, record = stepRecord line

theorem Invocation.isStepRecord_of_mem_log {settings : Settings} {i : Invocation} {rule : String} :
  ∀ record ∈ i.log settings rule, IsStepRecord record
  := by
  unfold log
  split
  · split
    · intro record hrecord
      obtain ⟨line, -, rfl⟩ := List.mem_map.mp hrecord
      exact ⟨line, rfl⟩
    · simp
  · simp

/-- The command ends cleanly behind records of steps, of which there are none where the settings do
not ask for them. -/
def EndsCleanly (settings : Settings) (run : Except Crash Output) : Prop :=
  ∃ (log : List String) (output : Output), run = .ok (output.logged log) ∧ output.IsClean
    ∧ (∀ record ∈ log, IsStepRecord record) ∧ (settings.logLevel.showsSteps = false → log = [])

/-- A command with a rule without long runs of digits ends cleanly. -/
theorem endsCleanly_run {i : Invocation} {bytes : Except ReadFault ByteArray} {rule : String}
    (h : i.source.Gives bytes rule) (hrule : HasShortRuns rule) (hvars : HasShortRuns i.vars)
    (settings : Settings) :
  EndsCleanly settings (i.run settings bytes)
  := by
  have hconclude : i.ruleText bytes = .ok rule → EndsCleanly settings (i.run settings bytes) := by
    intro htext
    obtain ⟨output, houtput, hclean⟩ :=
      exists_conclude (i.failsOnly_lines settings hrule hvars)
    rw [run_of_ruleText htext, houtput]
    exact ⟨i.log settings rule, output, rfl, hclean, i.isStepRecord_of_mem_log,
      fun hlevel => i.log_eq_nil hlevel rule⟩
  rcases ruleText_eq h with htext | htext
  · apply hconclude htext
  · rw [nonBlank] at htext
    split_ifs at htext
    · have hreason : Printable "podaj regułę przez --rule, --file lub stdin" :=
        printable_of_isCommon rfl
      rw [Invocation.run, htext]
      refine ⟨[], _, congrArg _ (Output.logged_nil _).symm, isClean_stop hreason, ?_, fun _ => rfl⟩
      simp
    · apply hconclude htext

/-- A rule that is cut off by a control character. -/
def escapeRule : String := "x\x1b"

/-- The evaluation of a rule with a control character in the name of a variable. -/
def bellInvocation : Invocation := ⟨.evaluate, escapeRule, "", "\x07x=1", true, false⟩

/-- The default settings with a log of steps. -/
def debugSettings : Settings :=
  { Settings.default with logLevel := .debug }

/-- A variable of the system asks for a log of steps. -/
theorem settingsOf_debug :
  settingsOf none [("DECISION_RULES_LOG_LEVEL", "debug")] = .ok debugSettings
  := by
  have hfile : Settings.File.bindings [("DECISION_RULES_LOG_LEVEL", "debug")] "" = [] := rfl
  have hname : Settings.settingName? "DECISION_RULES_LOG_LEVEL" = some "log_level" := by cbv
  have hvars : Settings.ofVariables [("DECISION_RULES_LOG_LEVEL", "debug")] "" =
      .ok debugSettings := by
    rw [Settings.ofVariables, hfile, Settings.ofEntries]
    simp only [List.nil_append, List.map_cons, List.map_nil, List.filterMap_cons, hname,
      List.filterMap_nil]
    unfold debugSettings
    cbv
  rw [settingsOf]
  simp [hvars, Except.mapError]

/-- The evaluation of a rule without a comparison. -/
def testingInvocation : Invocation := ⟨.evaluate, Rule.testingRule, "", "", false, true⟩

/-- The value of the rule, and the records of the steps to it. -/
def stepsOutput : Output :=
  ⟨0, "1\n", unlines
    ["DEBUG:decision_rules.evaluator:IS-MISSING(x): absent = True",
     "DEBUG:decision_rules.evaluator:IF #0: true -> 1",
     "DEBUG:decision_rules.evaluator:selected IF #0 -> 1"]⟩

end Console

end Verdict
