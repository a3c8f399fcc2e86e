import Verdict.Proofs.Condition.Groups
import Verdict.Proofs.Console.Labels

/-!
# Reading a tree

The lines of a program can be read back. The guides in front of a line tell on which level its node
is, and the rest of the line is the label of the node. There is one line for each clause, for each
node of a condition and for the last clause, and one for the whole. The lines of a condition stand
in the order of its nodes. Programs with the same lines have the same conditions and return the same
numbers.
-/

namespace Verdict

open Console

/-! ### Lines and what they tell -/

/-- The guides that may stand in front of a label. -/
def guides : List (List Char) :=
  ["├── ".toList, "└── ".toList, "│   ".toList, "    ".toList]

/-- The number of guides that a line begins with, and the rest of the line. -/
def readChars : List Char → Nat × List Char
  | a :: b :: c :: d :: s =>
    if [a, b, c, d] ∈ guides then ((readChars s).1 + 1, (readChars s).2)
    else (0, a :: b :: c :: d :: s)
  | s => (0, s)

/-- The level of a line and its label. -/
def readLine (line : String) : Nat × String :=
  ((readChars line.toList).1, String.ofList (readChars line.toList).2)

/-- The text consists of guides, as many as the number tells. -/
def IsIndent (level : Nat) (s : List Char) : Prop :=
  ∃ gs : List (List Char), gs.length = level ∧ (∀ g ∈ gs, g ∈ guides) ∧ s = gs.flatten

/-- The line shows the label on the level. -/
def Shows (entry : Nat × String) (line : String) : Prop :=
  IsLabel entry.2.toList
    ∧ ∃ indent, IsIndent entry.1 indent ∧ line.toList = indent ++ entry.2.toList

theorem readChars_of_isLabel {s : List Char} (h : IsLabel s) :
  readChars s = (0, s)
  := by
  rcases s with _ | ⟨a, _ | ⟨b, _ | ⟨c, _ | ⟨d, s⟩⟩⟩⟩
  · rfl
  · rfl
  · rfl
  · rfl
  · have hhead := h.head a rfl
    have hguide : [a, b, c, d] ∉ guides := by
      intro hmem
      simp [guides] at hmem
      simp at hhead
      tauto
    rw [readChars, if_neg hguide]

theorem readChars_guide {g : List Char} (hg : g ∈ guides) (s : List Char) :
  readChars (g ++ s) = ((readChars s).1 + 1, (readChars s).2)
  := by
  have hmem := hg
  simp only [guides, List.mem_cons, List.not_mem_nil, or_false] at hg
  rcases hg with rfl | rfl | rfl | rfl
  all_goals exact if_pos hmem

/-- A line that shows a label on a level is read as that. -/
theorem Shows.readLine_eq {entry : Nat × String} {line : String} (h : Shows entry line) :
  readLine line = entry
  := by
  obtain ⟨hlabel, indent, ⟨gs, hlevel, hgs, rfl⟩, hline⟩ := h
  have hread : readChars (gs.flatten ++ entry.2.toList) = (gs.length, entry.2.toList) := by
    clear hline hlevel
    induction gs with
    | nil => apply readChars_of_isLabel hlabel
    | cons g gs ih =>
      rw [List.forall_mem_cons] at hgs
      rw [List.flatten_cons, List.append_assoc, readChars_guide hgs.1, ih hgs.2, List.length_cons]
  rw [readLine, hline, hread, hlevel, String.ofList_toList]

theorem Shows.lineFeed_not_mem {entry : Nat × String} {line : String} (h : Shows entry line) :
  '\n' ∉ line.toList
  := by
  obtain ⟨hlabel, indent, ⟨gs, -, hgs, rfl⟩, hline⟩ := h
  have hguides : ∀ g ∈ guides, '\n' ∉ g := by decide
  rw [hline, List.mem_append, List.mem_flatten, not_or]
  use fun ⟨g, hg, hmem⟩ => hguides g (hgs g hg) hmem, hlabel.lineFeed

/-- Lines without line feeds can be told from their text. -/
theorem unlines_inj {lines lines' : List String} (h : ∀ l ∈ lines, '\n' ∉ l.toList)
    (h' : ∀ l ∈ lines', '\n' ∉ l.toList) (heq : unlines lines = unlines lines') :
  lines = lines'
  := by
  have hcons : ∀ (l : String) (ls : List String),
      (unlines (l :: ls)).toList = l.toList ++ '\n' :: (unlines ls).toList := by
    intro l ls
    simp [unlines]
  rw [← String.toList_inj] at heq
  induction lines generalizing lines' with
  | nil =>
    cases lines' with
    | nil => rfl
    | cons l' ls' => simp [unlines] at heq
  | cons l ls ih =>
    cases lines' with
    | nil => simp [unlines] at heq
    | cons l' ls' =>
      rw [List.forall_mem_cons] at h h'
      rw [hcons, hcons, append_cons_inj h.1 h'.1] at heq
      rw [String.toList_inj.mp heq.1, ih h.2 h'.2 heq.2]

/-! ### The lines of a program -/

namespace Condition

/-- What the lines of a condition tell, the level of the whole being given: for each node its level
and its label. -/
def entries (level : Nat) (e : Condition) : List (Nat × String) :=
  e.nodes.map fun x => (level + x.1.length, x.2.label)

theorem entries_join (level : Nat) (op : Operator Connective) (left right : Condition) :
  (join op left right).entries level =
    (level, op.text Connective.text) :: (left.entries (level + 1) ++ right.entries (level + 1))
  := by
  simp [entries, nodes, label, under, Function.comp_def, Nat.add_assoc, Nat.add_comm 1]

theorem entries_group (level : Nat) (inner : Condition) :
  (group inner).entries level = (level, "( )") :: inner.entries (level + 1)
  := by
  simp [entries, nodes, label, under, Function.comp_def, Nat.add_assoc, Nat.add_comm 1]

theorem map_snd_entries (level : Nat) (e : Condition) :
  (e.entries level).map Prod.snd = e.labels
  := by simp [entries, labels]

end Condition

theorem isIndent_zero :
  IsIndent 0 []
  := ⟨[], rfl, by simp, rfl⟩

/-- One more guide makes the next level. -/
theorem IsIndent.append {level : Nat} {s g : List Char} (h : IsIndent level s) (hg : g ∈ guides) :
  IsIndent (level + 1) (s ++ g)
  := by
  obtain ⟨gs, hlevel, hgs, rfl⟩ := h
  refine ⟨gs ++ [g], by simp [hlevel], ?_, by simp⟩
  rw [List.forall_mem_append, List.forall_mem_singleton]
  use hgs

theorem guide_mem (last : Bool) :
  (guide last).toList ∈ guides ∧ (guideBelow last).toList ∈ guides
  := by
  cases last
  all_goals simp [guide, guideBelow, guides]

section

variable {level : Nat} {indent : String} (hindent : IsIndent level indent.toList)

include hindent

/-- A label behind one more guide stands on the next level. -/
theorem shows_line {label : String} (h : IsLabel label.toList) (last : Bool) :
  Shows (level + 1, label) (indent ++ guide last ++ label)
  := by
  refine ⟨h, (indent ++ guide last).toList, ?_, String.toList_append⟩
  rw [String.toList_append]
  apply hindent.append (guide_mem last).1

theorem isIndent_below (last : Bool) :
  IsIndent (level + 1) (indent ++ guideBelow last).toList
  := by
  rw [String.toList_append]
  apply hindent.append (guide_mem last).2

/-- The lines of a legible condition show its nodes, one line for each. -/
theorem Condition.shows_treeLines {e : Condition} (h : e.Legible) (last : Bool) :
  List.Forall₂ Shows (e.entries (level + 1)) (e.treeLines indent last)
  := by
  have hline := shows_line hindent (isLabel_label h) last
  induction e generalizing level indent last with
  | compare | missing => exact .cons hline .nil
  | join op left right ihleft ihright =>
    have hbelow := isIndent_below hindent last
    rw [entries_join, treeLines]
    apply List.Forall₂.cons hline
    apply List.rel_append
    · apply ihleft hbelow h.2.1 _ (shows_line hbelow (isLabel_label h.2.1) _)
    · apply ihright hbelow h.2.2 _ (shows_line hbelow (isLabel_label h.2.2) _)
  | group inner ih =>
    have hbelow := isIndent_below hindent last
    have hinner : inner.Legible := h
    rw [entries_group, treeLines]
    apply List.Forall₂.cons hline
    apply ih hbelow hinner _ (shows_line hbelow (isLabel_label hinner) _)
  | alien typeName => exact h.elim

end

/-- What the lines of clauses tell, the first of which has the given place. -/
def clauseEntries (index : Nat) : List (Condition × Int) → List (Nat × String)
  | [] => []
  | (e, n) :: cs => (1, clauseLabel index n) :: (e.entries 2 ++ clauseEntries (index + 1) cs)

namespace Outline

/-- What the lines of a program tell. -/
def entries (o : Outline) : List (Nat × String) :=
  (0, "RuleProgram") :: (clauseEntries 0 o.clauses ++ [(1, otherwiseLabel o.otherwise)])

/-- All conditions are legible and all numbers can be read. -/
structure Legible (o : Outline) : Prop where
  clauses : ∀ c ∈ o.clauses, c.1.Legible ∧ IsLiteral c.2
  otherwise : IsLiteral o.otherwise

end Outline

theorem shows_clauseDrawings {cs : List (Condition × Int)}
    (h : ∀ c ∈ cs, c.1.Legible ∧ IsLiteral c.2) (index : Nat) :
  List.Forall₂ Shows (clauseEntries index cs)
    ((clauseDrawings index cs).flatMap (Drawing.branchLines "" false))
  := by
  induction cs generalizing index with
  | nil => exact .nil
  | cons c cs ih =>
    rw [List.forall_mem_cons] at h
    obtain ⟨⟨hcondition, hnumber⟩, hrest⟩ := h
    rw [clauseEntries, clauseDrawings, List.flatMap_cons, Drawing.branchLines, Drawing.linesBelow,
      Drawing.linesBelow, List.append_nil, Condition.branchLines_drawing, List.cons_append]
    apply List.Forall₂.cons
    · apply shows_line isIndent_zero (isLabel_clauseLabel index hnumber.1)
    · apply List.rel_append
      · apply Condition.shows_treeLines (isIndent_below isIndent_zero false) hcondition
      · apply ih hrest

/-- The lines of a legible outline show what it has to tell. -/
theorem Outline.Legible.shows_lines {o : Outline} (h : o.Legible) :
  List.Forall₂ Shows o.entries o.drawing.lines
  := by
  have hroot : IsLabel "RuleProgram".toList := by
    constructor
    · simp
    · decide
  rw [entries, drawing, Drawing.lines, Drawing.linesBelow_append_singleton]
  apply List.Forall₂.cons
  · exact ⟨hroot, [], isIndent_zero, rfl⟩
  · apply List.rel_append
    · apply shows_clauseDrawings h.clauses
    · exact .cons (shows_line isIndent_zero (isLabel_otherwiseLabel h.otherwise.1) _) .nil

/-- Lines are read as what they show. -/
theorem map_readLine_eq {entries : List (Nat × String)} {lines : List String}
    (h : List.Forall₂ Shows entries lines) :
  lines.map readLine = entries
  := by
  induction h with
  | nil => rfl
  | cons hline _ ih => rw [List.map_cons, hline.readLine_eq, ih]

/-! ### Programs with the same lines -/

/-- Clauses are determined by their labels and the ones below them. -/
theorem eq_of_clauseEntries {cs cs' : List (Condition × Int)} {index : Nat} {n n' : Int}
    (h : ∀ c ∈ cs, c.1.Legible ∧ IsLiteral c.2) (h' : ∀ c ∈ cs', c.1.Legible ∧ IsLiteral c.2)
    (heq : (clauseEntries index cs).map Prod.snd ++ [otherwiseLabel n] =
      (clauseEntries index cs').map Prod.snd ++ [otherwiseLabel n']) :
  cs = cs' ∧ n = n'
  := by
  induction cs generalizing cs' index with
  | nil =>
    cases cs' with
    | nil =>
      use rfl
      apply otherwiseLabel_inj (List.cons.inj heq).1
    | cons c' cs' => exact absurd (List.cons.inj heq).1.symm (clauseLabel_ne_otherwiseLabel _ _ _)
  | cons c cs ih =>
    cases cs' with
    | nil => exact absurd (List.cons.inj heq).1 (clauseLabel_ne_otherwiseLabel _ _ _)
    | cons c' cs' =>
      rw [List.forall_mem_cons] at h h'
      obtain ⟨e, m⟩ := c
      obtain ⟨e', m'⟩ := c'
      simp only [clauseEntries, List.map_cons, List.map_append, Condition.map_snd_entries,
        List.cons_append, List.append_assoc, List.cons.injEq] at heq
      obtain ⟨hlabel, hbelow⟩ := heq
      obtain ⟨rfl, hrest⟩ := Condition.eq_of_labels_append h.1.1 h'.1.1 hbelow
      obtain ⟨rfl, rfl⟩ := ih h.2 h'.2 hrest
      rw [clauseLabel_inj hlabel]
      exact ⟨rfl, rfl⟩

/-- A legible outline is determined by the text of its lines. -/
theorem Outline.Legible.eq_of_unlines {o o' : Outline} (h : o.Legible) (h' : o'.Legible)
    (heq : unlines o.drawing.lines = unlines o'.drawing.lines) :
  o = o'
  := by
  have hlines : o.drawing.lines = o'.drawing.lines := by
    apply unlines_inj _ _ heq
    · intro l hl
      obtain ⟨entry, -, hshows⟩ := exists_mem_of_forall₂ h.shows_lines hl
      apply hshows.lineFeed_not_mem
    · intro l hl
      obtain ⟨entry, -, hshows⟩ := exists_mem_of_forall₂ h'.shows_lines hl
      apply hshows.lineFeed_not_mem
  have hentries : o.entries = o'.entries := by
    rw [← map_readLine_eq h.shows_lines, hlines, map_readLine_eq h'.shows_lines]
  have hsnd := congrArg (List.map Prod.snd) (List.cons.inj hentries).2
  rw [List.map_append, List.map_append] at hsnd
  obtain ⟨hclauses, hotherwise⟩ := eq_of_clauseEntries h.clauses h'.clauses hsnd
  obtain ⟨cs, n⟩ := o
  obtain ⟨cs', n'⟩ := o'
  obtain rfl : cs = cs' := hclauses
  obtain rfl : n = n' := hotherwise
  rfl

/-! ### Programs that are read from rules -/

theorem length_clauseEntries {ks : List Clause} {cs : List (Condition × Int)}
    (h : List.Forall₂ Clause.Says ks cs) (index : Nat) :
  (clauseEntries index cs).length = (ks.map fun k => 1 + k.condition.nodeCount).sum
  := by
  induction h generalizing index with
  | nil => rfl
  | @cons k c ks cs hk _ ih =>
    obtain ⟨e, n⟩ := c
    obtain ⟨rfl, -⟩ := hk
    rw [clauseEntries, List.length_cons, List.length_append, ih, Condition.entries,
      List.length_map, Condition.length_nodes, List.map_cons, List.sum_cons]
    omega

namespace Program

variable {p : Program}

theorem IsRead.exists_reduce (h : p.IsRead) :
  ∃ q, p.reduce = .ok q ∧ q.Canonical
  := by
  obtain ⟨text, hp | hp⟩ := h
  · obtain ⟨q, hreduce, hq⟩ := Rule.exists_reduce_of_program hp
    use q, hreduce
    apply Grammar.canonical_of_rule hq
  · obtain ⟨p₀, -, hreduce⟩ := exists_of_bind_eq_ok hp
    use p, reduce_idempotent hreduce
    apply Grammar.canonical_of_rule hp

/-- A program that is read says something legible if its numbers can be read. -/
theorem IsRead.exists_outline (h : p.IsRead)
    (hlength : ∀ r ∈ p.returns, r.value.text.length ≤ Integer.maxDigits) :
  ∃ o : Outline, p.Says o ∧ o.Legible
  := by
  obtain ⟨q, hreduce, hq⟩ := h.exists_reduce
  obtain ⟨hclauses, -, hotherwise⟩ := reduce_eq_ok hreduce
  rw [forall_mem_returns] at hlength
  have hlegible : ∀ k ∈ p.clauses, k.condition.Legible ∧ k.result.Canonical := by
    intro k hk
    obtain ⟨k', hk', hreduces⟩ :=
      exists_mem_of_forall₂ (reducesTo_of_reduceClauses hclauses).flip hk
    have hcanonical := hq.clauses k' hk'
    use Condition.legible_of_reduce hreduces.condition hcanonical.condition
    rw [← hreduces.result]
    apply hcanonical.result
  obtain ⟨cs, hsaid, hall⟩ := exists_outline_of_clauses hlegible hlength.1
  have hresult := hq.otherwise.result
  rw [hotherwise] at hresult
  obtain ⟨n, hnumber, hliteral⟩ := hresult.exists_number hlength.2
  exact ⟨⟨cs, n⟩, ⟨hsaid, hnumber⟩, hall, hliteral⟩

/-- The tree of a program that is read from a rule is drawn branch by branch, and there is one line
for the whole, one for each clause and for each node of its condition, and one for the last clause.
Every line is read as the level and the label of its node. However a drawing and the stack look, a
condition is drawn at its place with all its parts. The nodes of a condition are all its parts in
the order of their paths, a part before those below it and left before right, and what comes between
a node and one of the parts right below it lies below the node. Programs with the same lines have
the same conditions and return the same numbers. -/
theorem treeLines_faithful :
  (∀ p : Program, p.IsRead → (∀ r ∈ p.returns, r.value.text.length ≤ Integer.maxDigits) →
      ∃ o : Outline, p.Says o ∧ p.treeLines = .ok o.sketched.lines
        ∧ o.sketched.lines.map readLine = o.entries
        ∧ o.sketched.lines.length = (p.clauses.map fun k => 1 + k.condition.nodeCount).sum + 2)
    ∧ (∀ (e : Condition) (d : Drawing) (place : List Nat) (label : String)
        (branches : List Drawing) (pending : List (List Nat × Condition)),
      d.node? place = some (.node label branches) →
      Sketch.step^[e.nodeCount] ⟨d, (place, e) :: pending⟩ = ⟨d.add place e.drawing, pending⟩)
    ∧ (∀ e : Condition, (∀ path d, (path, d) ∈ e.nodes ↔ e.node? path = some d)
        ∧ e.nodes.Pairwise fun x y => Precedes x.1 y.1)
    ∧ (∀ path path' b, Precedes path path' → Precedes path' (path ++ [b]) →
        path.length < path'.length)
    ∧ ∀ (p p' : Program) (lines lines' : List String), p.IsRead → p'.IsRead →
        (∀ r ∈ p.returns, r.value.text.length ≤ Integer.maxDigits) →
        (∀ r ∈ p'.returns, r.value.text.length ≤ Integer.maxDigits) →
        p.treeLines = .ok lines → p'.treeLines = .ok lines' → unlines lines = unlines lines' →
        ∃ o : Outline, p.Says o ∧ p'.Says o
  := by
  refine ⟨?_, ?_, ?_, ?_, ?_⟩
  · intro p hp hlength
    obtain ⟨o, hsaid, hlegible⟩ := hp.exists_outline hlength
    use o, hsaid
    rw [o.sketched_eq]
    use hsaid.treeLines_eq, map_readLine_eq hlegible.shows_lines
    rw [← hlegible.shows_lines.length_eq, Outline.entries, List.length_cons, List.length_append,
      length_clauseEntries hsaid.clauses, List.length_singleton]
  · intro e d place label branches pending h
    apply Sketch.iterate_step_part e h
  · intro e
    use fun _ _ => Condition.mem_nodes_iff
    apply e.pairwise_precedes_nodes
  · intro path path' b
    apply Precedes.length_lt_of_between
  · intro p p' lines lines' hp hp' hlength hlength' hlines hlines' heq
    obtain ⟨o, hsaid, hlegible⟩ := hp.exists_outline hlength
    obtain ⟨o', hsaid', hlegible'⟩ := hp'.exists_outline hlength'
    rw [hsaid.treeLines_eq] at hlines
    rw [hsaid'.treeLines_eq] at hlines'
    cases hlines
    cases hlines'
    obtain rfl := hlegible.eq_of_unlines hlegible' heq
    use o, hsaid

/-- A rule that writes `nestedProgram`. -/
def nestedRule : String :=
  "IF ((x > 5 OR IS-MISSING(y))) RETURN 1 ELSE RETURN 0"

/-- The rule `paddedRule` without its group and with a shorter numeral. -/
def trimmedRule : String :=
  "IF (a > 0) RETURN 7 ELSE RETURN 2"

/-- The tree of a program with a group has a line for the group. Two rules with the same tree say
the same. -/
theorem treeLines_faithful_nestedRule :
  Grammar.nestedProgram.IsRead
    ∧ Grammar.nestedProgram.treeLines = .ok
      ["RuleProgram", "├── IF #0 → RETURN 1", "│   └── ( )", "│       └── OR",
        "│           ├── x > 5", "│           └── IS-MISSING(y)", "└── ELSE → RETURN 0"]
    ∧ (∃ o : Outline, Grammar.nestedProgram.Says o ∧ o.sketched.lines.map readLine = o.entries
      ∧ o.sketched.lines.length = 7)
    ∧ ∃ p p', Rule.canonical paddedRule = .ok p ∧ Rule.canonical trimmedRule = .ok p'
      ∧ ∃ o : Outline, p.Says o ∧ p'.Says o
  := by
  obtain ⟨hlines, -, -, -, hsame⟩ := treeLines_faithful
  have hnested : Grammar.nestedProgram.IsRead := ⟨nestedRule, Or.inl rfl⟩
  obtain ⟨p, hp⟩ : ∃ p, Rule.canonical paddedRule = .ok p := ⟨_, rfl⟩
  obtain ⟨p', hp'⟩ : ∃ p, Rule.canonical trimmedRule = .ok p := ⟨_, rfl⟩
  obtain ⟨o, hsaid, -, hread, hlength⟩ := hlines Grammar.nestedProgram hnested (by decide)
  refine ⟨hnested, rfl, ⟨o, hsaid, hread, hlength⟩, p, p', hp, hp', ?_⟩
  have hlength : ∀ r ∈ p.returns, r.value.text.length ≤ Integer.maxDigits := by
    cases hp
    decide
  have hlength' : ∀ r ∈ p'.returns, r.value.text.length ≤ Integer.maxDigits := by
    cases hp'
    decide
  have htree : p.treeLines =
      .ok ["RuleProgram", "├── IF #0 → RETURN 7", "│   └── a > 0", "└── ELSE → RETURN 2"] := by
    cases hp
    rfl
  have htree' : p'.treeLines =
      .ok ["RuleProgram", "├── IF #0 → RETURN 7", "│   └── a > 0", "└── ELSE → RETURN 2"] := by
    cases hp'
    rfl
  apply hsame p p' _ _ ⟨_, Or.inr hp⟩ ⟨_, Or.inr hp'⟩ hlength hlength' htree htree' rfl

end Program

end Verdict
