import Verdict.Proofs.Condition.Nodes
import Verdict.Proofs.Console.Agreement
import Verdict.Proofs.Console.Drawing

/-!
# Labels

The label of a node tells what the node is: a group, a test for a missing value, a connective, or a
comparison with its name, its relation and its integer. So it tells how many branches follow, and
the labels of all nodes of a condition, one after the other, determine the condition. -/

namespace Verdict

open Console

/-! ### Legible conditions -/

namespace Condition

/-- The names are words that are not reserved, the operators are known, and the integers are not
negative. There may be groups. -/
def Legible : Condition → Prop
  | .compare name op literal => IsName name ∧ op.isKnown = true ∧ 0 ≤ literal
  | .missing name => IsName name
  | .join op left right => op.isKnown = true ∧ left.Legible ∧ right.Legible
  | .group inner => inner.Legible
  | .alien _ => False

/-- A condition is legible if what is left of it without groups is canonical. -/
theorem legible_of_reduce {e e' : Condition} (h : e.reduce = .ok e') (hcanonical : e'.Canonical) :
  e.Legible
  := by
  induction e, e', h using reduce_induction with
  | compare name op literal => exact ⟨hcanonical.1, hcanonical.2.1, hcanonical.2.2.1⟩
  | missing name => exact hcanonical
  | join op l l' r r' hl hr hop ihl ihr => exact ⟨hop, ihl hcanonical.2.1, ihr hcanonical.2.2⟩
  | group e e' h ih => apply ih hcanonical

end Condition

/-! ### Labels -/

/-- The text may be a label: it does not begin like a guide, and there is no line feed in it. -/
structure IsLabel (s : List Char) : Prop where
  head : ∀ c ∈ s.head?, c ∉ ['├', '└', '│', ' ']
  lineFeed : '\n' ∉ s

theorem isWordChar_of_isName {name : String} (h : IsName name) :
  ∀ c ∈ name.toList, isWordChar c = true
  := fun _ => Environment.isWordChar_of_isWord h.1

/-- A name begins with a letter. -/
theorem exists_head_of_isName {name : String} (h : IsName name) :
  ∃ c, name.toList.head? = some c ∧ isLetter c = true
  := by
  have hword := h.1
  cases hname : name.toList with
  | nil =>
    rw [hname] at hword
    cases hword
  | cons c cs =>
    rw [hname, isWord, Bool.and_eq_true] at hword
    use c, rfl, hword.1

theorem blank_not_mem_of_isName {name : String} (h : IsName name) :
  ' ' ∉ name.toList
  := fun hmem => ne_of_class (isWordChar_of_isName h ' ' hmem) rfl rfl

theorem lineFeed_not_mem_of_isName {name : String} (h : IsName name) :
  '\n' ∉ name.toList
  := fun hmem => ne_of_class (isWordChar_of_isName h '\n' hmem) rfl rfl

theorem not_mem_of_isLetter {c : Char} (h : isLetter c = true) :
  c ∉ ['├', '└', '│', ' ']
  := by
  intro hmem
  simp only [List.mem_cons, List.not_mem_nil, or_false] at hmem
  rcases hmem with rfl | rfl | rfl | rfl
  all_goals cases h

theorem lineFeed_not_mem_toDigits (n : Nat) :
  '\n' ∉ Nat.toDigits 10 n
  := fun hmem => ne_of_class ((isNumeral_toDigits n).2 '\n' hmem) rfl rfl

theorem lineFeed_not_mem_toString {n : Int} (h : 0 ≤ n) :
  '\n' ∉ (toString n).toList
  := by
  rw [toList_toString_of_nonneg h]
  apply lineFeed_not_mem_toDigits

theorem Relation.blank_not_mem (r : Relation) :
  ' ' ∉ r.text.toList
  := by
  cases r
  all_goals decide

theorem Relation.text_injective :
  Function.Injective Relation.text
  := by
  intro r r'
  cases r
  all_goals
    cases r'
    all_goals decide

theorem Connective.text_injective :
  Function.Injective Connective.text
  := by
  intro c c'
  cases c
  all_goals
    cases c'
    all_goals decide

/-- The forms of labels. -/
inductive LabelForm where
  | comparison
  | test
  | connective
  | group
  deriving DecidableEq

/-- The form of a label, as far as it can be told from its first character and from the characters
in it. -/
def labelForm (s : List Char) : LabelForm :=
  if s.head? = some '(' then .group
  else if ' ' ∈ s then .comparison
  else if '(' ∈ s then .test
  else .connective

namespace Condition

/-- The form of the label of a condition. -/
def form : Condition → LabelForm
  | .compare _ _ _ => .comparison
  | .missing _ => .test
  | .join _ _ _ => .connective
  | .group _ => .group
  | .alien _ => .group

theorem labelForm_label {e : Condition} (h : e.Legible) :
  labelForm e.label.toList = e.form
  := by
  cases e with
  | compare name op literal =>
    obtain ⟨c, hhead, hletter⟩ := exists_head_of_isName h.1
    have hc : c ≠ '(' := ne_of_class hletter rfl
    have hspace : ' ' ∈ (label (.compare name op literal)).toList := by
      simp [label, comparisonText]
    have hfirst : (label (.compare name op literal)).toList.head? = some c := by
      simp [label, comparisonText, hhead]
    rw [labelForm, hfirst, if_neg (by simpa using hc), if_pos hspace]
    rfl
  | missing name =>
    have hblank := blank_not_mem_of_isName h
    simp [labelForm, label, missingText, hblank, form]
  | join op left right =>
    cases op with
    | known c =>
      change labelForm c.text.toList = .connective
      cases c
      all_goals decide
    | foreign text => cases h.1
  | group inner =>
    change labelForm "( )".toList = .group
    decide
  | alien typeName => exact h.elim

/-- The labels of the nodes of a condition. -/
def labels (e : Condition) : List String :=
  e.nodes.map fun x => x.2.label

theorem labels_join (op : Operator Connective) (left right : Condition) :
  (join op left right).labels =
    op.text Connective.text :: (left.labels ++ right.labels)
  := by
  simp [labels, nodes, label, under, Function.comp_def]

theorem labels_group (inner : Condition) :
  (group inner).labels = "( )" :: inner.labels
  := by simp [labels, nodes, label, under, Function.comp_def]

/-- The names, relations and integers of comparisons can be told from their labels. -/
theorem comparisonText_inj {name name' : String} {op op' : Operator Relation} {n n' : Int}
    (h : (compare name op n).Legible) (h' : (compare name' op' n').Legible)
    (heq : comparisonText name op n = comparisonText name' op' n') :
  compare name op n = compare name' op' n'
  := by
  obtain ⟨hname, hop, -⟩ := h
  obtain ⟨hname', hop', -⟩ := h'
  cases op with
  | foreign text => cases hop
  | known r =>
    cases op' with
    | foreign text => cases hop'
    | known r' =>
      have hchars : ∀ (x : String) (s : Relation) (m : Int),
          (comparisonText x (.known s) m).toList =
            x.toList ++ ' ' :: (s.text.toList ++ ' ' :: (toString m).toList) := by
        intro x s m
        simp [comparisonText, Operator.text]
      rw [← String.toList_inj, hchars, hchars,
        append_cons_inj (blank_not_mem_of_isName hname) (blank_not_mem_of_isName hname'),
        append_cons_inj r.blank_not_mem r'.blank_not_mem, String.toList_inj, String.toList_inj,
        String.toList_inj] at heq
      obtain ⟨rfl, hr, hn⟩ := heq
      obtain rfl := Relation.text_injective hr
      rw [Int.toString_eq_repr, Int.toString_eq_repr, Int.repr_inj] at hn
      rw [hn]

theorem missingText_inj {name name' : String} (h : missingText name = missingText name') :
  name = name'
  := by
  rw [← String.toList_inj] at h
  simpa [missingText, String.toList_inj] using h

theorem exists_labels_eq_cons (e : Condition) :
  ∃ below, e.labels = e.label :: below
  := by
  cases e
  all_goals exact ⟨_, rfl⟩

/-- The first labels are the same, and so are their forms. -/
theorem label_eq_of_labels_append {e e' : Condition} (h : e.Legible) (h' : e'.Legible)
    {us vs : List String} (heq : e.labels ++ us = e'.labels ++ vs) :
  e.label = e'.label ∧ e.form = e'.form
  := by
  obtain ⟨below, hlabels⟩ := e.exists_labels_eq_cons
  obtain ⟨below', hlabels'⟩ := e'.exists_labels_eq_cons
  rw [hlabels, hlabels'] at heq
  have hlabel := (List.cons.inj heq).1
  use hlabel
  rw [← labelForm_label h, ← labelForm_label h', hlabel]

theorem connective_eq {op op' : Operator Connective} (h : op.isKnown = true)
    (h' : op'.isKnown = true) (htext : op.text Connective.text = op'.text Connective.text) :
  op = op'
  := by
  cases op with
  | foreign text => cases h
  | known c =>
    cases op' with
    | foreign text => cases h'
    | known c' => rw [Connective.text_injective htext]

/-- A condition is determined by the labels of its nodes, whatever labels follow. -/
theorem eq_of_labels_append {e e' : Condition} (h : e.Legible) (h' : e'.Legible)
    {us vs : List String} (heq : e.labels ++ us = e'.labels ++ vs) :
  e = e' ∧ us = vs
  := by
  induction e generalizing e' us vs with
  | compare name op n =>
    obtain ⟨hlabel, hform⟩ := label_eq_of_labels_append h h' heq
    cases e' with
    | compare name' op' n' =>
      use comparisonText_inj h h' hlabel
      apply (List.cons.inj heq).2
    | _ => cases hform
  | missing name =>
    obtain ⟨hlabel, hform⟩ := label_eq_of_labels_append h h' heq
    cases e' with
    | missing name' =>
      obtain rfl := missingText_inj hlabel
      use rfl
      apply (List.cons.inj heq).2
    | _ => cases hform
  | join op left right ihleft ihright =>
    obtain ⟨hlabel, hform⟩ := label_eq_of_labels_append h h' heq
    cases e' with
    | join op' left' right' =>
      rw [labels_join, labels_join, List.cons_append, List.cons_append, List.append_assoc,
        List.append_assoc] at heq
      obtain ⟨rfl, hrest⟩ := ihleft h.2.1 h'.2.1 (List.cons.inj heq).2
      obtain ⟨rfl, hrest⟩ := ihright h.2.2 h'.2.2 hrest
      rw [connective_eq h.1 h'.1 hlabel]
      use rfl
    | _ => cases hform
  | group inner ih =>
    obtain ⟨hlabel, hform⟩ := label_eq_of_labels_append h h' heq
    cases e' with
    | group inner' =>
      rw [labels_group, labels_group] at heq
      have hinner : inner'.Legible := h'
      obtain ⟨rfl, hrest⟩ := ih h hinner (List.cons.inj heq).2
      use rfl
    | alien typeName => exact h'.elim
    | _ => cases hform
  | alien typeName => exact h.elim

/-- The label of a legible condition may stand in a line. -/
theorem isLabel_label {e : Condition} (h : e.Legible) :
  IsLabel e.label.toList
  := by
  cases e with
  | compare name op n =>
    obtain ⟨hname, hop, hn⟩ := h
    obtain ⟨c, hhead, hletter⟩ := exists_head_of_isName hname
    have hfirst : (label (.compare name op n)).toList.head? = some c := by
      simp [label, comparisonText, hhead]
    cases op with
    | foreign text => cases hop
    | known r =>
      constructor
      · intro d hd
        obtain rfl := Option.some.inj (hfirst.symm.trans hd)
        apply not_mem_of_isLetter hletter
      · have hchars := lineFeed_not_mem_of_isName hname
        have hdigits := lineFeed_not_mem_toString hn
        have hsign : '\n' ∉ r.text.toList := by
          cases r
          all_goals decide
        simp [label, comparisonText, Operator.text, hchars, hsign] at hdigits ⊢
        apply hdigits
  | missing name =>
    have hchars := lineFeed_not_mem_of_isName h
    constructor
    · simp [label, missingText]
    · simp [label, missingText, hchars]
  | join op left right =>
    cases op with
    | known c =>
      change IsLabel c.text.toList
      cases c
      all_goals
        constructor
        · simp [Connective.text]
        · decide
    | foreign text => cases h.1
  | group inner =>
    change IsLabel "( )".toList
    constructor
    · simp
    · decide
  | alien typeName => exact h.elim

end Condition

/-! ### Labels of clauses -/

theorem isLabel_clauseLabel (index : Nat) {n : Int} (h : 0 ≤ n) :
  IsLabel (clauseLabel index n).toList
  := by
  have hindex := lineFeed_not_mem_toDigits index
  have hdigits := lineFeed_not_mem_toString h
  constructor
  · simp [clauseLabel]
  · simp [clauseLabel] at hdigits ⊢
    exact ⟨hindex, hdigits⟩

theorem isLabel_otherwiseLabel {n : Int} (h : 0 ≤ n) :
  IsLabel (otherwiseLabel n).toList
  := by
  have hdigits := lineFeed_not_mem_toString h
  constructor
  · simp [otherwiseLabel]
  · simp [otherwiseLabel] at hdigits ⊢
    apply hdigits

theorem clauseLabel_inj {index : Nat} {n n' : Int}
    (h : clauseLabel index n = clauseLabel index n') :
  n = n'
  := by
  rw [clauseLabel, clauseLabel, ← String.toList_inj] at h
  simpa [String.toList_inj] using h

theorem otherwiseLabel_inj {n n' : Int} (h : otherwiseLabel n = otherwiseLabel n') :
  n = n'
  := by
  rw [otherwiseLabel, otherwiseLabel, ← String.toList_inj] at h
  simpa [String.toList_inj] using h

/-- Clauses are not taken for the last one. -/
theorem clauseLabel_ne_otherwiseLabel (index : Nat) (n m : Int) :
  clauseLabel index n ≠ otherwiseLabel m
  := by
  intro h
  have hhead := congrArg (fun s : String => s.toList.head?) h
  simp [clauseLabel, otherwiseLabel] at hhead

end Verdict
